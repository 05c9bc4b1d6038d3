import SymbolMap.Element.Basic

/-!
# Drafts in lists

A draft that holds others keeps them in a list and gives them out one at a time: the change that a
caller wants to make comes in as a function and is made in place. The functions of this module make
such changes to a new item at the end, or to the first item that fits.

Declarations about one class or method tend to follow each other, so a look-up by a key first tries
the position at which the last look-up ended. It takes that shortcut for the same key only, and only
if what stands there still fits.
-/

namespace SymbolMap

variable {α δ : Type}

/-- Changes a new item and puts it at the end of a list. -/
def editNew (new : δ) (edit : δ → α × δ) (items : List δ) : α × List δ :=
  let edited := edit new
  (edited.1, items ++ [edited.2])

/-- Changes the first item of a list that fits. If there is none, a new item is changed and put at
the end. -/
def editFirst (fits : δ → Bool) (new : δ) (edit : δ → α × δ) : List δ → α × List δ
  | [] =>
    let edited := edit new
    (edited.1, [edited.2])
  | item :: rest =>
    if fits item then
      let edited := edit item
      (edited.1, edited.2 :: rest)
    else
      let edited := editFirst fits new edit rest
      (edited.1, item :: edited.2)

/-! ## Look-ups that remember the last one -/

/-- The key of the last look-up and the position at which it ended. -/
structure Recent (κ : Type) where
  key : κ
  position : Nat
  deriving DecidableEq, Repr

/-- The first item of the list that fits. -/
def firstFit (fits : δ → Bool) (items : List δ) : Option (Entry δ) :=
  (Entry.ofList items).find? fun e => fits e.item

/-- The item that a look-up for the key ends at. -/
def Recent.find? {κ : Type} [DecidableEq κ] (recent : Option (Recent κ)) (key : κ)
    (fits : δ → Bool) (items : List δ) : Option (Entry δ) :=
  match recent with
  | none => firstFit fits items
  | some r =>
    match items[r.position]? with
    | none => firstFit fits items
    | some item => if r.key = key && fits item then some ⟨r.position, item⟩ else firstFit fits items

end SymbolMap
