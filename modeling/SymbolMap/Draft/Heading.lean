import SymbolMap.Error
import SymbolMap.Report

/-!
# Headings of drafts

A draft is a declaration that a reader of a mapping file is still filling in. All drafts have a
heading: the names of the namespaces, one name slot for each of them, and the position of the
declaration. Names are given slot by slot, by the index or by the name of the namespace.
-/

namespace SymbolMap

/-- What all drafts have. -/
structure Heading where
  namespaces : List String
  names : NameRow
  coords : Coords
  deriving DecidableEq, Repr

/-- A heading with empty slots. -/
def Heading.blank (namespaces : List String) (coords : Coords) : Heading :=
  ⟨namespaces, .vacant namespaces.length, coords⟩

/-- What has a heading that can be replaced. -/
class Draft (δ : Type) where
  heading : δ → Heading
  withHeading : δ → Heading → δ
  heading_withHeading : ∀ d h, heading (withHeading d h) = h := by intros; rfl

namespace Draft

variable {δ : Type} [Draft δ]

/-- The name in the slot at an index. -/
def name? (d : δ) (ns : Nat) : Option String := (heading d).names.get? ns

/-- Gives a name in the namespace at an index. A name that is there already is only replaced if
`overwrite` is set. -/
def assign (d : δ) (ns : Nat) (name : String) (overwrite : Bool) : Except MappingError δ :=
  match (heading d).names.slot? ns with
  | none => .error (.slotOutOfBounds ns (heading d).namespaces.length)
  | some slot =>
    if overwrite || slot.isNone then
      .ok (withHeading d { heading d with names := (heading d).names.set ns (some name) })
    else .ok d

/-- The index of the namespace of a name. -/
def indexOf (d : δ) (ns : String) : Except MappingError Nat :=
  match (heading d).namespaces.findIdx? (· == ns) with
  | some index => .ok index
  | none => .error (.undeclaredNamespace ns (heading d).namespaces)

/-- Gives a name in the namespace of a name. -/
def assignBy (d : δ) (ns : String) (name : String) (overwrite : Bool) : Except MappingError δ := do
  let ns ← indexOf d ns
  assign d ns name overwrite

/-- Moves the draft to another position. -/
def withCoords (d : δ) (coords : Coords) : δ := withHeading d { heading d with coords }

/-- A change that may be refused, as one that leaves the draft as it is if it is refused. -/
def attempt (change : δ → Except MappingError δ) (d : δ) : Except MappingError Unit × δ :=
  match change d with
  | .ok changed => (.ok (), changed)
  | .error e => (.error e, d)

end Draft

end SymbolMap
