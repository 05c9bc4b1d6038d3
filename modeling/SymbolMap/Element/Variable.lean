import SymbolMap.Element.Basic
import SymbolMap.LocalIndex

/-!
# Parameters and local variables

Two declarations may claim the same parameter or local variable. They are rivals: the one whose
origin has the higher priority wins, and of two equal ones the earlier stays where it is.
-/

namespace SymbolMap

/-- A parameter; its type, if it is known, is spelled in the first namespace. -/
structure Param extends Element where
  method : MethodId
  index : Nat
  table : Option Nat
  type : Option FieldType
  deriving DecidableEq, Repr

instance : IsElement Param := ⟨Param.toElement⟩

/-- A local variable; its type, if it is known, is spelled in the first namespace. -/
structure LocalVar extends Element where
  method : MethodId
  index : LocalIndex
  type : Option FieldType
  deriving DecidableEq, Repr

instance : IsElement LocalVar := ⟨LocalVar.toElement⟩

/-- Whether the variable agrees with every known part of an index. -/
def LocalVar.fits (v : LocalVar) (index : LocalIndex) : Bool := index.agreesWith v.index

/-! ## Rival declarations -/

/-- Which of two rivals stands in the end, the one that is there or the new one. -/
def prevailing {α : Type} [IsElement α] (old new : α) : α :=
  if (IsElement.element new).origin.defersTo (IsElement.element old).origin then old else new

/-- Puts a declaration into a list. It contends with the first one there that is its rival, and goes
to the end if there is none. The result also has what now stands for the declaration. -/
def settle {α : Type} [IsElement α] (rivals : α → Bool) (new : α) : List α → α × List α
  | [] => (new, [new])
  | old :: rest =>
    if rivals old then
      let winner := prevailing old new
      (winner, winner :: rest)
    else
      let settled := settle rivals new rest
      (settled.1, old :: settled.2)

section Settle

variable {α : Type} [IsElement α] {rivals : α → Bool} {new : α} {items : List α}

/-- Without a rival the declaration goes to the end. -/
theorem settle_of_forall_not (h : ∀ x ∈ items, rivals x = false) :
    settle rivals new items = (new, items ++ [new]) := by
  induction items with
  | nil => rfl
  | cons old rest ih =>
    have := ih fun x hx => h x (List.mem_cons_of_mem _ hx)
    simp [settle, h old, this]

/-- The first rival is contended with in place. -/
theorem settle_append_cons {before after : List α} {old : α}
    (h : ∀ x ∈ before, rivals x = false) (hold : rivals old = true) :
    settle rivals new (before ++ old :: after) =
      (prevailing old new, before ++ prevailing old new :: after) := by
  induction before with
  | nil => simp [settle, hold]
  | cons x rest ih =>
    have := ih fun y hy => h y (List.mem_cons_of_mem _ hy)
    simp [settle, h x, this]

/-- What stands for the declaration is in the list. -/
theorem fst_settle_mem : (settle rivals new items).1 ∈ (settle rivals new items).2 := by
  induction items with
  | nil => simp [settle]
  | cons old rest ih =>
    unfold settle
    split
    · simp
    · exact List.mem_cons_of_mem _ ih

end Settle

/-! ## What a method holds -/

/-- The parameters and local variables of a method. -/
structure Variables where
  params : List Param
  locals : List LocalVar
  deriving DecidableEq, Repr

namespace Variables

def none : Variables := ⟨[], []⟩

/-- The parameter at an index. -/
def param? (v : Variables) (index : Nat) : Option Param := v.params.find? (·.index == index)

/-- The local variables that agree with every known part of an index. -/
def findLocals (v : Variables) (index : LocalIndex) : List (Entry LocalVar) :=
  (Entry.ofList v.locals).filter (·.item.fits index)

/-- The first of the local variables that agree with every known part of an index. -/
def findLocal? (v : Variables) (index : LocalIndex) : Option (Entry LocalVar) :=
  (v.findLocals index).head?

end Variables

end SymbolMap
