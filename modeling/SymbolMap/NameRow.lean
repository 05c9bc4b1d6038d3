import SymbolMap.Text.Blank
import SymbolMap.Text.Quoted

/-!
# The names of an element

An element has one name slot for each namespace of its set, at the index of that namespace. A slot
may be empty.
-/

namespace SymbolMap

/-- One slot for each namespace. -/
structure NameRow where
  slots : List (Option String)
  deriving DecidableEq, Repr

namespace NameRow

/-- The given number of empty slots. -/
def vacant (count : Nat) : NameRow := ⟨List.replicate count none⟩

/-- How many slots there are. -/
def size (n : NameRow) : Nat := n.slots.length

/-- The slot of a namespace, where `none` means that there is no such slot. -/
def slot? (n : NameRow) (ns : Nat) : Option (Option String) := n.slots[ns]?

/-- The name in a namespace, if the slot exists and holds one. -/
def get? (n : NameRow) (ns : Nat) : Option String := (n.slot? ns).join

/-- Whether some slot holds the name. -/
def contains (n : NameRow) (name : String) : Bool := n.slots.contains (some name)

/-- Whether no slot holds a name. -/
def isVacant (n : NameRow) : Bool := n.slots.all Option.isNone

/-- How many slots are empty. -/
def vacancies (n : NameRow) : Nat := n.slots.countP Option.isNone

/-- Each name that some slot holds, once, in the order of the slots. -/
def distinct (n : NameRow) : List String := (n.slots.filterMap id).eraseDups

/-- Fills or empties a slot. A slot that does not exist stays so. -/
def set (n : NameRow) (ns : Nat) (name : Option String) : NameRow := ⟨n.slots.set ns name⟩

/-- Empties the slots that hold nothing but white space. -/
def clearBlanks (n : NameRow) : NameRow :=
  ⟨n.slots.map fun slot => slot.filter fun name => !Text.allBlank name⟩

/-- The slots as messages show them. -/
def outline (n : NameRow) : String :=
  Text.bracketed (n.slots.map fun slot => Text.optional (slot.map Text.quoted))

@[simp] theorem size_vacant (count : Nat) : (vacant count).size = count := by
  simp [vacant, size]

@[simp] theorem size_set (n : NameRow) (ns : Nat) (name : Option String) :
    (n.set ns name).size = n.size := by
  simp [set, size]

@[simp] theorem size_clearBlanks (n : NameRow) : n.clearBlanks.size = n.size := by
  simp [clearBlanks, size]

@[simp] theorem get?_vacant (count ns : Nat) : (vacant count).get? ns = none := by
  simp [vacant, get?, slot?, List.getElem?_replicate]
  split <;> rfl

theorem get?_clearBlanks (n : NameRow) (ns : Nat) :
    n.clearBlanks.get? ns = (n.get? ns).filter fun name => !Text.allBlank name := by
  simp only [clearBlanks, get?, slot?, List.getElem?_map]
  rcases n.slots[ns]? with _ | _ | _ <;> rfl

end NameRow

end SymbolMap
