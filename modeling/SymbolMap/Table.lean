import Std.Data.TreeMap
import SymbolMap.Element.Basic

/-!
# Tables of named elements

A table holds elements in the order in which they were added, and for each name the positions of the
elements that have it: once over all namespaces and once for each of them. A look-up reads the
positions and so never walks over all elements.
-/

namespace SymbolMap

/-! ## Names and positions -/

/-- For each name, the positions of the elements that have it, in ascending order. -/
abbrev NameIndex := Std.TreeMap String (Array Nat)

namespace NameIndex

/-- Notes that the element at `position` has the name. -/
def note (index : NameIndex) (name : String) (position : Nat) : NameIndex :=
  index.alter name fun positions => some ((positions.getD #[]).push position)

/-- The positions of the elements that have the name. -/
def positions (index : NameIndex) (name : String) : List Nat := (index.getD name #[]).toList

@[simp] theorem positions_empty (name : String) : positions ∅ name = [] := by
  simp [positions]

theorem positions_note (index : NameIndex) (name other : String) (position : Nat) :
    (index.note name position).positions other =
      if name = other then index.positions other ++ [position] else index.positions other := by
  simp only [positions, note, Std.TreeMap.getD_alter, Std.LawfulEqOrd.compare_eq_iff_eq]
  split
  · rename_i h
    subst h
    simp [Std.TreeMap.getD_eq_getD_getElem?]
  · rfl

end NameIndex

/-! ## Tables -/

/-- Elements with an index over their names. -/
structure Table (α : Type) where
  elements : Array α
  anywhere : NameIndex
  perNamespace : List NameIndex

namespace Table

variable {α : Type}

/-- A table for elements with the given number of name slots. -/
def empty (namespaces : Nat) : Table α := ⟨#[], ∅, List.replicate namespaces ∅⟩

def size (t : Table α) : Nat := t.elements.size

/-- The element at a position. -/
def get? (t : Table α) (position : Nat) : Option α := t.elements[position]?

/-- Adds an element at the end. An element that has a name in more than one namespace is noted once
for that name over all namespaces. -/
def push [IsElement α] (t : Table α) (item : α) : Table α :=
  let names := (IsElement.element item).names
  { elements := t.elements.push item
    anywhere := names.distinct.foldl (fun index name => index.note name t.size) t.anywhere
    perNamespace := t.perNamespace.mapIdx fun ns index =>
      match names.get? ns with
      | some name => index.note name t.size
      | none => index }

/-- Puts another element at a position. It has the names of the one that was there, for the index
stays as it is. -/
def replace (t : Table α) (position : Nat) (item : α) : Table α :=
  { t with elements := t.elements.setIfInBounds position item }

/-- All elements, in the order in which they were added. -/
def entries (t : Table α) : List (Entry α) := Entry.ofList t.elements.toList

/-- The elements at the given positions. -/
def select (t : Table α) (positions : List Nat) : List (Entry α) :=
  positions.filterMap fun position => (t.get? position).map (⟨position, ·⟩)

/-- The elements that have the name in some namespace. -/
def named (t : Table α) (name : String) : List (Entry α) := t.select (t.anywhere.positions name)

/-- The elements that have the name in the namespace at an index. -/
def namedAt (t : Table α) (ns : Nat) (name : String) : List (Entry α) :=
  t.select ((t.perNamespace[ns]?.getD ∅).positions name)

@[simp] theorem size_empty (namespaces : Nat) : (empty namespaces : Table α).size = 0 := rfl

@[simp] theorem size_push [IsElement α] (t : Table α) (item : α) :
    (t.push item).size = t.size + 1 := by
  simp [push, size]

@[simp] theorem size_replace (t : Table α) (position : Nat) (item : α) :
    (t.replace position item).size = t.size := by
  simp [replace, size]

theorem get?_push [IsElement α] (t : Table α) (item : α) (position : Nat) :
    (t.push item).get? position = if position = t.size then some item else t.get? position := by
  exact Array.getElem?_push

theorem get?_replace (t : Table α) (position other : Nat) (item : α) :
    (t.replace position item).get? other =
      if position = other ∧ other < t.size then some item else t.get? other := by
  simp only [replace, get?, size, Array.getElem?_setIfInBounds]
  by_cases h : position = other <;> by_cases hlt : other < t.elements.size <;> simp [h, hlt]

end Table

end SymbolMap
