import SymbolMap.Identity
import SymbolMap.MemberRef
import SymbolMap.NameRow
import SymbolMap.Origin

/-!
# Elements

What a set maps: packages, classes, fields, methods, parameters and local variables. All of them
have names and an origin, and most of them stand in a list at a position by which they are known.
-/

namespace SymbolMap

/-- The names of something and the place where it is declared. -/
structure Element where
  names : NameRow
  origin : Origin
  deriving DecidableEq, Repr

/-- The name in the namespace at an index. -/
def Element.name? (e : Element) (ns : Nat) : Option String := e.names.get? ns

/-- What is an element among other things. -/
class IsElement (α : Type) where
  element : α → Element

/-! ## Positions -/

/-- Something at its position in the list that holds it. -/
structure Entry (α : Type) where
  position : Nat
  item : α
  deriving DecidableEq, Repr

/-- The items of a list at their positions. -/
def Entry.ofList {α : Type} (items : List α) : List (Entry α) :=
  items.mapIdx fun position item => ⟨position, item⟩

@[simp] theorem Entry.map_item_ofList {α : Type} (items : List α) :
    (Entry.ofList items).map Entry.item = items := by
  apply List.ext_getElem <;> simp [Entry.ofList]

theorem Entry.mem_ofList {α : Type} {items : List α} {e : Entry α} :
    e ∈ Entry.ofList items ↔ items[e.position]? = some e.item := by
  rw [Entry.ofList, List.mem_mapIdx]
  constructor
  · rintro ⟨i, h, rfl⟩
    simp [h]
  · intro h
    obtain ⟨hlt, hitem⟩ := List.getElem?_eq_some_iff.1 h
    exact ⟨e.position, hlt, by rw [hitem]⟩

end SymbolMap
