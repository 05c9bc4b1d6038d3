import SymbolMap.Element.Variable
import SymbolMap.Update

/-!
# Fields and methods

Fields and methods are the members of a class. They are looked up in the same way, by their name and
their signature: the type of a field, the descriptor of a method. A method holds at most one
parameter for each index, and local variables that are told apart by what is known of their indices.
-/

namespace SymbolMap

/-- Facts about a member, each of which may be unknown. -/
structure MemberFlags where
  isStatic : Option Bool
  isSynthetic : Option Bool
  deriving DecidableEq, Repr

def MemberFlags.unknown : MemberFlags := ⟨none, none⟩

/-- An element that a reference of the given kind can mean. -/
class IsMember (α : Type) (kind : outParam SymbolKind) (σ : outParam Type) extends IsElement α where
  signature? : α → Option σ

/-- A field; its type, if it is known, is spelled in the first namespace. -/
structure Field extends Element where
  owner : ClassId
  type : Option FieldType
  flags : MemberFlags
  deriving DecidableEq, Repr

instance : IsMember Field .fields FieldType where
  element := Field.toElement
  signature? := Field.type

/-- A method; its descriptor is spelled in the first namespace. -/
structure Method extends Element, Variables where
  id : MethodId
  descriptor : MethodDescriptor
  flags : MemberFlags
  deriving DecidableEq, Repr

instance : IsMember Method .methods MethodDescriptor where
  element := Method.toElement
  signature? := fun m => some m.descriptor

namespace Method

/-- Puts in a parameter, unless there is one at the index that does not give way. The result is the
parameter that is then at the index. -/
def insertParam (names : NameRow) (origin : Origin) (index : Nat) (table : Option Nat)
    (type : Option FieldType) : Update Method Param := do
  let m ← get
  names.expectSize m.names.size (.childNameCount m.names names.size)
  let new : Param := { names, origin, method := m.id, index, table, type }
  let settled := settle (·.index == index) new m.params
  set { m with params := settled.2 }
  return settled.1

/-- Puts in a local variable, unless there is one in its place that does not give way.
The place of a variable is that of the first one that agrees with all that is known of
its index. The result is the variable that is then in that place. -/
def insertLocal (names : NameRow) (origin : Origin) (index : LocalIndex)
    (type : Option FieldType) : Update Method LocalVar := do
  let m ← get
  names.expectSize m.names.size (.childNameCount m.names names.size)
  if index.isKnown then
    let new : LocalVar := { names, origin, method := m.id, index, type }
    let settled := settle (·.fits index) new m.locals
    set { m with locals := settled.2 }
    return settled.1
  else throw (.unplacedLocal names)

/-- The method with a parameter put in, beside the parameter that is then at the index. -/
def addParam (m : Method) (names : NameRow) (origin : Origin) (index : Nat) (table : Option Nat)
    (type : Option FieldType) : Except MappingError (Param × Method) :=
  (insertParam names origin index table type).result m

/-- The method with a local variable put in, beside the variable that is then in its place. -/
def addLocal (m : Method) (names : NameRow) (origin : Origin) (index : LocalIndex)
    (type : Option FieldType) : Except MappingError (LocalVar × Method) :=
  (insertLocal names origin index type).result m

theorem run_insertParam (m : Method) (names : NameRow) (origin : Origin) (index : Nat)
    (table : Option Nat) (type : Option FieldType) :
    (insertParam names origin index table type).run m =
      if names.size = m.names.size then
        let settled :=
          settle (·.index == index) ⟨⟨names, origin⟩, m.id, index, table, type⟩ m.params
        .ok settled.1 { m with params := settled.2 }
      else .error (.childNameCount m.names names.size) m :=
  NameRow.run_expectSize_bind ..

theorem run_insertLocal (m : Method) (names : NameRow) (origin : Origin) (index : LocalIndex)
    (type : Option FieldType) :
    (insertLocal names origin index type).run m =
      if names.size = m.names.size then
        if index.isKnown then
          let settled := settle (·.fits index) ⟨⟨names, origin⟩, m.id, index, type⟩ m.locals
          .ok settled.1 { m with locals := settled.2 }
        else .error (.unplacedLocal names) m
      else .error (.childNameCount m.names names.size) m := by
  refine (NameRow.run_expectSize_bind ..).trans ?_
  cases index.isKnown <;> rfl

section Accepted

variable {m n : Method} {names : NameRow} {origin : Origin} {type : Option FieldType}

/-- A parameter is settled with the others, and all else of the method stays. -/
theorem addParam_eq_ok_iff {index : Nat} {table : Option Nat} {p : Param} :
    m.addParam names origin index table type = .ok (p, n) ↔ names.size = m.names.size ∧
      let settled := settle (·.index == index) ⟨⟨names, origin⟩, m.id, index, table, type⟩ m.params
      p = settled.1 ∧ n = { m with params := settled.2 } := by
  unfold addParam
  rw [Update.result_eq_ok_iff, run_insertParam]
  by_cases h : names.size = m.names.size
  · simp [h, eq_comm]
  · simp [h]

/-- A local variable is settled with the others, and all else of the method stays. -/
theorem addLocal_eq_ok_iff {index : LocalIndex} {v : LocalVar} :
    m.addLocal names origin index type = .ok (v, n) ↔
      (names.size = m.names.size ∧ index.isKnown = true) ∧
      let settled := settle (·.fits index) ⟨⟨names, origin⟩, m.id, index, type⟩ m.locals
      v = settled.1 ∧ n = { m with locals := settled.2 } := by
  unfold addLocal
  rw [Update.result_eq_ok_iff, run_insertLocal]
  by_cases h : names.size = m.names.size
  · by_cases hknown : index.isKnown = true
    · simp [h, hknown, eq_comm]
    · simp [h, hknown]
  · simp [h]

end Accepted

end Method

end SymbolMap
