import SymbolMap.Element.Container
import SymbolMap.Namespace
import SymbolMap.Table

/-!
# Mapping sets

A set maps between two or more namespaces. It owns packages and classes; classes own their members,
and methods their parameters and local variables. Types of fields and descriptors of methods are
kept in the spelling of the first namespace, the home of the set.

The operations of this module resolve namespaces and add elements. Elements are added in place: what
does not fit is refused, and the set is left with what was done to it until then.
-/

namespace SymbolMap

/-- A set of mappings. -/
structure MappingSet where
  id : SetId
  namespaceNames : List String
  packages : Table Package
  classes : Table Class

namespace MappingSet

/-- A set without elements. No names stand for the two default namespaces. -/
def create (id : SetId) (names : List String) : Except MappingError MappingSet := do
  let names ← Namespace.validNames names
  return ⟨id, names, .empty names.length, .empty names.length⟩

/-! ## Namespaces -/

/-- How many namespaces there are. -/
def width (s : MappingSet) : Nat := s.namespaceNames.length

/-- The namespaces, in order. -/
def namespaces (s : MappingSet) : List Namespace :=
  s.namespaceNames.mapIdx fun index name => ⟨name, index, s.id⟩

/-- The index of the namespace that types and descriptors are kept in. -/
def homeIndex : Nat := 0

/-- The namespace that types and descriptors are kept in. -/
def home (s : MappingSet) : Namespace := ⟨s.namespaceNames.headD "", homeIndex, s.id⟩

/-- The namespace of a name. -/
def findNamespace? (s : MappingSet) (name : String) : Option Namespace :=
  s.namespaces.find? (·.name == name)

/-- The namespace of a name, which has to be one of the set. -/
def findNamespace (s : MappingSet) (name : String) : Except MappingError Namespace :=
  match s.findNamespace? name with
  | some ns => .ok ns
  | none => .error (.unknownNamespace name s.namespaceNames)

/-- The index of the namespace of a name. -/
def indexOfName (s : MappingSet) (name : String) : Except MappingError Nat := do
  let ns ← s.findNamespace name
  return ns.index

/-- The index of a namespace in this set. A namespace of another set stands for the one of this set
that has its name. -/
def indexOf (s : MappingSet) (ns : Namespace) : Except MappingError Nat :=
  if ns.set = s.id then
    if ns.index < s.width then .ok ns.index
    else .error (.namespaceOutOfBounds ns s.namespaceNames)
  else
    match s.findNamespace? ns.name with
    | some own => .ok own.index
    | none => .error (.foreignNamespace ns.name s.namespaceNames)

/-! ## Ids -/

/-- The position of a class that this set handed out the id for. -/
def position? (s : MappingSet) (id : ClassId) : Option Nat :=
  if id.set = s.id then some id.index else none

/-- The class of an id. -/
def class? (s : MappingSet) (id : ClassId) : Option Class :=
  (s.position? id).bind s.classes.get?

/-- The method of an id. -/
def method? (s : MappingSet) (id : MethodId) : Option Method :=
  (s.class? id.owner).bind fun c => c.methods[id.index]?

/-- The class that a class is nested in. -/
def parent? (s : MappingSet) (c : Class) : Option Class := c.parent.bind s.class?

theorem class?_eq_some_iff {s : MappingSet} {id : ClassId} {c : Class} :
    s.class? id = some c ↔ id.set = s.id ∧ s.classes.get? id.index = some c := by
  unfold class? position?
  by_cases hset : id.set = s.id
  · rw [if_pos hset, Option.bind_some]
    exact (and_iff_right hset).symm
  · rw [if_neg hset]
    constructor
    · intro h
      cases h
    · exact fun h => absurd h.1 hset

/-! ## Additions -/

/-- Adds a package. The result is its position, at which it is looked up again. -/
def insertPackage (names : NameRow) (origin : Origin) : Update MappingSet Nat := do
  let s ← get
  names.expectSize s.width (.nameCount names.size s.namespaceNames)
  let position := s.packages.size
  let t := { s with packages := s.packages.push ⟨⟨names, origin⟩⟩ }
  set t
  match t.packages.get? position with
  | some _ => return position
  | none => throw .vanishedPackage

/-- Adds a class, inside of another one if a parent is given. -/
def insertClass (names : NameRow) (origin : Origin) (parent : Option ClassId) :
    Update MappingSet ClassId := do
  let s ← get
  names.expectSize s.width (.nameCount names.size s.namespaceNames)
  match parent.filter fun outer => (s.class? outer).isNone with
  | some outer => throw (.foreignParent outer names)
  | none =>
    let id : ClassId := ⟨s.id, s.classes.size⟩
    set { s with classes := s.classes.push (.bare id names origin parent) }
    return id

/-- The set with another class at a position. By its names that is found which the class before it
had. -/
def withClass (s : MappingSet) (position : Nat) (c : Class) : MappingSet :=
  { s with classes := s.classes.replace position c }

/-- Updates a class in its place. -/
def modifyClass {α : Type} (id : ClassId) (edit : Update Class α) : Update MappingSet α := do
  let s ← get
  match s.class? id with
  | none => throw (.foreignClass id)
  | some c => edit.within c (s.withClass id.index)

/-- Adds a field to a class. -/
def insertField (owner : ClassId) (names : NameRow) (origin : Origin) (type : Option FieldType)
    (flags : MemberFlags) : Update MappingSet Field :=
  modifyClass owner (Class.insertField names origin type flags)

/-- Adds a method to a class and fills it. -/
def insertMethod {α : Type} (owner : ClassId) (names : NameRow) (origin : Origin)
    (descriptor : MethodDescriptor) (flags : MemberFlags) (fill : Update Method α) :
    Update MappingSet α :=
  modifyClass owner (Class.insertMethod names origin descriptor flags fill)

/-- Updates a method of the given class. There is no result where the method is one of another
class. -/
def modifyMethod {α : Type} (owner : ClassId) (id : MethodId) (edit : Update Method α) :
    Update MappingSet (Option α) :=
  modifyClass owner (Class.modifyMethod id edit)

/-- A package is looked up at the end of the table, where it was put just before, and is there. -/
theorem run_insertPackage (s : MappingSet) (names : NameRow) (origin : Origin) :
    (insertPackage names origin).run s =
      if names.size = s.width then
        .ok s.packages.size { s with packages := s.packages.push ⟨⟨names, origin⟩⟩ }
      else .error (.nameCount names.size s.namespaceNames) s := by
  refine (NameRow.run_expectSize_bind ..).trans ?_
  simp only [Table.get?_push, if_true]
  rfl

theorem run_insertClass (s : MappingSet) (names : NameRow) (origin : Origin)
    (parent : Option ClassId) :
    (insertClass names origin parent).run s =
      if names.size = s.width then
        match parent.filter fun outer => (s.class? outer).isNone with
        | some outer => .error (.foreignParent outer names) s
        | none =>
          let id : ClassId := ⟨s.id, s.classes.size⟩
          .ok id { s with classes := s.classes.push (.bare id names origin parent) }
      else .error (.nameCount names.size s.namespaceNames) s := by
  refine (NameRow.run_expectSize_bind ..).trans ?_
  cases parent.filter fun outer => (s.class? outer).isNone <;> rfl

theorem run_modifyClass_of_none {α : Type} {s : MappingSet} {id : ClassId} (h : s.class? id = none)
    (edit : Update Class α) : (modifyClass id edit).run s = .error (.foreignClass id) s := by
  simp only [modifyClass, EStateM.run_bind, EStateM.run_get, h]
  rfl

theorem run_modifyClass_of_some {α : Type} {s : MappingSet} {id : ClassId} {c : Class}
    (h : s.class? id = some c) (edit : Update Class α) :
    (modifyClass id edit).run s = Update.putBack (s.withClass id.index) (edit.run c) := by
  simp only [modifyClass, EStateM.run_bind, EStateM.run_get, h]
  rfl

/-! ## Accepted additions

A caller that gives up what a refused addition leaves has these: the set that comes out beside the
result, or the refusal alone. -/

/-- The set with a package added, beside the position of the package. -/
def addPackage (s : MappingSet) (names : NameRow) (origin : Origin) :
    Except MappingError (Nat × MappingSet) :=
  (insertPackage names origin).result s

/-- The set with a class added, beside the id of the class. -/
def addClass (s : MappingSet) (names : NameRow) (origin : Origin) (parent : Option ClassId) :
    Except MappingError (ClassId × MappingSet) :=
  (insertClass names origin parent).result s

/-- The set with a field added, beside the field. -/
def addField (s : MappingSet) (owner : ClassId) (names : NameRow) (origin : Origin)
    (type : Option FieldType) (flags : MemberFlags) : Except MappingError (Field × MappingSet) :=
  (insertField owner names origin type flags).result s

/-- The set with a method added, beside what filling it has given. -/
def addMethod {α : Type} (s : MappingSet) (owner : ClassId) (names : NameRow) (origin : Origin)
    (descriptor : MethodDescriptor) (flags : MemberFlags)
    (fill : Method → Except MappingError (α × Method)) : Except MappingError (α × MappingSet) :=
  (insertMethod owner names origin descriptor flags (.ofResult fill)).result s

/-- The set with a method changed, if it is one of the given class. -/
def editMethod {α : Type} (s : MappingSet) (owner : ClassId) (id : MethodId)
    (edit : Method → Except MappingError (α × Method)) :
    Except MappingError (Option (α × MappingSet)) := do
  let (result, s) ← (modifyMethod owner id (.ofResult edit)).result s
  return result.map (·, s)

end MappingSet

end SymbolMap
