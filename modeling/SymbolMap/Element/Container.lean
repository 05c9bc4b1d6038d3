import SymbolMap.Element.Member

/-!
# Packages and classes

A class holds fields and methods, in the order in which they were added. Inner classes stand in the
set beside their outer class and point to it. Packages hold nothing: which classes are in a package
is known by their names alone.
-/

namespace SymbolMap

structure Package extends Element
  deriving DecidableEq, Repr

instance : IsElement Package := ⟨Package.toElement⟩

/-- What a class holds. -/
structure Members where
  fields : List Field
  methods : List Method
  deriving DecidableEq, Repr

def Members.none : Members := ⟨[], []⟩

/-- A class; `parent` is the class that it is nested in. -/
structure Class extends Element, Members where
  id : ClassId
  parent : Option ClassId
  deriving DecidableEq, Repr

instance : IsElement Class := ⟨Class.toElement⟩

namespace Class

/-- A class without members. -/
def bare (id : ClassId) (names : NameRow) (origin : Origin) (parent : Option ClassId) : Class :=
  { names, origin, id, parent, toMembers := .none }

/-- Adds a field. -/
def insertField (names : NameRow) (origin : Origin) (type : Option FieldType)
    (flags : MemberFlags) : Update Class Field := do
  let c ← get
  names.expectSize c.names.size (.memberNameCount c.names names.size)
  let field : Field := { names, origin, owner := c.id, type, flags }
  set { c with fields := c.fields ++ [field] }
  return field

/-- Adds a method and fills it in its place. If filling is refused, the class has the
method as far as it was filled. -/
def insertMethod {α : Type} (names : NameRow) (origin : Origin) (descriptor : MethodDescriptor)
    (flags : MemberFlags) (fill : Update Method α) : Update Class α := do
  let c ← get
  names.expectSize c.names.size (.memberNameCount c.names names.size)
  let id : MethodId := ⟨c.id, c.methods.length⟩
  fill.within { names, origin, id, descriptor, flags, toVariables := .none } fun m =>
    { c with methods := c.methods ++ [m] }

/-- The method that an id stands for, if it is one of this class. -/
def method? (c : Class) (id : MethodId) : Option Method :=
  if id.owner = c.id then c.methods[id.index]? else none

theorem method?_eq_some_iff {c : Class} {id : MethodId} {m : Method} :
    c.method? id = some m ↔ id.owner = c.id ∧ c.methods[id.index]? = some m := by
  unfold method?
  split <;> simp [*]

/-- Updates a method in its place. There is no result where the id is not that of a method of this
class. -/
def modifyMethod {α : Type} (id : MethodId) (edit : Update Method α) :
    Update Class (Option α) := do
  let c ← get
  match c.method? id with
  | none => return none
  | some m =>
    (some <$> edit).within m fun m => { c with methods := c.methods.set id.index m }

theorem run_insertField (c : Class) (names : NameRow) (origin : Origin) (type : Option FieldType)
    (flags : MemberFlags) :
    (insertField names origin type flags).run c =
      if names.size = c.names.size then
        let field : Field := ⟨⟨names, origin⟩, c.id, type, flags⟩
        .ok field { c with fields := c.fields ++ [field] }
      else .error (.memberNameCount c.names names.size) c :=
  NameRow.run_expectSize_bind ..

theorem run_insertMethod {α : Type} (c : Class) (names : NameRow) (origin : Origin)
    (descriptor : MethodDescriptor) (flags : MemberFlags) (fill : Update Method α) :
    (insertMethod names origin descriptor flags fill).run c =
      if names.size = c.names.size then
        Update.putBack (fun m => { c with methods := c.methods ++ [m] })
          (fill.run ⟨⟨names, origin⟩, .none, ⟨c.id, c.methods.length⟩, descriptor, flags⟩)
      else .error (.memberNameCount c.names names.size) c :=
  NameRow.run_expectSize_bind ..

theorem run_modifyMethod_of_none {α : Type} {c : Class} {id : MethodId} (h : c.method? id = none)
    (edit : Update Method α) : (modifyMethod id edit).run c = .ok none c := by
  simp only [modifyMethod, EStateM.run_bind, EStateM.run_get, h]
  rfl

theorem run_modifyMethod_of_some {α : Type} {c : Class} {id : MethodId} {m : Method}
    (h : c.method? id = some m) (edit : Update Method α) :
    (modifyMethod id edit).run c =
      Update.putBack (fun m => { c with methods := c.methods.set id.index m })
        ((some <$> edit).run m) := by
  simp only [modifyMethod, EStateM.run_bind, EStateM.run_get, h]
  rfl

end Class

end SymbolMap
