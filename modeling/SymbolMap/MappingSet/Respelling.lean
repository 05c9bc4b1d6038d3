import SymbolMap.MappingSet.Basic

/-!
# Respelling between namespaces

A class is spelled in a namespace by its qualified name: the names of the classes around it and its
own, from the outside in. `respell` replaces the class names of a type or descriptor that are names
of classes of the set in one namespace by their spelling in another one. A name stays as it is where
no class has it, or where the class or one around it has no name in the other namespace.
-/

namespace SymbolMap

/-- What mentions classes by name. -/
class MentionsClasses (τ : Type) where
  /-- Whether a class is mentioned at all. -/
  mentionsClass : τ → Bool
  /-- Replaces every class name. -/
  mapClasses : (ClassName → ClassName) → τ → τ

namespace FieldType

/-- Replaces the class name of a type. Levels of nested arrays are merged. -/
def mapClasses (f : ClassName → ClassName) : FieldType → FieldType
  | base type => base type
  | object name => object (f name)
  | array component dimension => arrayOf (component.mapClasses f) dimension

instance : MentionsClasses FieldType := ⟨mentionsClass, mapClasses⟩

end FieldType

namespace ReturnType

/-- Replaces the class name of what is returned. -/
def mapClasses (f : ClassName → ClassName) : ReturnType → ReturnType
  | void => void
  | value type => value (type.mapClasses f)

instance : MentionsClasses ReturnType := ⟨mentionsClass, mapClasses⟩

end ReturnType

namespace MethodDescriptor

/-- Replaces the class names of all parameters and of what is returned. -/
def mapClasses (f : ClassName → ClassName) (d : MethodDescriptor) : MethodDescriptor :=
  ⟨d.params.map (·.mapClasses f), d.returns.mapClasses f⟩

instance : MentionsClasses MethodDescriptor := ⟨mentionsClass, mapClasses⟩

end MethodDescriptor

namespace MappingSet

open MentionsClasses

variable {τ : Type} [MentionsClasses τ]

/-- The names of the class at a position and of those around it, joined by dots from the outside in.
There is no such name where one of them has none in the namespace. A class stands behind the one
that it is nested in, so the search goes down. -/
def qualifiedName? (s : MappingSet) (ns position : Nat) : Option String := do
  let c ← s.classes.get? position
  let name ← c.name? ns
  let own := ClassName.sourceText ⟨name⟩
  match c.parent with
  | none => some own
  | some parent =>
    let outer ← s.position? parent
    if _h : outer < position then
      let outerName ← s.qualifiedName? ns outer
      some (outerName ++ "." ++ own)
    else none
termination_by position

/-- The qualified name of a class in a namespace. -/
def qualifiedName (s : MappingSet) (c : Class) (ns : Namespace) :
    Except MappingError (Option String) := do
  let ns ← s.indexOf ns
  return s.qualifiedName? ns c.id.index

/-- The spelling in the namespace `target` of a class name of the namespace `source`. -/
def respellName (s : MappingSet) (source target : Nat) (name : ClassName) : ClassName :=
  match s.classes.namedAt source name.text with
  | [] => name
  | found :: _ =>
    match s.qualifiedName? target found.position with
    | some qualified => .ofSpelling qualified
    | none => name

/-- Respells from the namespace at one index to that at another one. -/
def respellAt (s : MappingSet) (source target : Nat) (value : τ) : τ :=
  if source = target || !mentionsClass value then value
  else mapClasses (s.respellName source target) value

/-- Respells from one namespace to another. What mentions no class needs no namespaces. -/
def respell (s : MappingSet) (source target : Namespace) (value : τ) : Except MappingError τ :=
  if mentionsClass value then do
    let source ← s.indexOf source
    let target ← s.indexOf target
    return s.respellAt source target value
  else .ok value

/-- Respells what is kept in the set. -/
def respellFromHome (s : MappingSet) (target : Namespace) (value : τ) : Except MappingError τ :=
  s.respell s.home target value

/-- Respells into what is kept in the set. -/
def respellToHome (s : MappingSet) (source : Namespace) (value : τ) : Except MappingError τ :=
  s.respell source s.home value

/-- The type of a field, spelled in a namespace. -/
def typeOf (s : MappingSet) (f : Field) (ns : Namespace) : Except MappingError (Option FieldType) :=
  match f.type with
  | none => .ok none
  | some type => some <$> s.respellFromHome ns type

/-- The descriptor of a method, spelled in a namespace. -/
def descriptorOf (s : MappingSet) (m : Method) (ns : Namespace) :
    Except MappingError MethodDescriptor :=
  s.respellFromHome ns m.descriptor

end MappingSet

end SymbolMap
