import SymbolMap.Text.Quoted

/-!
# What a set hands out

A set is known by an id that no other set has, copies of it apart. Its namespaces, its classes and
their methods are known by a position and the id of the set, so that a set can tell what was handed
out by another one.
-/

namespace SymbolMap

/-- Identifies a set and the copies of it. -/
structure SetId where
  number : Nat
  deriving DecidableEq, Repr

def SetId.outline (id : SetId) : String := "SetId(#" ++ Nat.repr id.number ++ ")"

/-- A namespace of a set; `index` is its position among the namespaces of that set. -/
structure Namespace where
  name : String
  index : Nat
  set : SetId
  deriving DecidableEq, Repr

def Namespace.outline (ns : Namespace) : String :=
  "MappingNamespace \x7b name: " ++ Text.quoted ns.name ++ ", index: " ++ Nat.repr ns.index
    ++ ", set: " ++ ns.set.outline ++ " \x7d"

/-- The position of a class in its set. -/
structure ClassId where
  set : SetId
  index : Nat
  deriving DecidableEq, Repr

def ClassId.outline (id : ClassId) : String :=
  "ClassId \x7b set: " ++ id.set.outline ++ ", index: " ++ Nat.repr id.index ++ " \x7d"

/-- The position of a method in its class. -/
structure MethodId where
  owner : ClassId
  index : Nat
  deriving DecidableEq, Repr

end SymbolMap
