import SymbolMap.Identity
import SymbolMap.NameRow
import SymbolMap.MemberRef

/-!
# Refusals

What the operations on sets and drafts refuse, by cause. A cause carries all that its message
mentions; the wording is in `MappingError.message` alone.
-/

namespace SymbolMap

/-- Why an operation on a set or a draft was refused. -/
inductive MappingError where
  /-- a set needs at least two namespaces -/
  | tooFewNamespaces (names : List String)
  /-- namespaces have names -/
  | unnamedNamespace (names : List String)
  /-- namespaces of a set have different names -/
  | repeatedNamespace (name : String) (names : List String)
  /-- the set has no namespace of that name -/
  | unknownNamespace (name : String) (names : List String)
  /-- the namespace is one of another set, and this set has none of its name -/
  | foreignNamespace (name : String) (names : List String)
  /-- the namespace claims to be of this set, which has fewer namespaces -/
  | namespaceOutOfBounds (ns : Namespace) (names : List String)
  /-- the draft has no slot at that index -/
  | slotOutOfBounds (ns count : Nat)
  /-- the draft has no namespace of that name -/
  | undeclaredNamespace (name : String) (names : List String)
  /-- a class is looked up in a namespace that the draft does not have -/
  | classSlotOutOfBounds (ns : Nat) (name : ClassName) (names : List String)
  /-- a method is looked up in a namespace that the draft does not have -/
  | methodSlotOutOfBounds (ns : Nat) (ref : MethodRef) (names : List String)
  /-- an element of the set has one name slot for each namespace -/
  | nameCount (count : Nat) (names : List String)
  /-- a package that was added is found at its position -/
  | vanishedPackage
  /-- the class that encloses another one is in the same set -/
  | foreignParent (parent : ClassId) (names : NameRow)
  /-- the class is not one of this set -/
  | foreignClass (id : ClassId)
  /-- a field or method has as many name slots as its class -/
  | memberNameCount (owner : NameRow) (count : Nat)
  /-- a parameter or local variable has as many name slots as its method -/
  | childNameCount (owner : NameRow) (count : Nat)
  /-- a local variable has a slot or a place in the local variable table -/
  | unplacedLocal (names : NameRow)
  deriving DecidableEq, Repr

namespace MappingError

open Text

/-- The complaint that a set lacks a namespace. -/
def noNamespaceInSet (name : String) (names : List String) : String :=
  "no namespace " ++ quoted name ++ " in mapping set with namespaces " ++ quotedList names

/-- The complaint that an element has not as many name slots as its owner. -/
def wrongCount (count : Nat) (owner : NameRow) : String :=
  owner.outline ++ " has " ++ Nat.repr count ++ " names, expected one for each of the "
    ++ Nat.repr owner.size ++ " namespaces"

/-- The text of a refusal. -/
def message : MappingError → String
  | tooFewNamespaces names =>
    "a mapping set must contain at least 2 namespaces, got " ++ quotedList names
  | unnamedNamespace names =>
    "found empty namespace name in " ++ quotedList names
      ++ ", every namespace name must be non-empty"
  | repeatedNamespace name names =>
    "namespace " ++ quoted name ++ " is given more than once in " ++ quotedList names
  | unknownNamespace name names => noNamespaceInSet name names
  | foreignNamespace name names =>
    "namespace " ++ quoted name ++ " belongs to another mapping set: "
      ++ noNamespaceInSet name names
  | namespaceOutOfBounds ns names =>
    "namespace " ++ ns.outline ++ " is out of bounds for mapping set with namespaces "
      ++ quotedList names
  | slotOutOfBounds ns count =>
    "namespace index " ++ Nat.repr ns ++ " is out of bounds for " ++ Nat.repr count ++ " namespaces"
  | undeclaredNamespace name names =>
    "no namespace " ++ quoted name ++ " in " ++ quotedList names
  | classSlotOutOfBounds ns name names =>
    "namespace index " ++ Nat.repr ns ++ " of class ClassName(" ++ quoted name.text
      ++ ") is out of bounds for namespaces " ++ quotedList names
  | methodSlotOutOfBounds ns ref names =>
    "namespace index " ++ Nat.repr ns ++ " of method " ++ MethodRef.outline ref
      ++ " is out of bounds for namespaces " ++ quotedList names
  | nameCount count names =>
    "got " ++ Nat.repr count ++ " names, expected one for each namespace of " ++ quotedList names
  | vanishedPackage => "added package vanished"
  | foreignParent parent names =>
    "parent " ++ parent.outline ++ " of class " ++ names.outline
      ++ " is not part of this mapping set"
  | foreignClass id => "class " ++ id.outline ++ " is not part of this mapping set"
  | memberNameCount owner count => "member of class " ++ wrongCount count owner
  | childNameCount owner count => "child of method " ++ wrongCount count owner
  | unplacedLocal names =>
    "local variable " ++ names.outline
      ++ " needs a known local variable index or local variable table index"

end MappingError

end SymbolMap
