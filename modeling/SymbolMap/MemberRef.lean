import SymbolMap.Descriptor.Printer

/-!
# References to members

A member is referred to by its name and, where that is known, by what else tells members of one name
apart: the type of a field, the descriptor of a method. A reference is spelled in some namespace,
both parts of it in the same one.
-/

namespace SymbolMap

/-- A reference to a member inside of some class; `signature` is `none` when it is not known. -/
structure MemberRef (kind : SymbolKind) (σ : Type) where
  name : Symbol kind
  signature : Option σ
  deriving DecidableEq, Repr

abbrev FieldRef := MemberRef .fields FieldType
abbrev MethodRef := MemberRef .methods MethodDescriptor

/-- A reference to a member together with the class that holds it. -/
structure QualifiedRef (kind : SymbolKind) (σ : Type) where
  owner : ClassName
  member : MemberRef kind σ
  deriving DecidableEq, Repr

namespace MemberRef

variable {kind : SymbolKind} {σ : Type}

/-- The same name with another signature. -/
def withSignature (r : MemberRef kind σ) (signature : Option σ) : MemberRef kind σ :=
  { r with signature }

/-- The same name in whatever signature. -/
def bare (r : MemberRef kind σ) : MemberRef kind σ := r.withSignature none

/-- The member of that name in the given class. -/
def inside (r : MemberRef kind σ) (owner : ClassName) : QualifiedRef kind σ := ⟨owner, r⟩

end MemberRef

/-- A method reference by its parts. -/
def MethodRef.outline (r : MethodRef) : String :=
  "LocalMethodRef \x7b name: MethodName(" ++ Text.quoted r.name.text ++ "), desc: "
    ++ Text.optional (r.signature.map MethodDescriptor.outline) ++ " \x7d"

/-- A value spelled in the namespace at an index. -/
structure Spelled (α : Type) where
  value : α
  ns : Nat
  deriving DecidableEq, Repr

end SymbolMap
