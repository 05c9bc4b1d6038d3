import SymbolMap.Draft.Heading
import SymbolMap.Draft.Pool
import SymbolMap.Element.Member

/-!
# Drafts of members

Fields and methods under construction, and the parameters and local variables of a method. Types and
descriptors are spelled in the first namespace.
-/

namespace SymbolMap

/-! ## Fields -/

structure FieldDraft extends Heading where
  type : Option FieldType
  flags : MemberFlags
  deriving DecidableEq, Repr

instance : Draft FieldDraft where
  heading := FieldDraft.toHeading
  withHeading d h := { d with toHeading := h }

def FieldDraft.blank (namespaces : List String) (coords : Coords) : FieldDraft :=
  ⟨.blank namespaces coords, none, .unknown⟩

/-! ## Parameters and local variables -/

structure ParamDraft extends Heading where
  index : Nat
  table : Option Nat
  type : Option FieldType
  deriving DecidableEq, Repr

instance : Draft ParamDraft where
  heading := ParamDraft.toHeading
  withHeading d h := { d with toHeading := h }

def ParamDraft.blank (namespaces : List String) (coords : Coords) (index : Nat) : ParamDraft :=
  ⟨.blank namespaces coords, index, none, none⟩

structure LocalDraft extends Heading where
  index : LocalIndex
  type : Option FieldType
  deriving DecidableEq, Repr

instance : Draft LocalDraft where
  heading := LocalDraft.toHeading
  withHeading d h := { d with toHeading := h }

def LocalDraft.blank (namespaces : List String) (coords : Coords) (index : LocalIndex) :
    LocalDraft :=
  ⟨.blank namespaces coords, index, none⟩

/-! ## Methods -/

structure MethodDraft extends Heading where
  descriptor : Option MethodDescriptor
  flags : MemberFlags
  params : List ParamDraft
  locals : List LocalDraft
  deriving DecidableEq, Repr

instance : Draft MethodDraft where
  heading := MethodDraft.toHeading
  withHeading d h := { d with toHeading := h }

namespace MethodDraft

variable {α : Type}

def blank (namespaces : List String) (coords : Coords) : MethodDraft :=
  ⟨.blank namespaces coords, none, .unknown, [], []⟩

/-- Whether a method has the name and the descriptor of a reference. The descriptors are compared as
they are, in whatever namespace the name is spelled. -/
def isNamedBy (m : MethodDraft) (ref : Spelled MethodRef) : Bool :=
  Draft.name? m ref.ns == some ref.value.name.text && m.descriptor == ref.value.signature

/-- Changes the parameter at an index. If there is none yet it is made, at the given position; the
position of one that is there stays. -/
def editParam (m : MethodDraft) (index : Nat) (line : Option Line) (column : Nat)
    (edit : ParamDraft → α × ParamDraft) : α × MethodDraft :=
  let new := ParamDraft.blank m.namespaces (.onLine line column) index
  let edited := editFirst (·.index == index) new edit m.params
  (edited.1, { m with params := edited.2 })

/-- Changes the local variable with exactly the given index. If there is none yet it is made, at the
given position; the position of one that is there stays. -/
def editLocal (m : MethodDraft) (index : LocalIndex) (line : Option Line) (column : Nat)
    (edit : LocalDraft → α × LocalDraft) : α × MethodDraft :=
  let new := LocalDraft.blank m.namespaces (.onLine line column) index
  let edited := editFirst (fun d => decide (d.index = index)) new edit m.locals
  (edited.1, { m with locals := edited.2 })

end MethodDraft

end SymbolMap
