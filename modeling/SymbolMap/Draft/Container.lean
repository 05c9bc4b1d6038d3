import SymbolMap.Draft.Member

/-!
# Drafts of packages and classes

A class under construction holds its fields and methods and the classes nested in it. Methods may be
referred to, by their name in some namespace and their descriptor; the first one that fits is meant,
and is made if there is none.
-/

namespace SymbolMap

/-! ## Packages -/

structure PackageDraft extends Heading
  deriving DecidableEq, Repr

instance : Draft PackageDraft where
  heading := PackageDraft.toHeading
  withHeading d h := { d with toHeading := h }

def PackageDraft.blank (namespaces : List String) (coords : Coords) : PackageDraft :=
  ⟨.blank namespaces coords⟩

/-! ## Classes -/

/-- A class under construction; `recent` is the last look-up of a method. -/
structure ClassDraft extends Heading where
  fields : List FieldDraft
  methods : List MethodDraft
  inner : List ClassDraft
  recent : Option (Recent (Spelled MethodRef))

instance : Draft ClassDraft where
  heading := ClassDraft.toHeading
  withHeading d h := { d with toHeading := h }

namespace ClassDraft

variable {α : Type}

def blank (namespaces : List String) (coords : Coords) : ClassDraft :=
  ⟨.blank namespaces coords, [], [], [], none⟩

/-- Whether a class has the name of a reference. -/
def isNamedBy (c : ClassDraft) (ref : Spelled ClassName) : Bool :=
  Draft.name? c ref.ns == some ref.value.text

/-- Adds a field and changes it. -/
def editNewField (c : ClassDraft) (line : Option Line) (column : Nat)
    (edit : FieldDraft → α × FieldDraft) : α × ClassDraft :=
  let edited := editNew (.blank c.namespaces (.onLine line column)) edit c.fields
  (edited.1, { c with fields := edited.2 })

/-- Adds a method and changes it. -/
def editNewMethod (c : ClassDraft) (line : Option Line) (column : Nat)
    (edit : MethodDraft → α × MethodDraft) : α × ClassDraft :=
  let edited := editNew (.blank c.namespaces (.onLine line column)) edit c.methods
  (edited.1, { c with methods := edited.2 })

/-- Adds an inner class and changes it. -/
def editNewInner (c : ClassDraft) (line : Option Line) (column : Nat)
    (edit : ClassDraft → α × ClassDraft) : α × ClassDraft :=
  let edited := editNew (blank c.namespaces (.onLine line column)) edit c.inner
  (edited.1, { c with inner := edited.2 })

/-- Changes the first method that a reference names. If there is none it is made, at the given
position and with the name and the descriptor of the reference. -/
def editMethod (c : ClassDraft) (ref : Spelled MethodRef) (line : Option Line) (column : Nat)
    (edit : MethodDraft → α × MethodDraft) : Except MappingError (α × ClassDraft) :=
  if ref.ns < c.namespaces.length then
    match Recent.find? c.recent ref (·.isNamedBy ref) c.methods with
    | some found =>
      let edited := edit found.item
      .ok (edited.1, { c with
        methods := c.methods.set found.position edited.2
        recent := some ⟨ref, found.position⟩ })
    | none => do
      let new := MethodDraft.blank c.namespaces (.onLine line column)
      let new ← Draft.assign new ref.ns ref.value.name.text true
      let edited := editNew { new with descriptor := ref.value.signature } edit c.methods
      return (edited.1, { c with
        methods := edited.2
        recent := some ⟨ref, c.methods.length⟩ })
  else .error (.methodSlotOutOfBounds ref.ns ref.value c.namespaces)

end ClassDraft

end SymbolMap
