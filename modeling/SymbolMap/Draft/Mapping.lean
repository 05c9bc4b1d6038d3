import SymbolMap.Draft.Container
import SymbolMap.Namespace

/-!
# Drafts of mapping sets

What a reader of a mapping file has declared so far, and the problems that it has noted. Classes may
be referred to by their name in some namespace; the first one that has the name is meant, and is
made if there is none.
-/

namespace SymbolMap

/-- A set under construction; `recent` is the last look-up of a class. -/
structure MappingDraft where
  namespaces : List String
  report : Report
  packages : List PackageDraft
  classes : List ClassDraft
  recent : Option (Recent (Spelled ClassName))

namespace MappingDraft

variable {α : Type}

/-- A draft without declarations. No names stand for the two default namespaces. -/
def create (names : List String) : Except MappingError MappingDraft := do
  let namespaces ← Namespace.validNames names
  return ⟨namespaces, .empty, [], [], none⟩

theorem create_eq_ok {names : List String} {d : MappingDraft} (h : create names = .ok d) :
    ∃ namespaces, Namespace.validNames names = .ok namespaces ∧
      d = ⟨namespaces, .empty, [], [], none⟩ := by
  unfold create at h
  cases hvalid : Namespace.validNames names with
  | error e =>
    rw [hvalid] at h
    cases h
  | ok namespaces =>
    rw [hvalid] at h
    cases h
    exact ⟨namespaces, rfl, rfl⟩

/-- The index of the namespace of a name. -/
def indexOf? (d : MappingDraft) (ns : String) : Option Nat := d.namespaces.findIdx? (· == ns)

/-- Notes an error. -/
def error (d : MappingDraft) (message : String) (coords : Option Coords) : MappingDraft :=
  { d with report := d.report.error message coords }

/-- Notes a warning. -/
def warn (d : MappingDraft) (message : String) (coords : Option Coords) : MappingDraft :=
  { d with report := d.report.warn message coords }

/-- Adds a package and changes it. -/
def editNewPackage (d : MappingDraft) (line : Option Line) (column : Nat)
    (edit : PackageDraft → α × PackageDraft) : α × MappingDraft :=
  let edited := editNew (.blank d.namespaces (.onLine line column)) edit d.packages
  (edited.1, { d with packages := edited.2 })

/-- Adds a class and changes it. -/
def editNewClass (d : MappingDraft) (line : Option Line) (column : Nat)
    (edit : ClassDraft → α × ClassDraft) : α × MappingDraft :=
  let edited := editNew (.blank d.namespaces (.onLine line column)) edit d.classes
  (edited.1, { d with classes := edited.2 })

/-- Changes the first class that a reference names. If there is none it is made, at the given
position and with the name of the reference. -/
def editClass (d : MappingDraft) (ref : Spelled ClassName) (line : Option Line) (column : Nat)
    (edit : ClassDraft → α × ClassDraft) : Except MappingError (α × MappingDraft) :=
  if ref.ns < d.namespaces.length then
    match Recent.find? d.recent ref (·.isNamedBy ref) d.classes with
    | some found =>
      let edited := edit found.item
      .ok (edited.1, { d with
        classes := d.classes.set found.position edited.2
        recent := some ⟨ref, found.position⟩ })
    | none => do
      let new := ClassDraft.blank d.namespaces (.onLine line column)
      let new ← Draft.assign new ref.ns ref.value.text true
      let edited := editNew new edit d.classes
      return (edited.1, { d with
        classes := edited.2
        recent := some ⟨ref, d.classes.length⟩ })
  else .error (.classSlotOutOfBounds ref.ns ref.value d.namespaces)

end MappingDraft

end SymbolMap
