import SymbolMap.Draft.Mapping
import SymbolMap.Proofs.Draft.Calls
import SymbolMap.Proofs.Draft.Heading
import SymbolMap.Proofs.Draft.Pool

/-!
# Looking up classes

`MappingDraft.editClass` starts from where the last look-up ended, while
`ScanDraft.editClass` remembers nothing and walks over the classes from the
first one on. No run of calls tells the two apart, whatever the callers do to
the packages and classes that they get (`classLookups_eq_scan`), and a look-up in
any state of such a run ends at the first class of the name
(`MappingDraft.ReachesFirst`).

The invariant is `MappingDraft.Recalls`: no class in front of the remembered
position has the remembered name. Callers cannot break it, for a class that
they get stands at the remembered position or behind it.
-/

namespace SymbolMap

variable {α β : Type}

/-! ## Calls -/

/-- A call on a draft, with the change that the caller makes to what it gets. -/
inductive DraftCall (α : Type) where
  | newPackage (line : Option Line) (column : Nat) (edit : PackageDraft → α × PackageDraft)
  | newClass (line : Option Line) (column : Nat) (edit : ClassDraft → α × ClassDraft)
  | classRef (ref : Spelled ClassName) (line : Option Line) (column : Nat)
      (edit : ClassDraft → α × ClassDraft)

/-- Makes a call. -/
def MappingDraft.serve (d : MappingDraft) :
    DraftCall α → Except MappingError α × MappingDraft
  | .newPackage line column edit => answered d (.ok (d.editNewPackage line column edit))
  | .newClass line column edit => answered d (.ok (d.editNewClass line column edit))
  | .classRef ref line column edit => answered d (d.editClass ref line column edit)

/-! ## Drafts without a memory -/

/-- The class that a look-up adds where none has the name: it has that name and
no other, and stands at the given position. -/
def ClassDraft.ofRef (namespaces : List String) (coords : Coords) (ref : Spelled ClassName) :
    ClassDraft :=
  Draft.put (ClassDraft.blank namespaces coords) ref.ns ref.value.text

theorem ClassDraft.assign_blank {namespaces : List String} {ref : Spelled ClassName}
    (h : ref.ns < namespaces.length) (coords : Coords) :
    Draft.assign (ClassDraft.blank namespaces coords) ref.ns ref.value.text true =
      .ok (ClassDraft.ofRef namespaces coords ref) := by
  apply Draft.assign_eq_put
  show ref.ns < (Heading.blank namespaces coords).names.size
  rw [(Heading.aligned_blank namespaces coords).size]
  exact h

/-- Whether a class has the name of a reference in the slot of the reference. -/
def ClassDraft.HasName (c : ClassDraft) (ref : Spelled ClassName) : Prop :=
  Draft.name? c ref.ns = some ref.value.text

instance (c : ClassDraft) (ref : Spelled ClassName) : Decidable (c.HasName ref) :=
  inferInstanceAs (Decidable (_ = _))

theorem ClassDraft.isNamedBy_iff {c : ClassDraft} {ref : Spelled ClassName} :
    c.isNamedBy ref = true ↔ c.HasName ref :=
  beq_iff_eq

theorem ClassDraft.isNamedBy_eq_false_iff {c : ClassDraft} {ref : Spelled ClassName} :
    c.isNamedBy ref = false ↔ ¬ c.HasName ref :=
  beq_eq_false_iff_ne

/-- A set under construction that remembers no look-up. -/
structure ScanDraft where
  namespaces : List String
  report : Report
  packages : List PackageDraft
  classes : List ClassDraft

namespace ScanDraft

/-- Adds a package and changes it. -/
def editNewPackage (d : ScanDraft) (line : Option Line) (column : Nat)
    (edit : PackageDraft → α × PackageDraft) : α × ScanDraft :=
  let edited := editNew (.blank d.namespaces (.onLine line column)) edit d.packages
  (edited.1, { d with packages := edited.2 })

/-- Adds a class and changes it. -/
def editNewClass (d : ScanDraft) (line : Option Line) (column : Nat)
    (edit : ClassDraft → α × ClassDraft) : α × ScanDraft :=
  let edited := editNew (.blank d.namespaces (.onLine line column)) edit d.classes
  (edited.1, { d with classes := edited.2 })

/-- Walks over the classes and changes the first one that a reference names. If
there is none, a class of that name is added and changed. -/
def editClass (d : ScanDraft) (ref : Spelled ClassName) (line : Option Line) (column : Nat)
    (edit : ClassDraft → α × ClassDraft) : Except MappingError (α × ScanDraft) :=
  if ref.ns < d.namespaces.length then
    let new := ClassDraft.ofRef d.namespaces (.onLine line column) ref
    let edited := editFirst (·.isNamedBy ref) new edit d.classes
    .ok (edited.1, { d with classes := edited.2 })
  else .error (.classSlotOutOfBounds ref.ns ref.value d.namespaces)

/-- Makes a call. -/
def serve (d : ScanDraft) : DraftCall α → Except MappingError α × ScanDraft
  | .newPackage line column edit => answered d (.ok (d.editNewPackage line column edit))
  | .newClass line column edit => answered d (.ok (d.editNewClass line column edit))
  | .classRef ref line column edit => answered d (d.editClass ref line column edit)

end ScanDraft

/-! ## The invariant of the memory -/

namespace MappingDraft

/-- All that a draft has apart from its memory. -/
def forget (d : MappingDraft) : ScanDraft :=
  ⟨d.namespaces, d.report, d.packages, d.classes⟩

theorem forget_editClass_of_lt {d : MappingDraft} {ref : Spelled ClassName} {line : Option Line}
    {column : Nat} {edit : ClassDraft → α × ClassDraft} (h : ref.ns < d.namespaces.length) :
    d.forget.editClass ref line column edit =
      let new := ClassDraft.ofRef d.namespaces (.onLine line column) ref
      let edited := editFirst (·.isNamedBy ref) new edit d.classes
      .ok (edited.1, { d.forget with classes := edited.2 }) :=
  if_pos h

/-- No class in front of the remembered position has the remembered name. -/
def Recalls (d : MappingDraft) : Prop :=
  ∀ r ∈ d.recent, r.Trusted ClassDraft.isNamedBy d.classes

theorem recalls_of_create {names : List String} {d : MappingDraft}
    (h : create names = .ok d) : d.Recalls := by
  obtain ⟨_, _, rfl⟩ := create_eq_ok h
  intro r hr
  cases hr

section EditClass

variable {d : MappingDraft} {ref : Spelled ClassName} {line : Option Line} {column : Nat}
  {edit : ClassDraft → α × ClassDraft}

/-- What is changed and remembered when a class has the name. -/
theorem editClass_of_some {found : Entry ClassDraft} (hd : d.Recalls)
    (hns : ref.ns < d.namespaces.length)
    (h : firstFit (·.isNamedBy ref) d.classes = some found) :
    d.editClass ref line column edit = .ok ((edit found.item).1,
      { d with
        classes := d.classes.set found.position (edit found.item).2
        recent := some ⟨ref, found.position⟩ }) := by
  unfold editClass
  rw [if_pos hns, Recent.find?_eq_firstFit hd, h]

/-- What is added and remembered when no class has the name. -/
theorem editClass_of_none (hd : d.Recalls) (hns : ref.ns < d.namespaces.length)
    (h : firstFit (·.isNamedBy ref) d.classes = none) :
    d.editClass ref line column edit =
      .ok ((edit (ClassDraft.ofRef d.namespaces (.onLine line column) ref)).1,
        { d with
          classes := d.classes ++
            [(edit (ClassDraft.ofRef d.namespaces (.onLine line column) ref)).2]
          recent := some ⟨ref, d.classes.length⟩ }) := by
  unfold editClass
  rw [if_pos hns, Recent.find?_eq_firstFit hd, h]
  show (Draft.assign (ClassDraft.blank d.namespaces (.onLine line column)) ref.ns
    ref.value.text true >>= _) = _
  rw [ClassDraft.assign_blank hns]
  rfl

theorem editClass_of_out (h : ¬ ref.ns < d.namespaces.length) :
    d.editClass ref line column edit =
      .error (.classSlotOutOfBounds ref.ns ref.value d.namespaces) := by
  unfold editClass
  rw [if_neg h]

/-- A look-up with the memory is a look-up without it. -/
theorem forget_editClass (hd : d.Recalls) :
    d.forget.editClass ref line column edit =
      (d.editClass ref line column edit).map fun (a, after) => (a, after.forget) := by
  by_cases hns : ref.ns < d.namespaces.length
  · simp only [forget_editClass_of_lt hns]
    cases hfit : firstFit (·.isNamedBy ref) d.classes with
    | some found =>
      rw [editClass_of_some hd hns hfit, editFirst_of_some hfit]
      rfl
    | none =>
      rw [editClass_of_none hd hns hfit, editFirst_of_none hfit]
      rfl
  · rw [editClass_of_out hns]
    exact if_neg hns

/-- A look-up keeps what is remembered true, whatever the caller does to the
class that it gets. -/
theorem recalls_editClass (hd : d.Recalls) {a : α} {after : MappingDraft}
    (h : d.editClass ref line column edit = .ok (a, after)) : after.Recalls := by
  by_cases hns : ref.ns < d.namespaces.length
  · cases hfit : firstFit (·.isNamedBy ref) d.classes with
    | some found =>
      rw [editClass_of_some hd hns hfit] at h
      cases h
      intro r hr
      cases hr
      exact Recent.Trusted.found hfit _
    | none =>
      rw [editClass_of_none hd hns hfit] at h
      cases h
      intro r hr
      cases hr
      exact Recent.Trusted.added hfit _
  · rw [editClass_of_out hns] at h
    cases h

theorem namespaces_editClass {a : α} {after : MappingDraft}
    (h : d.editClass ref line column edit = .ok (a, after)) :
    after.namespaces = d.namespaces := by
  unfold editClass at h
  split at h
  · rename_i hns
    split at h
    · cases h
      rfl
    · simp only [ClassDraft.assign_blank hns] at h
      cases h
      rfl
  · cases h

end EditClass

/-! ## Runs -/

theorem recalls_serve {d : MappingDraft} (hd : d.Recalls) (call : DraftCall α) :
    (d.serve call).2.Recalls := by
  cases call with
  | newPackage line column edit => exact hd
  | newClass line column edit =>
    -- the new class stands behind the remembered one, whatever its names are
    exact fun r hr => (hd r hr).append _
  | classRef ref line column edit =>
    exact keeps_answered hd fun a after => recalls_editClass hd

theorem namespaces_serve (d : MappingDraft) (call : DraftCall α) :
    (d.serve call).2.namespaces = d.namespaces := by
  cases call with
  | newPackage line column edit => rfl
  | newClass line column edit => rfl
  | classRef ref line column edit =>
    exact keeps_answered (P := fun after : MappingDraft => after.namespaces = d.namespaces) rfl
      fun a after => namespaces_editClass

/-- A call answers and changes the same with and without the memory. -/
theorem forget_serve {d : MappingDraft} (hd : d.Recalls) (call : DraftCall α) :
    d.forget.serve call = ((d.serve call).1, (d.serve call).2.forget) := by
  cases call with
  | newPackage line column edit => rfl
  | newClass line column edit => rfl
  | classRef ref line column edit =>
    show answered d.forget (d.forget.editClass ref line column edit) = _
    rw [forget_editClass hd]
    exact answered_view

theorem recalls_serveAll {d : MappingDraft} (hd : d.Recalls) (calls : List (DraftCall α)) :
    (serveAll serve d calls).2.Recalls :=
  keeps_serveAll (P := Recalls) (fun _ call hd => recalls_serve hd call) hd calls

theorem namespaces_serveAll (d : MappingDraft) (calls : List (DraftCall α)) :
    (serveAll serve d calls).2.namespaces = d.namespaces :=
  keeps_serveAll (P := fun after : MappingDraft => after.namespaces = d.namespaces)
    (fun after call h => (namespaces_serve after call).trans h) rfl calls

theorem forget_serveAll {d : MappingDraft} (hd : d.Recalls) (calls : List (DraftCall α)) :
    serveAll ScanDraft.serve d.forget calls =
      ((serveAll serve d calls).1, (serveAll serve d calls).2.forget) :=
  serveAll_view (P := Recalls) (fun _ call hd => recalls_serve hd call)
    (fun _ call hd => forget_serve hd call) hd calls

/-! ## What a look-up means -/

/-- What a look-up of a class has to do. If some class has the name, the first
one is given to the caller and changed in its place. If none has it, one class
is added, which has that name in that slot and the given position. Nothing else
of the draft changes. -/
structure ReachesFirst (d : MappingDraft) (ref : Spelled ClassName) (line : Option Line)
    (column : Nat) (edit : ClassDraft → α × ClassDraft) : Prop where
  existing : ∀ i c, d.classes[i]? = some c → c.HasName ref →
    (∀ j < i, ∀ other, d.classes[j]? = some other → ¬ other.HasName ref) →
    ∃ after, d.editClass ref line column edit = .ok ((edit c).1, after) ∧
      after.forget = { d.forget with classes := d.classes.set i (edit c).2 }
  missing : (∀ c ∈ d.classes, ¬ c.HasName ref) →
    ∃ after, d.editClass ref line column edit =
        .ok ((edit (ClassDraft.ofRef d.namespaces (.onLine line column) ref)).1, after) ∧
      after.forget = { d.forget with classes := d.classes ++
        [(edit (ClassDraft.ofRef d.namespaces (.onLine line column) ref)).2] }

theorem reachesFirst_of_recalls {d : MappingDraft} (hd : d.Recalls) {ref : Spelled ClassName}
    (hns : ref.ns < d.namespaces.length) (line : Option Line) (column : Nat)
    (edit : ClassDraft → α × ClassDraft) : d.ReachesFirst ref line column edit := by
  constructor
  · intro i c hat hname hbefore
    have hfit : firstFit (·.isNamedBy ref) d.classes = some ⟨i, c⟩ := by
      refine firstFit_eq_some_iff.2 ⟨hat, ClassDraft.isNamedBy_iff.2 hname, ?_⟩
      intro j hj other hother
      exact ClassDraft.isNamedBy_eq_false_iff.2 (hbefore j hj other hother)
    exact ⟨_, editClass_of_some hd hns hfit, rfl⟩
  · intro hnone
    have hfit : firstFit (·.isNamedBy ref) d.classes = none :=
      firstFit_eq_none_iff.2 fun c hc => ClassDraft.isNamedBy_eq_false_iff.2 (hnone c hc)
    exact ⟨_, editClass_of_none hd hns hfit, rfl⟩

end MappingDraft

/-- **Look-ups do not depend on the memory.** A run of calls on a new draft gives
the same answers and leaves the same packages and classes as the same run on a
draft without a memory. After it, a look-up in a namespace of the draft ends at
the first class of the name, or adds one where there is none. A state inside of
a run is the last state of a shorter run. -/
theorem classLookups_eq_scan {names : List String} {start : MappingDraft}
    (h : MappingDraft.create names = .ok start) (calls : List (DraftCall α)) :
    let run := serveAll MappingDraft.serve start calls
    let scan := serveAll ScanDraft.serve start.forget calls
    run.1 = scan.1 ∧ run.2.forget = scan.2 ∧
      ∀ (ref : Spelled ClassName) (line : Option Line) (column : Nat)
        (edit : ClassDraft → β × ClassDraft), ref.ns < start.namespaces.length →
        run.2.ReachesFirst ref line column edit := by
  have hstart := MappingDraft.recalls_of_create h
  have hscan := MappingDraft.forget_serveAll hstart calls
  refine ⟨(congrArg Prod.fst hscan).symm, (congrArg Prod.snd hscan).symm, ?_⟩
  intro ref line column edit hns
  apply MappingDraft.reachesFirst_of_recalls (MappingDraft.recalls_serveAll hstart calls)
  rw [MappingDraft.namespaces_serveAll]
  exact hns

/-- A class that is renamed right after it was looked up is not found by its old
name again, and a namespace that does not exist is refused. -/
theorem classLookups_eq_scan_renamed :
    let rename : ClassDraft → Except MappingError Unit × ClassDraft :=
      Draft.attempt (Draft.assign · 0 "b" true)
    let calls := [.classRef ⟨⟨"a"⟩, 0⟩ none 1 rename, .classRef ⟨⟨"a"⟩, 0⟩ none 2 rename,
      .classRef ⟨⟨"a"⟩, 7⟩ none 3 rename]
    let start : MappingDraft := ⟨["official", "named"], .empty, [], [], none⟩
    let run := serveAll MappingDraft.serve start calls
    MappingDraft.create ["official", "named"] = .ok start ∧
      run.1 = (serveAll ScanDraft.serve start.forget calls).1 ∧
      run.2.forget = (serveAll ScanDraft.serve start.forget calls).2 ∧
      run.2.classes.map (fun c => (c.names.slots, c.coords.column)) =
        [([some "b", none], 1), ([some "b", none], 2)] ∧
      run.2.ReachesFirst ⟨⟨"b"⟩, 0⟩ none 4 rename := by
  intro rename calls start run
  have hstart : MappingDraft.create ["official", "named"] = .ok start := rfl
  obtain ⟨hanswers, hstates, hfirst⟩ := classLookups_eq_scan hstart calls
  exact ⟨hstart, hanswers, hstates, rfl, hfirst ⟨⟨"b"⟩, 0⟩ none 4 rename (by decide)⟩

end SymbolMap
