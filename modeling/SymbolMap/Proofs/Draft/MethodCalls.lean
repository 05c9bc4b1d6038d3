import SymbolMap.Proofs.Draft.Calls
import SymbolMap.Proofs.Draft.MethodLookup

/-!
# Runs of look-ups of methods

A class under construction can be told apart from one that walks over its methods
from the first one on for each look-up (`ScanClass`) by no run of calls, whatever the
callers do to the fields, methods and inner classes that they get
(`methodLookups_eq_scan`). A look-up in any state of such a run ends at the first
method that has the name and the descriptor at that moment
(`ClassDraft.ReachesFirst`).

That the memory of a class can be trusted is kept by each call
(`ClassDraft.recalls_serve`): a new method stands behind the remembered position, and
a method that a caller gets stands at it.
-/

namespace SymbolMap

variable {α β : Type}

/-! ## Calls -/

/-- A call on a class, with the change that the caller makes to what it gets. -/
inductive ClassCall (α : Type) where
  | newField (line : Option Line) (column : Nat) (edit : FieldDraft → α × FieldDraft)
  | newMethod (line : Option Line) (column : Nat) (edit : MethodDraft → α × MethodDraft)
  | newInner (line : Option Line) (column : Nat) (edit : ClassDraft → α × ClassDraft)
  | methodRef (ref : Spelled MethodRef) (line : Option Line) (column : Nat)
      (edit : MethodDraft → α × MethodDraft)

/-- Makes a call. -/
def ClassDraft.serve (c : ClassDraft) : ClassCall α → Except MappingError α × ClassDraft
  | .newField line column edit => answered c (.ok (c.editNewField line column edit))
  | .newMethod line column edit => answered c (.ok (c.editNewMethod line column edit))
  | .newInner line column edit => answered c (.ok (c.editNewInner line column edit))
  | .methodRef ref line column edit => answered c (c.editMethod ref line column edit)

/-! ## Classes without a memory -/

/-- Whether a method has the name of a reference in the slot of the reference, and its
descriptor or, like the reference, none. -/
def MethodDraft.Fits (m : MethodDraft) (ref : Spelled MethodRef) : Prop :=
  Draft.name? m ref.ns = some ref.value.name.text ∧ m.descriptor = ref.value.signature

theorem MethodDraft.isNamedBy_eq_false_iff {m : MethodDraft} {ref : Spelled MethodRef} :
    m.isNamedBy ref = false ↔ ¬ m.Fits ref := by
  unfold Fits
  rw [← isNamedBy_iff, Bool.not_eq_true]

/-- A class under construction that remembers no look-up. -/
structure ScanClass extends Heading where
  fields : List FieldDraft
  methods : List MethodDraft
  inner : List ClassDraft

namespace ScanClass

/-- Adds a field and changes it. -/
def editNewField (c : ScanClass) (line : Option Line) (column : Nat)
    (edit : FieldDraft → α × FieldDraft) : α × ScanClass :=
  let edited := editNew (.blank c.namespaces (.onLine line column)) edit c.fields
  (edited.1, { c with fields := edited.2 })

/-- Adds a method and changes it. -/
def editNewMethod (c : ScanClass) (line : Option Line) (column : Nat)
    (edit : MethodDraft → α × MethodDraft) : α × ScanClass :=
  let edited := editNew (.blank c.namespaces (.onLine line column)) edit c.methods
  (edited.1, { c with methods := edited.2 })

/-- Adds an inner class and changes it. -/
def editNewInner (c : ScanClass) (line : Option Line) (column : Nat)
    (edit : ClassDraft → α × ClassDraft) : α × ScanClass :=
  let edited := editNew (.blank c.namespaces (.onLine line column)) edit c.inner
  (edited.1, { c with inner := edited.2 })

/-- Walks over the methods and changes the first one that a reference names. If there
is none, a method of that name and descriptor is added and changed. -/
def editMethod (c : ScanClass) (ref : Spelled MethodRef) (line : Option Line) (column : Nat)
    (edit : MethodDraft → α × MethodDraft) : Except MappingError (α × ScanClass) :=
  if ref.ns < c.namespaces.length then
    let new := MethodDraft.ofRef c.namespaces (.onLine line column) ref
    let edited := editFirst (·.isNamedBy ref) new edit c.methods
    .ok (edited.1, { c with methods := edited.2 })
  else .error (.methodSlotOutOfBounds ref.ns ref.value c.namespaces)

/-- Makes a call. -/
def serve (c : ScanClass) : ClassCall α → Except MappingError α × ScanClass
  | .newField line column edit => answered c (.ok (c.editNewField line column edit))
  | .newMethod line column edit => answered c (.ok (c.editNewMethod line column edit))
  | .newInner line column edit => answered c (.ok (c.editNewInner line column edit))
  | .methodRef ref line column edit => answered c (c.editMethod ref line column edit)

end ScanClass

/-! ## One call -/

namespace ClassDraft

/-- All that a class has apart from its memory. -/
def forget (c : ClassDraft) : ScanClass :=
  { toHeading := c.toHeading, fields := c.fields, methods := c.methods, inner := c.inner }

section EditMethod

variable {c : ClassDraft} {ref : Spelled MethodRef} {line : Option Line} {column : Nat}
  {edit : MethodDraft → α × MethodDraft}

/-- A look-up with the memory is a look-up without it. -/
theorem forget_editMethod (hc : c.Recalls) :
    c.forget.editMethod ref line column edit =
      (c.editMethod ref line column edit).map fun (a, after) => (a, after.forget) := by
  by_cases hns : ref.ns < c.namespaces.length
  · have hscan : c.forget.editMethod ref line column edit =
        let edited := editFirst (·.isNamedBy ref)
          (MethodDraft.ofRef c.namespaces (.onLine line column) ref) edit c.methods
        .ok (edited.1, { c.forget with methods := edited.2 }) := if_pos hns
    rw [hscan]
    cases hfit : firstFit (·.isNamedBy ref) c.methods with
    | some found =>
      rw [editMethod_of_some hc hns hfit, editFirst_of_some hfit]
      rfl
    | none =>
      rw [editMethod_of_none hc hns hfit, editFirst_of_none hfit]
      rfl
  · rw [editMethod_of_out hns]
    exact if_neg hns

/-- A look-up changes nothing of a class but its methods and what it remembers. -/
theorem editMethod_eq_with (hc : c.Recalls) {a : α} {after : ClassDraft}
    (h : c.editMethod ref line column edit = .ok (a, after)) :
    after = { c with methods := after.methods, recent := after.recent } := by
  by_cases hns : ref.ns < c.namespaces.length
  · cases hfit : firstFit (·.isNamedBy ref) c.methods with
    | some found =>
      rw [editMethod_of_some hc hns hfit] at h
      cases h
      rfl
    | none =>
      rw [editMethod_of_none hc hns hfit] at h
      cases h
      rfl
  · rw [editMethod_of_out hns] at h
    cases h

end EditMethod

theorem recalls_serve {c : ClassDraft} (hc : c.Recalls) (call : ClassCall α) :
    (c.serve call).2.Recalls := by
  cases call with
  | newField line column edit => exact hc
  | newMethod line column edit =>
    -- the new method stands behind the remembered one, whatever its name is
    exact fun r hr => (hc r hr).append _
  | newInner line column edit => exact hc
  | methodRef ref line column edit =>
    exact keeps_answered hc fun a after h => (recalls_editMethod hc h).1

theorem namespaces_serve {c : ClassDraft} (hc : c.Recalls) (call : ClassCall α) :
    (c.serve call).2.namespaces = c.namespaces := by
  cases call with
  | newField line column edit => rfl
  | newMethod line column edit => rfl
  | newInner line column edit => rfl
  | methodRef ref line column edit =>
    refine keeps_answered (P := fun after : ClassDraft => after.namespaces = c.namespaces) rfl ?_
    intro a after h
    rw [editMethod_eq_with hc h]

/-- A call answers and changes the same with and without the memory. -/
theorem forget_serve {c : ClassDraft} (hc : c.Recalls) (call : ClassCall α) :
    c.forget.serve call = ((c.serve call).1, (c.serve call).2.forget) := by
  cases call with
  | newField line column edit => rfl
  | newMethod line column edit => rfl
  | newInner line column edit => rfl
  | methodRef ref line column edit =>
    show answered c.forget (c.forget.editMethod ref line column edit) = _
    rw [forget_editMethod hc]
    exact answered_view

/-! ## Runs -/

/-- A run keeps what is remembered true, and the namespaces as they are. -/
theorem recalls_serveAll {c : ClassDraft} (hc : c.Recalls) (calls : List (ClassCall α)) :
    (serveAll serve c calls).2.Recalls ∧ (serveAll serve c calls).2.namespaces = c.namespaces := by
  refine keeps_serveAll
    (P := fun after : ClassDraft => after.Recalls ∧ after.namespaces = c.namespaces) ?_ ⟨hc, rfl⟩
    calls
  rintro after call ⟨hafter, hnamespaces⟩
  exact ⟨recalls_serve hafter call, (namespaces_serve hafter call).trans hnamespaces⟩

theorem forget_serveAll {c : ClassDraft} (hc : c.Recalls) (calls : List (ClassCall α)) :
    serveAll ScanClass.serve c.forget calls =
      ((serveAll serve c calls).1, (serveAll serve c calls).2.forget) :=
  serveAll_view (P := Recalls) (fun _ call hc => recalls_serve hc call)
    (fun _ call hc => forget_serve hc call) hc calls

/-! ## What a look-up means -/

/-- What a look-up of a method has to do. If some method fits, the first one is given
to the caller and changed in its place. If none fits, one method is added, which has
the name in the slot and the descriptor of the reference, and the given position.
Nothing else of the class changes. -/
structure ReachesFirst (c : ClassDraft) (ref : Spelled MethodRef) (line : Option Line)
    (column : Nat) (edit : MethodDraft → α × MethodDraft) : Prop where
  existing : ∀ i m, c.methods[i]? = some m → m.Fits ref →
    (∀ j < i, ∀ other, c.methods[j]? = some other → ¬ other.Fits ref) →
    ∃ after, c.editMethod ref line column edit = .ok ((edit m).1, after) ∧
      after.forget = { c.forget with methods := c.methods.set i (edit m).2 }
  missing : (∀ m ∈ c.methods, ¬ m.Fits ref) →
    ∃ after, c.editMethod ref line column edit =
        .ok ((edit (MethodDraft.ofRef c.namespaces (.onLine line column) ref)).1, after) ∧
      after.forget = { c.forget with methods := c.methods ++
        [(edit (MethodDraft.ofRef c.namespaces (.onLine line column) ref)).2] }

theorem reachesFirst_of_recalls {c : ClassDraft} (hc : c.Recalls) {ref : Spelled MethodRef}
    (hns : ref.ns < c.namespaces.length) (line : Option Line) (column : Nat)
    (edit : MethodDraft → α × MethodDraft) : c.ReachesFirst ref line column edit := by
  constructor
  · intro i m hat hfits hbefore
    have hfit : firstFit (·.isNamedBy ref) c.methods = some ⟨i, m⟩ := by
      refine firstFit_eq_some_iff.2 ⟨hat, MethodDraft.isNamedBy_iff.2 hfits, ?_⟩
      intro j hj other hother
      exact MethodDraft.isNamedBy_eq_false_iff.2 (hbefore j hj other hother)
    exact ⟨_, editMethod_of_some hc hns hfit, rfl⟩
  · intro hnone
    have hfit : firstFit (·.isNamedBy ref) c.methods = none :=
      firstFit_eq_none_iff.2 fun m hm => MethodDraft.isNamedBy_eq_false_iff.2 (hnone m hm)
    exact ⟨_, editMethod_of_none hc hns hfit, rfl⟩

end ClassDraft

/-- **Look-ups of methods do not depend on the memory.** A run of calls on a class, in
whatever way the class came about, gives the same answers and leaves the same
members and inner classes as the same run on a class without a memory. After it, a
look-up in a namespace of the class ends at the first method that fits, or adds one
where there is none. A state inside of a run is the last state of a shorter run. -/
theorem methodLookups_eq_scan {namespaces : List String} {coords : Coords} {start : ClassDraft}
    (h : (ClassDraft.blank namespaces coords).Evolves start) (calls : List (ClassCall α)) :
    let run := serveAll ClassDraft.serve start calls
    let scan := serveAll ScanClass.serve start.forget calls
    run.1 = scan.1 ∧ run.2.forget = scan.2 ∧
      ∀ (ref : Spelled MethodRef) (line : Option Line) (column : Nat)
        (edit : MethodDraft → β × MethodDraft), ref.ns < start.namespaces.length →
        run.2.ReachesFirst ref line column edit := by
  intro run scan
  have hstart : start.Recalls :=
    (h.recallsWithin (ClassDraft.recallsWithin_blank namespaces coords)).own
  have hscan := ClassDraft.forget_serveAll hstart calls
  obtain ⟨hrun, hnamespaces⟩ := ClassDraft.recalls_serveAll hstart calls
  refine ⟨(congrArg Prod.fst hscan).symm, (congrArg Prod.snd hscan).symm, ?_⟩
  intro ref line column edit hns
  exact ClassDraft.reachesFirst_of_recalls hrun (hnamespaces ▸ hns) line column edit

/-- A method that loses its descriptor right after it was looked up is not found again
by the same reference, the one that is added for it is, and a namespace that does not
exist is refused. -/
theorem methodLookups_eq_scan_undescribed :
    let ref : Spelled MethodRef := ⟨⟨⟨"x"⟩, some ⟨[], .void⟩⟩, 0⟩
    let describe (d : Option MethodDescriptor) (m : MethodDraft) : Unit × MethodDraft :=
      ((), { Draft.put m 0 "x" with descriptor := d })
    let calls := [.newMethod none 1 (describe ref.value.signature),
      .methodRef ref none 2 (describe none), .methodRef ref none 3 (describe ref.value.signature),
      .methodRef ref none 4 (describe ref.value.signature),
      .methodRef ⟨ref.value, 7⟩ none 5 (describe none)]
    let start := ClassDraft.blank ["official", "named"] (.onLine none 1)
    let run := serveAll ClassDraft.serve start calls
    start.Evolves start ∧ run.1 = (serveAll ScanClass.serve start.forget calls).1 ∧
      run.2.forget = (serveAll ScanClass.serve start.forget calls).2 ∧
      run.2.methods.map (fun m => (m.descriptor, m.coords.column)) =
        [(none, 1), (some ⟨[], .void⟩, 3)] ∧
      run.2.ReachesFirst ref none 6 (describe none) := by
  intro ref describe calls start run
  have hstart : start.Evolves start := .refl start
  obtain ⟨hanswers, hstates, hfirst⟩ := methodLookups_eq_scan hstart calls
  exact ⟨hstart, hanswers, hstates, by decide +kernel,
    hfirst ref none 6 (describe none) (by decide)⟩

end SymbolMap
