import SymbolMap.Proofs.Draft.Forest
import SymbolMap.Proofs.Draft.Reachable

/-!
# Looking up methods

`ClassDraft.editMethod` starts from where the last look-up in the class ended. In
any class of a reachable draft that memory can be trusted (`ClassDraft.Recalls`),
so a look-up ends at the first method that the reference names, or adds one that
it names (`ClassDraft.firstFit_editMethod`).
-/

namespace SymbolMap

variable {α : Type} {namespaces : List String} {ref : Spelled MethodRef}

/-! ## References -/

namespace MethodDraft

theorem isNamedBy_iff {m : MethodDraft} :
    m.isNamedBy ref = true ↔
      Draft.name? m ref.ns = some ref.value.name.text ∧ m.descriptor = ref.value.signature := by
  simp [isNamedBy]

/-- The method that a look-up adds where the reference names none: it has the name
and the descriptor of the reference, and stands at the given position. -/
def ofRef (namespaces : List String) (coords : Coords) (ref : Spelled MethodRef) : MethodDraft :=
  { Draft.put (blank namespaces coords) ref.ns ref.value.name.text with
    descriptor := ref.value.signature }

theorem slot_lt_blank (h : ref.ns < namespaces.length) (coords : Coords) :
    ref.ns < (Draft.heading (blank namespaces coords)).names.size := by
  show ref.ns < (Heading.blank namespaces coords).names.size
  rw [(Heading.aligned_blank namespaces coords).size]
  exact h

theorem assign_blank (h : ref.ns < namespaces.length) (coords : Coords) :
    Draft.assign (blank namespaces coords) ref.ns ref.value.name.text true =
      .ok (Draft.put (blank namespaces coords) ref.ns ref.value.name.text) :=
  Draft.assign_eq_put (slot_lt_blank h coords)

theorem isNamedBy_ofRef (h : ref.ns < namespaces.length) (coords : Coords) :
    (ofRef namespaces coords ref).isNamedBy ref = true := by
  rw [isNamedBy_iff]
  exact ⟨Draft.name?_put_self (slot_lt_blank h coords) _, rfl⟩

end MethodDraft

/-! ## The memory of a class -/

namespace ClassDraft

/-- No method in front of the remembered position is named by the remembered
reference. -/
def Recalls (c : ClassDraft) : Prop :=
  ∀ r ∈ c.recent, r.Trusted MethodDraft.isNamedBy c.methods

theorem recalls_blank (namespaces : List String) (coords : Coords) :
    (blank namespaces coords).Recalls := by
  intro r hr
  cases hr

section EditMethod

variable {c : ClassDraft} {line : Option Line} {column : Nat} {edit : MethodDraft → α × MethodDraft}

/-- What is changed and remembered when the reference names a method. -/
theorem editMethod_of_some {found : Entry MethodDraft} (hc : c.Recalls)
    (hns : ref.ns < c.namespaces.length)
    (h : firstFit (·.isNamedBy ref) c.methods = some found) :
    c.editMethod ref line column edit = .ok ((edit found.item).1,
      { c with
        methods := c.methods.set found.position (edit found.item).2
        recent := some ⟨ref, found.position⟩ }) := by
  unfold editMethod
  rw [if_pos hns, Recent.find?_eq_firstFit hc, h]

/-- What is added and remembered when the reference names no method. -/
theorem editMethod_of_none (hc : c.Recalls) (hns : ref.ns < c.namespaces.length)
    (h : firstFit (·.isNamedBy ref) c.methods = none) :
    c.editMethod ref line column edit =
      .ok ((edit (MethodDraft.ofRef c.namespaces (.onLine line column) ref)).1,
        { c with
          methods := c.methods ++
            [(edit (MethodDraft.ofRef c.namespaces (.onLine line column) ref)).2]
          recent := some ⟨ref, c.methods.length⟩ }) := by
  unfold editMethod
  rw [if_pos hns, Recent.find?_eq_firstFit hc, h]
  show (Draft.assign (MethodDraft.blank c.namespaces (.onLine line column)) ref.ns
    ref.value.name.text true >>= _) = _
  rw [MethodDraft.assign_blank hns]
  rfl

theorem editMethod_of_out (h : ¬ ref.ns < c.namespaces.length) :
    c.editMethod ref line column edit =
      .error (.methodSlotOutOfBounds ref.ns ref.value c.namespaces) := by
  unfold editMethod
  rw [if_neg h]

/-- A look-up keeps what is remembered true, whatever the caller does to the
method that it gets, and leaves the inner classes as they are. -/
theorem recalls_editMethod (hc : c.Recalls) {a : α} {after : ClassDraft}
    (h : c.editMethod ref line column edit = .ok (a, after)) :
    after.Recalls ∧ after.inner = c.inner := by
  by_cases hns : ref.ns < c.namespaces.length
  · cases hfit : firstFit (·.isNamedBy ref) c.methods with
    | some found =>
      rw [editMethod_of_some hc hns hfit] at h
      cases h
      refine ⟨fun r hr => ?_, rfl⟩
      cases hr
      exact Recent.Trusted.found hfit _
    | none =>
      rw [editMethod_of_none hc hns hfit] at h
      cases h
      refine ⟨fun r hr => ?_, rfl⟩
      cases hr
      exact Recent.Trusted.added hfit _
  · rw [editMethod_of_out hns] at h
    cases h

/-- A look-up that changes nothing leaves its method as the first one that the
reference names, and remembers where that is. -/
theorem firstFit_editMethod (hc : c.Recalls) {m : MethodDraft} {after : ClassDraft}
    (h : c.editMethod ref line column (fun m => (m, m)) = .ok (m, after)) :
    ∃ p, after.recent = some ⟨ref, p⟩ ∧
      firstFit (·.isNamedBy ref) after.methods = some ⟨p, m⟩ := by
  by_cases hns : ref.ns < c.namespaces.length
  · cases hfit : firstFit (·.isNamedBy ref) c.methods with
    | some found =>
      rw [editMethod_of_some hc hns hfit] at h
      cases h
      obtain ⟨hat, _, _⟩ := firstFit_eq_some_iff.1 hfit
      obtain ⟨hlt, hitem⟩ := List.getElem?_eq_some_iff.1 hat
      refine ⟨found.position, rfl, ?_⟩
      show firstFit _ (c.methods.set found.position found.item) = _
      rw [← hitem, List.set_getElem_self, hfit, hitem]
    | none =>
      rw [editMethod_of_none hc hns hfit] at h
      cases h
      refine ⟨c.methods.length, rfl, firstFit_eq_some_iff.2 ⟨?_, ?_, ?_⟩⟩
      · exact List.getElem?_concat_length
      · exact MethodDraft.isNamedBy_ofRef hns _
      · intro j hj item hitem
        rw [List.getElem?_append_left hj] at hitem
        exact firstFit_eq_none_iff.1 hfit item (List.mem_of_getElem? hitem)
  · rw [editMethod_of_out hns] at h
    cases h

end EditMethod

/-! ## Classes inside of classes -/

/-- The class and all classes inside of it can trust their memories. -/
structure RecallsWithin (c : ClassDraft) : Prop where
  own : c.Recalls
  inside : ∀ d ∈ preorder c.inner, d.Recalls

theorem recallsWithin_blank (namespaces : List String) (coords : Coords) :
    (blank namespaces coords).RecallsWithin := by
  refine ⟨recalls_blank namespaces coords, ?_⟩
  intro d hd
  cases hd

theorem Evolves.recallsWithin {c d : ClassDraft} (h : c.Evolves d) (hc : c.RecallsWithin) :
    d.RecallsWithin := by
  induction h with
  | refl => exact hc
  | heading _ hstep ih =>
    have hold := ih hc
    rcases hstep.cases with rfl | ⟨ns, name, rfl⟩ | ⟨coords, rfl⟩
    · exact hold
    · exact ⟨hold.own, hold.inside⟩
    · exact ⟨hold.own, hold.inside⟩
  | newField line column edit _ _ ih => exact ⟨(ih hc).own, (ih hc).inside⟩
  | newMethod line column edit _ _ ih =>
    -- the new method stands behind the remembered one
    exact ⟨fun r hr => ((ih hc).own r hr).append _, (ih hc).inside⟩
  | methodRef _ _ happly ih =>
    obtain ⟨hrecalls, hinner⟩ := recalls_editMethod (ih hc).own happly
    exact ⟨hrecalls, hinner ▸ (ih hc).inside⟩
  | @newInner c d line column α edit _ _ ih ihinner =>
    have hold := ih hc
    have hnew := ihinner (recallsWithin_blank _ _)
    refine ⟨hold.own, fun x hx => ?_⟩
    obtain ⟨outer, houter, hx⟩ := mem_preorder_iff.1 hx
    rcases List.mem_append.1 houter with houter | houter
    · exact hold.inside x (mem_preorder_iff.2 ⟨outer, houter, hx⟩)
    · cases List.mem_singleton.1 houter
      rcases hx with rfl | hx
      · exact hnew.own
      · exact hnew.inside x hx

end ClassDraft

/-- Every class of a draft that can be reached can trust its memory, at whatever
depth it is. -/
theorem MappingDraft.Reachable.recalls {d : MappingDraft} (h : d.Reachable) :
    ∀ c ∈ ClassDraft.preorder d.classes, c.Recalls := by
  intro c hc
  have hroots : ∀ c ∈ d.classes, c.RecallsWithin :=
    h.forall_classes ClassDraft.recallsWithin_blank fun hevolves => hevolves.recallsWithin
  obtain ⟨root, hroot, hc⟩ := ClassDraft.mem_preorder_iff.1 hc
  rcases hc with rfl | hc
  · exact (hroots _ hroot).own
  · exact (hroots root hroot).inside c hc

end SymbolMap
