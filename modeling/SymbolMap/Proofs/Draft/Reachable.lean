import Mathlib.Logic.Relation
import SymbolMap.Draft.Mapping
import SymbolMap.Proofs.Draft.Heading
import SymbolMap.Proofs.Draft.Pool

/-!
# Reachable drafts

The drafts that readers of mapping files can bring about: from a new draft, by
giving names, by setting what else a draft holds, and by asking for drafts
inside of it and changing those in the same way. A caller is a function on the
draft that it gets, of which only this is known: each step of it is one of the
operations.

A reachable draft is well-formed (`MappingDraft.Reachable.wellFormed`): every
heading in it has one slot for each namespace of the draft, and no method has
two parameters of one index.
-/

namespace SymbolMap

open Relation (ReflTransGen)

/-! ## Steps -/

/-- A change of a heading: a name is given, or the draft is moved. -/
inductive Draft.HeadingStep {δ : Type} [Draft δ] : δ → δ → Prop
  | assign {d e : δ} {ns : Nat} {name : String} {overwrite : Bool} :
      Draft.assign d ns name overwrite = .ok e → HeadingStep d e
  | assignBy {d e : δ} {ns name : String} {overwrite : Bool} :
      Draft.assignBy d ns name overwrite = .ok e → HeadingStep d e
  | withCoords (d : δ) (coords : Coords) : HeadingStep d (Draft.withCoords d coords)

/-- One change of a field. -/
inductive FieldDraft.Step : FieldDraft → FieldDraft → Prop
  | heading {f g : FieldDraft} : Draft.HeadingStep f g → Step f g
  | type (f : FieldDraft) (type : Option FieldType) : Step f { f with type }
  | flags (f : FieldDraft) (flags : MemberFlags) : Step f { f with flags }

/-- One change of a parameter. Its index stays. -/
inductive ParamDraft.Step : ParamDraft → ParamDraft → Prop
  | heading {p q : ParamDraft} : Draft.HeadingStep p q → Step p q
  | table (p : ParamDraft) (table : Option Nat) : Step p { p with table }
  | type (p : ParamDraft) (type : Option FieldType) : Step p { p with type }

/-- One change of a local variable. Its index stays. -/
inductive LocalDraft.Step : LocalDraft → LocalDraft → Prop
  | heading {v w : LocalDraft} : Draft.HeadingStep v w → Step v w
  | type (v : LocalDraft) (type : Option FieldType) : Step v { v with type }

/-- One change of a method, or of a variable of it. -/
inductive MethodDraft.Step : MethodDraft → MethodDraft → Prop
  | heading {m n : MethodDraft} : Draft.HeadingStep m n → Step m n
  | descriptor (m : MethodDraft) (descriptor : Option MethodDescriptor) :
      Step m { m with descriptor }
  | flags (m : MethodDraft) (flags : MemberFlags) : Step m { m with flags }
  | param (m : MethodDraft) (index : Nat) (line : Option Line) (column : Nat) {α : Type}
      (edit : ParamDraft → α × ParamDraft) :
      (∀ p, ReflTransGen ParamDraft.Step p (edit p).2) →
      Step m (m.editParam index line column edit).2
  | local (m : MethodDraft) (index : LocalIndex) (line : Option Line) (column : Nat) {α : Type}
      (edit : LocalDraft → α × LocalDraft) :
      (∀ v, ReflTransGen LocalDraft.Step v (edit v).2) →
      Step m (m.editLocal index line column edit).2

/-- What a class becomes by changes of it, of its members and of the classes
nested in it. -/
inductive ClassDraft.Evolves : ClassDraft → ClassDraft → Prop
  | refl (c : ClassDraft) : Evolves c c
  | heading {c d e : ClassDraft} : Evolves c d → Draft.HeadingStep d e → Evolves c e
  | newField {c d : ClassDraft} (line : Option Line) (column : Nat) {α : Type}
      (edit : FieldDraft → α × FieldDraft) : Evolves c d →
      (∀ f, ReflTransGen FieldDraft.Step f (edit f).2) →
      Evolves c (d.editNewField line column edit).2
  | newMethod {c d : ClassDraft} (line : Option Line) (column : Nat) {α : Type}
      (edit : MethodDraft → α × MethodDraft) : Evolves c d →
      (∀ m, ReflTransGen MethodDraft.Step m (edit m).2) →
      Evolves c (d.editNewMethod line column edit).2
  | methodRef {c d e : ClassDraft} {ref : Spelled MethodRef} {line : Option Line}
      {column : Nat} {α : Type} {edit : MethodDraft → α × MethodDraft} {a : α} : Evolves c d →
      (∀ m, ReflTransGen MethodDraft.Step m (edit m).2) →
      d.editMethod ref line column edit = .ok (a, e) → Evolves c e
  | newInner {c d : ClassDraft} (line : Option Line) (column : Nat) {α : Type}
      (edit : ClassDraft → α × ClassDraft) : Evolves c d →
      Evolves (.blank d.namespaces (.onLine line column))
        (edit (.blank d.namespaces (.onLine line column))).2 →
      Evolves c (d.editNewInner line column edit).2

/-- The drafts that calls on a new draft lead to. -/
inductive MappingDraft.Reachable : MappingDraft → Prop
  | create {names : List String} {d : MappingDraft} :
      MappingDraft.create names = .ok d → Reachable d
  | error {d : MappingDraft} (message : String) (coords : Option Coords) :
      Reachable d → Reachable (d.error message coords)
  | warn {d : MappingDraft} (message : String) (coords : Option Coords) :
      Reachable d → Reachable (d.warn message coords)
  | newPackage {d : MappingDraft} (line : Option Line) (column : Nat) {α : Type}
      (edit : PackageDraft → α × PackageDraft) : Reachable d →
      (∀ p, ReflTransGen Draft.HeadingStep p (edit p).2) →
      Reachable (d.editNewPackage line column edit).2
  | newClass {d : MappingDraft} (line : Option Line) (column : Nat) {α : Type}
      (edit : ClassDraft → α × ClassDraft) : Reachable d →
      (∀ c : ClassDraft, c.Evolves (edit c).2) →
      Reachable (d.editNewClass line column edit).2
  | classRef {d e : MappingDraft} {ref : Spelled ClassName} {line : Option Line}
      {column : Nat} {α : Type} {edit : ClassDraft → α × ClassDraft} {a : α} : Reachable d →
      (∀ c : ClassDraft, c.Evolves (edit c).2) →
      d.editClass ref line column edit = .ok (a, e) → Reachable e

/-! ## What a step can do -/

/-- A step of the heading gives a name, moves the draft, or does nothing. -/
theorem Draft.HeadingStep.cases {δ : Type} [Draft δ] {d e : δ} (h : Draft.HeadingStep d e) :
    e = d ∨ (∃ ns name, e = Draft.put d ns name) ∨ ∃ coords, e = Draft.withCoords d coords := by
  cases h with
  | @assign _ ns name overwrite h =>
    rcases Draft.assign_cases h with rfl | rfl
    · exact .inl rfl
    · exact .inr (.inl ⟨ns, name, rfl⟩)
  | @assignBy _ ns name overwrite h =>
    unfold Draft.assignBy at h
    cases hns : Draft.indexOf d ns with
    | error e =>
      rw [hns] at h
      cases h
    | ok index =>
      rw [hns] at h
      rcases Draft.assign_cases h with rfl | rfl
      · exact .inl rfl
      · exact .inr (.inl ⟨index, name, rfl⟩)
  | withCoords coords => exact .inr (.inr ⟨coords, rfl⟩)

/-- To try a change of the heading takes one step if the change is taken, and none if
it is refused. -/
theorem Draft.steps_attempt {δ : Type} [Draft δ] {change : δ → Except MappingError δ} {d : δ}
    (h : ∀ e, change d = .ok e → Draft.HeadingStep d e) :
    ReflTransGen Draft.HeadingStep d (Draft.attempt change d).2 := by
  cases hchange : change d with
  | error e => simp [Draft.attempt, hchange, ReflTransGen.refl]
  | ok changed =>
    rw [Draft.attempt_of_ok hchange]
    exact .single (h changed hchange)

/-- To try a change that may be refused is a change. -/
theorem ClassDraft.evolves_attempt {change : ClassDraft → Except MappingError ClassDraft}
    (h : ∀ c e, change c = .ok e → c.Evolves e) (c : ClassDraft) :
    c.Evolves (Draft.attempt change c).2 := by
  cases hchange : change c with
  | error e => simp [Draft.attempt, hchange, Evolves.refl]
  | ok changed =>
    rw [Draft.attempt_of_ok hchange]
    exact h c changed hchange

/-- A property that each step keeps is kept by any number of steps. -/
theorem keeps_of_steps {σ : Type} {step : σ → σ → Prop} {P : σ → Prop}
    (hstep : ∀ {s t}, step s t → P s → P t) {s t : σ} (h : ReflTransGen step s t)
    (hs : P s) : P t := by
  induction h with
  | refl => exact hs
  | tail _ hlast ih => exact hstep hlast ih

theorem ParamDraft.Step.index_eq {p q : ParamDraft} (h : p.Step q) : q.index = p.index := by
  cases h with
  | heading h => rcases h.cases with rfl | ⟨ns, name, rfl⟩ | ⟨coords, rfl⟩ <;> rfl
  | table => rfl
  | type => rfl

/-! ## Aligned headings -/

section Aligned

variable {δ : Type} [Draft δ] {namespaces : List String}

theorem Draft.HeadingStep.aligned {d e : δ} (h : Draft.HeadingStep d e)
    (hd : (Draft.heading d).Aligned namespaces) : (Draft.heading e).Aligned namespaces := by
  rcases h.cases with rfl | ⟨ns, name, rfl⟩ | ⟨coords, rfl⟩
  · exact hd
  · exact Draft.aligned_put hd
  · unfold Draft.withCoords
    rw [Draft.heading_withHeading]
    exact ⟨hd.spaces, hd.size⟩

theorem FieldDraft.Step.aligned {f g : FieldDraft} (h : f.Step g)
    (hf : f.toHeading.Aligned namespaces) : g.toHeading.Aligned namespaces := by
  cases h with
  | heading h => exact h.aligned hf
  | type => exact hf
  | flags => exact hf

theorem FieldDraft.aligned_of_steps {f g : FieldDraft} (h : ReflTransGen FieldDraft.Step f g) :
    f.toHeading.Aligned namespaces → g.toHeading.Aligned namespaces :=
  keeps_of_steps (P := fun f => f.toHeading.Aligned namespaces) FieldDraft.Step.aligned h

theorem ParamDraft.Step.aligned {p q : ParamDraft} (h : p.Step q)
    (hp : p.toHeading.Aligned namespaces) : q.toHeading.Aligned namespaces := by
  cases h with
  | heading h => exact h.aligned hp
  | table => exact hp
  | type => exact hp

theorem ParamDraft.aligned_of_steps {p q : ParamDraft} (h : ReflTransGen ParamDraft.Step p q) :
    p.toHeading.Aligned namespaces → q.toHeading.Aligned namespaces :=
  keeps_of_steps (P := fun p => p.toHeading.Aligned namespaces) ParamDraft.Step.aligned h

theorem LocalDraft.Step.aligned {v w : LocalDraft} (h : v.Step w)
    (hv : v.toHeading.Aligned namespaces) : w.toHeading.Aligned namespaces := by
  cases h with
  | heading h => exact h.aligned hv
  | type => exact hv

theorem LocalDraft.aligned_of_steps {v w : LocalDraft} (h : ReflTransGen LocalDraft.Step v w) :
    v.toHeading.Aligned namespaces → w.toHeading.Aligned namespaces :=
  keeps_of_steps (P := fun v => v.toHeading.Aligned namespaces) LocalDraft.Step.aligned h

end Aligned

/-! ## Well-formed methods -/

/-- All headings of the method are aligned, and its parameters differ by their
indices. -/
structure MethodDraft.WellFormed (namespaces : List String) (m : MethodDraft) : Prop where
  heading : m.toHeading.Aligned namespaces
  params : ∀ p ∈ m.params, p.toHeading.Aligned namespaces
  indices : (m.params.map ParamDraft.index).Nodup
  locals : ∀ v ∈ m.locals, v.toHeading.Aligned namespaces

namespace MethodDraft

variable {namespaces : List String}

theorem wellFormed_blank {h : Heading} (ha : h.Aligned namespaces) (coords : Coords) :
    (blank h.namespaces coords).WellFormed namespaces := by
  refine ⟨ha.blank coords, ?_, List.nodup_nil, ?_⟩
  · intro p hp
    cases hp
  · intro v hv
    cases hv

/-- Asking for a parameter leaves the indices different: one that is there is
changed in its place, and a new one has an index that none has yet. -/
theorem nodup_editFirst_index {α : Type} (new : ParamDraft) {edit : ParamDraft → α × ParamDraft}
    {params : List ParamDraft} (h : (params.map ParamDraft.index).Nodup)
    (hedit : ∀ p, (edit p).2.index = p.index) :
    ((editFirst (·.index == new.index) new edit params).2.map ParamDraft.index).Nodup := by
  cases hfit : firstFit (·.index == new.index) params with
  | some found =>
    -- the row of indices is the same as before
    obtain ⟨hat, _, _⟩ := firstFit_eq_some_iff.1 hfit
    obtain ⟨hlt, hitem⟩ := List.getElem?_eq_some_iff.1 hat
    rw [editFirst_of_some hfit, List.map_set, hedit, ← List.map_set, ← hitem,
      List.set_getElem_self]
    exact h
  | none =>
    have hout : new.index ∉ params.map ParamDraft.index := by
      intro hmem
      obtain ⟨p, hp, hindex⟩ := List.mem_map.1 hmem
      exact beq_eq_false_iff_ne.1 (firstFit_eq_none_iff.1 hfit p hp) hindex
    rw [editFirst_of_none hfit]
    show ((params ++ [(edit new).2]).map ParamDraft.index).Nodup
    rw [List.map_append, List.map_singleton, hedit]
    refine List.nodup_append.2 ⟨h, List.pairwise_singleton _ _, ?_⟩
    intro a ha b hb hab
    cases List.mem_singleton.1 hb
    exact hout (hab ▸ ha)

theorem Step.wellFormed {m n : MethodDraft} (h : m.Step n) (hm : m.WellFormed namespaces) :
    n.WellFormed namespaces := by
  cases h with
  | heading h =>
    have hheading := h.aligned hm.heading
    rcases h.cases with rfl | ⟨ns, name, rfl⟩ | ⟨coords, rfl⟩
    · exact hm
    · exact ⟨hheading, hm.params, hm.indices, hm.locals⟩
    · exact ⟨hheading, hm.params, hm.indices, hm.locals⟩
  | descriptor => exact ⟨hm.heading, hm.params, hm.indices, hm.locals⟩
  | flags => exact ⟨hm.heading, hm.params, hm.indices, hm.locals⟩
  | param index line column edit hedit =>
    have hindex : ∀ p, (edit p).2.index = p.index := fun p =>
      keeps_of_steps (P := fun q => q.index = p.index) (fun h hq => h.index_eq.trans hq)
        (hedit p) rfl
    refine ⟨hm.heading, ?_, ?_, hm.locals⟩
    · exact forall_mem_editFirst hm.params (hm.heading.blank _) fun p =>
        ParamDraft.aligned_of_steps (hedit p)
    · exact nodup_editFirst_index (.blank m.namespaces (.onLine line column) index) hm.indices
        hindex
  | «local» index line column edit hedit =>
    refine ⟨hm.heading, hm.params, hm.indices, ?_⟩
    exact forall_mem_editFirst hm.locals (hm.heading.blank _) fun v =>
      LocalDraft.aligned_of_steps (hedit v)

theorem wellFormed_of_steps {m n : MethodDraft} (h : ReflTransGen Step m n) :
    m.WellFormed namespaces → n.WellFormed namespaces :=
  keeps_of_steps (P := WellFormed namespaces) Step.wellFormed h

end MethodDraft

/-! ## Well-formed classes -/

/-- All headings of the class, of its members and of the classes nested in it
are aligned, and all its methods are well-formed. -/
inductive ClassDraft.WellFormed (namespaces : List String) : ClassDraft → Prop
  | mk {c : ClassDraft} (heading : c.toHeading.Aligned namespaces)
      (fields : ∀ f ∈ c.fields, f.toHeading.Aligned namespaces)
      (methods : ∀ m ∈ c.methods, m.WellFormed namespaces)
      (inner : ∀ i ∈ c.inner, WellFormed namespaces i) : WellFormed namespaces c

namespace ClassDraft

variable {namespaces : List String}

theorem wellFormed_blank {h : Heading} (ha : h.Aligned namespaces) (coords : Coords) :
    (blank h.namespaces coords).WellFormed namespaces := by
  refine ⟨ha.blank coords, ?_, ?_, ?_⟩ <;>
    · intro x hx
      cases hx

theorem wellFormed_editMethod {c d : ClassDraft} {ref : Spelled MethodRef} {line : Option Line}
    {column : Nat} {α : Type} {edit : MethodDraft → α × MethodDraft} {a : α}
    (hedit : ∀ m, m.WellFormed namespaces → (edit m).2.WellFormed namespaces)
    (h : c.editMethod ref line column edit = .ok (a, d)) (hc : c.WellFormed namespaces) :
    d.WellFormed namespaces := by
  obtain ⟨heading, fields, methods, inner⟩ := hc
  unfold editMethod at h
  split at h
  · split at h
    · rename_i found hfound
      cases h
      have hold := methods _ (List.mem_of_getElem? (Recent.getElem?_of_find? hfound))
      exact ⟨heading, fields, forall_mem_set methods (hedit _ hold) _, inner⟩
    · rename_i hnone
      cases hnew : Draft.assign (MethodDraft.blank c.namespaces (.onLine line column)) ref.ns
          ref.value.name.text true with
      | error e =>
        simp only [hnew] at h
        cases h
      | ok new =>
        simp only [hnew] at h
        cases h
        have hassigned : new.WellFormed namespaces :=
          (MethodDraft.Step.heading (.assign hnew)).wellFormed
            (MethodDraft.wellFormed_blank heading _)
        have hnew' := (MethodDraft.Step.descriptor new ref.value.signature).wellFormed hassigned
        exact ⟨heading, fields, forall_mem_editNew methods (hedit _ hnew'), inner⟩
  · cases h

theorem Evolves.wellFormed {c d : ClassDraft} (h : c.Evolves d)
    (hc : c.WellFormed namespaces) : d.WellFormed namespaces := by
  induction h with
  | refl c => exact hc
  | heading _ hstep ih =>
    obtain ⟨heading, fields, methods, inner⟩ := ih hc
    have hheading := hstep.aligned heading
    rcases hstep.cases with rfl | ⟨ns, name, rfl⟩ | ⟨coords, rfl⟩
    · exact ih hc
    · exact ⟨hheading, fields, methods, inner⟩
    · exact ⟨hheading, fields, methods, inner⟩
  | newField line column edit _ hedit ih =>
    obtain ⟨heading, fields, methods, inner⟩ := ih hc
    refine ⟨heading, forall_mem_editNew fields ?_, methods, inner⟩
    exact FieldDraft.aligned_of_steps (hedit _) (heading.blank _)
  | newMethod line column edit _ hedit ih =>
    obtain ⟨heading, fields, methods, inner⟩ := ih hc
    refine ⟨heading, fields, forall_mem_editNew methods ?_, inner⟩
    exact MethodDraft.wellFormed_of_steps (hedit _) (MethodDraft.wellFormed_blank heading _)
  | methodRef _ hedit happly ih =>
    exact wellFormed_editMethod (fun m => MethodDraft.wellFormed_of_steps (hedit m)) happly
      (ih hc)
  | newInner line column edit _ _ ih ihinner =>
    obtain ⟨heading, fields, methods, inner⟩ := ih hc
    refine ⟨heading, fields, methods, forall_mem_editNew inner ?_⟩
    exact ihinner (wellFormed_blank heading _)

end ClassDraft

/-! ## Well-formed drafts of sets -/

/-- The names of the namespaces are those of a set, and all headings in the
draft are aligned with them. -/
structure MappingDraft.WellFormed (d : MappingDraft) : Prop where
  valid : Namespace.validNames d.namespaces = .ok d.namespaces
  packages : ∀ p ∈ d.packages, p.toHeading.Aligned d.namespaces
  classes : ∀ c ∈ d.classes, c.WellFormed d.namespaces

/-- Names of namespaces that were found valid are found valid again. -/
theorem Namespace.validNames_of_validNames {names valid : List String}
    (h : validNames names = .ok valid) : validNames valid = .ok valid := by
  by_cases hempty : names.isEmpty = true
  · unfold validNames at h
    rw [if_pos hempty] at h
    cases h
    rfl
  · -- names that are given are kept as they are, or refused
    suffices valid = names by
      rw [this] at h ⊢
      exact h
    unfold validNames at h
    rw [if_neg hempty] at h
    split at h
    · cases h
    · split at h
      · cases h
      · split at h
        · cases h
        · exact (Except.ok.inj h).symm

/-- Two or more names that are not empty and differ are valid as they are. -/
theorem Namespace.validNames_self_iff {names : List String} :
    validNames names = .ok names ↔ 1 < names.length ∧ "" ∉ names ∧ names.Nodup := by
  have hdistinct : firstRepeated? [] names = none ↔ names.Nodup := by
    rw [firstRepeated?_eq_none_iff]
    simp
  rw [← hdistinct]
  unfold validNames
  by_cases hempty : names.isEmpty = true
  · -- no names stand for two others
    obtain rfl := List.isEmpty_iff.1 hempty
    simp
  · rw [if_neg hempty]
    split
    · have hfew : ¬ 1 < names.length := by omega
      simp [hfew]
    · have hmany : 1 < names.length := by omega
      split
      · rename_i hunnamed
        simp [List.contains_iff_mem.1 hunnamed]
      · rename_i hnamed
        rw [List.contains_iff_mem] at hnamed
        cases hrepeated : firstRepeated? [] names with
        | some name => simp
        | none => simp [hmany, hnamed]

/-- A set has two or more namespaces. -/
theorem Namespace.one_lt_length_of_validNames {names valid : List String}
    (h : validNames names = .ok valid) : 1 < valid.length :=
  (validNames_self_iff.1 (validNames_of_validNames h)).1

namespace MappingDraft

theorem wellFormed_of_create {names : List String} {d : MappingDraft}
    (h : create names = .ok d) : d.WellFormed := by
  obtain ⟨namespaces, hvalid, rfl⟩ := create_eq_ok h
  refine ⟨Namespace.validNames_of_validNames hvalid, ?_, ?_⟩ <;>
    · intro x hx
      cases hx

/-- A look-up changes a class that is there in its place, or one that is new and
has been given a name. -/
theorem editClass_cases {d e : MappingDraft} {ref : Spelled ClassName} {line : Option Line}
    {column : Nat} {α : Type} {edit : ClassDraft → α × ClassDraft} {a : α}
    (h : d.editClass ref line column edit = .ok (a, e)) :
    (∃ i c, d.classes[i]? = some c ∧
      e = { d with classes := d.classes.set i (edit c).2, recent := some ⟨ref, i⟩ }) ∨
    ∃ c, Draft.HeadingStep (ClassDraft.blank d.namespaces (.onLine line column)) c ∧
      e = { d with
        classes := d.classes ++ [(edit c).2], recent := some ⟨ref, d.classes.length⟩ } := by
  unfold editClass at h
  split at h
  · split at h
    · rename_i found hfound
      cases h
      exact .inl ⟨_, _, Recent.getElem?_of_find? hfound, rfl⟩
    · cases hnew : Draft.assign (ClassDraft.blank d.namespaces (.onLine line column)) ref.ns
          ref.value.text true with
      | error e =>
        simp only [hnew] at h
        cases h
      | ok new =>
        simp only [hnew] at h
        cases h
        exact .inr ⟨new, .assign hnew, rfl⟩
  · cases h

/-- What holds of new classes and is kept by changes of classes holds of all classes
that are not nested in another one. -/
theorem Reachable.forall_classes {P : ClassDraft → Prop}
    (hblank : ∀ namespaces coords, P (.blank namespaces coords))
    (hevolves : ∀ {c e : ClassDraft}, c.Evolves e → P c → P e) {d : MappingDraft}
    (h : d.Reachable) : ∀ c ∈ d.classes, P c := by
  induction h with
  | create h =>
    obtain ⟨_, _, rfl⟩ := create_eq_ok h
    simp
  | error message coords _ ih => exact ih
  | warn message coords _ ih => exact ih
  | newPackage line column edit _ _ ih => exact ih
  | newClass line column edit _ hedit ih =>
    exact forall_mem_editNew ih (hevolves (hedit _) (hblank _ _))
  | classRef _ hedit happly ih =>
    rcases editClass_cases happly with ⟨i, c, hc, rfl⟩ | ⟨c, hstep, rfl⟩
    · exact forall_mem_set ih (hevolves (hedit c) (ih c (List.mem_of_getElem? hc))) i
    · have hnamed : P c := hevolves (.heading (.refl _) hstep) (hblank _ _)
      exact forall_mem_editNew ih (hevolves (hedit c) hnamed)

theorem wellFormed_editClass {d e : MappingDraft} {ref : Spelled ClassName} {line : Option Line}
    {column : Nat} {α : Type} {edit : ClassDraft → α × ClassDraft} {a : α}
    (hedit : ∀ c : ClassDraft, c.WellFormed d.namespaces → (edit c).2.WellFormed d.namespaces)
    (h : d.editClass ref line column edit = .ok (a, e)) (hd : d.WellFormed) : e.WellFormed := by
  rcases editClass_cases h with ⟨i, c, hc, rfl⟩ | ⟨c, hstep, rfl⟩
  · have hold := hd.classes c (List.mem_of_getElem? hc)
    exact ⟨hd.valid, hd.packages, forall_mem_set hd.classes (hedit c hold) i⟩
  · have hblank := ClassDraft.wellFormed_blank
      (Heading.aligned_blank d.namespaces (.onLine line column)) (.onLine line column)
    have hnamed := (ClassDraft.Evolves.heading (.refl _) hstep).wellFormed hblank
    exact ⟨hd.valid, hd.packages, forall_mem_editNew hd.classes (hedit c hnamed)⟩

theorem Reachable.wellFormed {d : MappingDraft} (h : d.Reachable) : d.WellFormed := by
  induction h with
  | create h => exact wellFormed_of_create h
  | error message coords _ ih => exact ⟨ih.valid, ih.packages, ih.classes⟩
  | warn message coords _ ih => exact ⟨ih.valid, ih.packages, ih.classes⟩
  | newPackage line column edit _ hedit ih =>
    refine ⟨ih.valid, forall_mem_editNew ih.packages ?_, ih.classes⟩
    exact keeps_of_steps (P := fun p => (Draft.heading p).Aligned _) Draft.HeadingStep.aligned
      (hedit _) (Heading.aligned_blank _ _)
  | newClass line column edit _ hedit ih =>
    refine ⟨ih.valid, ih.packages, forall_mem_editNew ih.classes ?_⟩
    exact (hedit _).wellFormed
      (ClassDraft.wellFormed_blank (Heading.aligned_blank _ (.onLine line column)) _)
  | classRef _ hedit happly ih =>
    exact wellFormed_editClass (fun c => (hedit c).wellFormed) happly ih

end MappingDraft

end SymbolMap
