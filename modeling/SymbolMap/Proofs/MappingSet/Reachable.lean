import SymbolMap.Draft.Build
import SymbolMap.Proofs.Draft.Forest
import SymbolMap.Proofs.MappingSet.Frame
import SymbolMap.Proofs.MappingSet.Index

/-!
# Reachable sets

The sets that additions lead to, from a new set on (`MappingSet.Reachable`). Only
additions that are accepted are steps: a refused one leaves the set as it is, and a
method of which the filling is refused halfway is one that was filled with less. What
fills a method is a function on it of which only this is known: all it does is adding
parameters and local variables. Building a draft makes nothing but such additions
(`MappingSet.Reachable.of_build`).

In a reachable set the look-up by name can be relied on, and each class has the
id of its position and stands behind the class that it is nested in
(`MappingSet.Reachable.sound`).
-/

namespace SymbolMap

/-! ## Steps in a row -/

section Steps

variable {α β ε : Type}

/-- A step after another one gives a result only if both do. -/
theorem exists_of_bind_eq_ok {x : Except ε α} {f : α → Except ε β} {b : β}
    (h : x >>= f = .ok b) : ∃ a, x = .ok a ∧ f a = .ok b := by
  cases x with
  | error e => cases h
  | ok a => exact ⟨a, rfl, h⟩

/-- What each step keeps is kept by all steps in a row. -/
theorem keeps_of_foldlM {P : β → Prop} {f : β → α → Except ε β}
    (hstep : ∀ b x c, P b → f b x = .ok c → P c) {xs : List α} {b c : β}
    (h : xs.foldlM f b = .ok c) (hb : P b) : P c := by
  induction xs generalizing b with
  | nil =>
    cases h
    exact hb
  | cons x rest ih =>
    rw [List.foldlM_cons] at h
    obtain ⟨next, hnext, hrest⟩ := exists_of_bind_eq_ok h
    exact ih hrest (hstep b x next hb hnext)

/-- Steps that only change a part of something, in a row. -/
theorem foldlM_eq_ok_iff {γ : Type} (whole : γ → β) {f : β → α → Except ε β} {next : γ → α → γ}
    {accepted : α → Prop}
    (hstep : ∀ part x c, f (whole part) x = .ok c ↔ accepted x ∧ c = whole (next part x))
    {xs : List α} {part : γ} {c : β} :
    xs.foldlM f (whole part) = .ok c ↔
      (∀ x ∈ xs, accepted x) ∧ c = whole (xs.foldl next part) := by
  induction xs generalizing part with
  | nil =>
    rw [List.foldlM_nil]
    exact ⟨fun h => ⟨by simp, (Except.ok.inj h).symm⟩, fun h => congrArg Except.ok h.2.symm⟩
  | cons x rest ih =>
    rw [List.foldlM_cons, List.forall_mem_cons, List.foldl_cons]
    constructor
    · intro h
      obtain ⟨middle, hfirst, hrest⟩ := exists_of_bind_eq_ok h
      obtain ⟨hx, rfl⟩ := (hstep part x middle).1 hfirst
      obtain ⟨hall, hc⟩ := ih.1 hrest
      exact ⟨⟨hx, hall⟩, hc⟩
    · rintro ⟨⟨hx, hall⟩, hc⟩
      rw [(hstep part x _).2 ⟨hx, rfl⟩]
      exact ih.2 ⟨hall, hc⟩

end Steps

/-! ## Additions -/

/-- What a method becomes by additions to it. -/
inductive Method.Grows : Method → Method → Prop
  | refl (m : Method) : Grows m m
  | addParam {m n o : Method} {names : NameRow} {origin : Origin} {index : Nat}
      {table : Option Nat} {type : Option FieldType} {p : Param} : Grows m n →
      n.addParam names origin index table type = .ok (p, o) → Grows m o
  | addLocal {m n o : Method} {names : NameRow} {origin : Origin} {index : LocalIndex}
      {type : Option FieldType} {v : LocalVar} : Grows m n →
      n.addLocal names origin index type = .ok (v, o) → Grows m o

/-- The sets that additions to a new set lead to. -/
inductive MappingSet.Reachable : MappingSet → Prop
  | create {id : SetId} {names : List String} {s : MappingSet} :
      MappingSet.create id names = .ok s → Reachable s
  | addPackage {s t : MappingSet} {names : NameRow} {origin : Origin} {position : Nat} :
      Reachable s → s.addPackage names origin = .ok (position, t) → Reachable t
  | addClass {s t : MappingSet} {names : NameRow} {origin : Origin} {parent : Option ClassId}
      {id : ClassId} :
      Reachable s → s.addClass names origin parent = .ok (id, t) → Reachable t
  | addField {s t : MappingSet} {owner : ClassId} {names : NameRow} {origin : Origin}
      {type : Option FieldType} {flags : MemberFlags} {f : Field} :
      Reachable s → s.addField owner names origin type flags = .ok (f, t) → Reachable t
  | addMethod {s t : MappingSet} {owner : ClassId} {names : NameRow} {origin : Origin}
      {descriptor : MethodDescriptor} {flags : MemberFlags} {α : Type}
      {fill : Method → Except MappingError (α × Method)} {a : α} :
      Reachable s → (∀ m a n, fill m = .ok (a, n) → m.Grows n) →
      s.addMethod owner names origin descriptor flags fill = .ok (a, t) → Reachable t
  | editMethod {s t : MappingSet} {owner : ClassId} {id : MethodId} {α : Type}
      {edit : Method → Except MappingError (α × Method)} {a : α} :
      Reachable s → (∀ m a n, edit m = .ok (a, n) → m.Grows n) →
      s.editMethod owner id edit = .ok (some (a, t)) → Reachable t

/-- What a set becomes by additions to it. -/
inductive MappingSet.Grows : MappingSet → MappingSet → Prop
  | refl (s : MappingSet) : Grows s s
  | addPackage {s t u : MappingSet} {names : NameRow} {origin : Origin} {position : Nat} :
      Grows s t → t.addPackage names origin = .ok (position, u) → Grows s u
  | addClass {s t u : MappingSet} {names : NameRow} {origin : Origin} {parent : Option ClassId}
      {id : ClassId} :
      Grows s t → t.addClass names origin parent = .ok (id, u) → Grows s u
  | addField {s t u : MappingSet} {owner : ClassId} {names : NameRow} {origin : Origin}
      {type : Option FieldType} {flags : MemberFlags} {f : Field} :
      Grows s t → t.addField owner names origin type flags = .ok (f, u) → Grows s u
  | addMethod {s t u : MappingSet} {owner : ClassId} {names : NameRow} {origin : Origin}
      {descriptor : MethodDescriptor} {flags : MemberFlags} {α : Type}
      {fill : Method → Except MappingError (α × Method)} {a : α} :
      Grows s t → (∀ m a n, fill m = .ok (a, n) → m.Grows n) →
      t.addMethod owner names origin descriptor flags fill = .ok (a, u) → Grows s u
  | editMethod {s t u : MappingSet} {owner : ClassId} {id : MethodId} {α : Type}
      {edit : Method → Except MappingError (α × Method)} {a : α} :
      Grows s t → (∀ m a n, edit m = .ok (a, n) → m.Grows n) →
      t.editMethod owner id edit = .ok (some (a, u)) → Grows s u

theorem MappingSet.Reachable.grows {s t : MappingSet} (hs : s.Reachable) (h : s.Grows t) :
    t.Reachable := by
  induction h with
  | refl => exact hs
  | addPackage _ h ih => exact .addPackage ih h
  | addClass _ h ih => exact .addClass ih h
  | addField _ h ih => exact .addField ih h
  | addMethod _ hfill h ih => exact .addMethod ih hfill h
  | editMethod _ hedit h ih => exact .editMethod ih hedit h

theorem MappingSet.Grows.trans {s t u : MappingSet} (hst : s.Grows t) (htu : t.Grows u) :
    s.Grows u := by
  induction htu with
  | refl => exact hst
  | addPackage _ h ih => exact .addPackage ih h
  | addClass _ h ih => exact .addClass ih h
  | addField _ h ih => exact .addField ih h
  | addMethod _ hfill h ih => exact .addMethod ih hfill h
  | editMethod _ hedit h ih => exact .editMethod ih hedit h

/-! ## Building makes additions -/

theorem ParamDraft.grows_of_build {p : ParamDraft} {m : Method} {b c : MethodBuild}
    (hb : m.Grows b.method) (h : p.build b = .ok c) : m.Grows c.method := by
  unfold ParamDraft.build at h
  obtain ⟨⟨_, method⟩, hadd, hc⟩ := exists_of_bind_eq_ok h
  cases hc
  exact .addParam hb hadd

theorem LocalDraft.grows_of_build {v : LocalDraft} {m : Method} {b c : MethodBuild}
    (hb : m.Grows b.method) (h : v.build b = .ok c) : m.Grows c.method := by
  unfold LocalDraft.build at h
  split at h
  · obtain ⟨⟨_, method⟩, hadd, hc⟩ := exists_of_bind_eq_ok h
    cases hc
    exact .addLocal hb hadd
  · cases h
    exact hb

theorem MethodDraft.grows_of_fill {d : MethodDraft} {b c : MethodBuild}
    (h : d.fill b = .ok c) : b.method.Grows c.method := by
  unfold MethodDraft.fill at h
  obtain ⟨filled, hparams, hlocals⟩ := exists_of_bind_eq_ok h
  have hfilled : b.method.Grows filled.method :=
    keeps_of_foldlM (P := fun x : MethodBuild => b.method.Grows x.method)
      (fun _ _ _ => ParamDraft.grows_of_build) hparams (.refl _)
  exact keeps_of_foldlM (P := fun x : MethodBuild => b.method.Grows x.method)
    (fun _ _ _ => LocalDraft.grows_of_build) hlocals hfilled

section Building

variable {s : MappingSet} {b c : Build}

theorem PackageDraft.grows_of_build {p : PackageDraft} (hb : s.Grows b.set)
    (h : p.build b = .ok c) : s.Grows c.set := by
  unfold PackageDraft.build at h
  obtain ⟨⟨_, set⟩, hadd, hc⟩ := exists_of_bind_eq_ok h
  cases hc
  exact .addPackage hb hadd

theorem FieldDraft.grows_of_build {f : FieldDraft} {owner : ClassId} (hb : s.Grows b.set)
    (h : f.build owner b = .ok c) : s.Grows c.set := by
  unfold FieldDraft.build at h
  obtain ⟨⟨_, set⟩, hadd, hc⟩ := exists_of_bind_eq_ok h
  cases hc
  exact .addField hb hadd

/-- A method without a descriptor leaves the set as it is, and any other is added to it. -/
theorem MethodDraft.cases_of_build {m : MethodDraft} {owner : ClassId}
    (h : m.build owner b = .ok c) :
    (m.descriptor = none ∧ c.set = b.set) ∨
      ∃ (descriptor : MethodDescriptor) (fill : Method → Except MappingError (Report × Method)),
        (∀ x a y, fill x = .ok (a, y) → x.Grows y) ∧
        b.set.addMethod owner (m.conclude .methods b.report).1 (.file m.coords) descriptor m.flags
          fill = .ok (c.report, c.set) := by
  unfold MethodDraft.build at h
  cases hdescriptor : m.descriptor with
  | none =>
    rw [hdescriptor] at h
    cases h
    exact .inl ⟨rfl, rfl⟩
  | some descriptor =>
    rw [hdescriptor] at h
    obtain ⟨⟨_, set⟩, hadd, hc⟩ := exists_of_bind_eq_ok h
    cases hc
    refine .inr ⟨descriptor, _, ?_, hadd⟩
    intro x a y hfill
    obtain ⟨filled, hfilled, hy⟩ := exists_of_bind_eq_ok hfill
    cases hy
    exact MethodDraft.grows_of_fill hfilled

theorem MethodDraft.grows_of_build {m : MethodDraft} {owner : ClassId}
    (hb : s.Grows b.set) (h : m.build owner b = .ok c) : s.Grows c.set := by
  rcases MethodDraft.cases_of_build h with ⟨_, hset⟩ | ⟨_, _, hfill, hadd⟩
  · rw [hset]
    exact hb
  · exact .addMethod hb hfill hadd

/-- A class is added first, then its members, and then its inner classes. -/
theorem ClassDraft.exists_of_build {parent : Option ClassId} {d : ClassDraft}
    (h : ClassDraft.build parent b d = .ok c) :
    ∃ id set withMembers,
      b.set.addClass (d.conclude .classes b.report).1 (.file d.coords) parent = .ok (id, set) ∧
      set.Grows withMembers.set ∧ ClassDraft.buildAll (some id) withMembers d.inner = .ok c := by
  obtain ⟨heading, fields, methods, inner, recent⟩ := d
  unfold ClassDraft.build at h
  obtain ⟨⟨id, set⟩, hadd, hmembers⟩ := exists_of_bind_eq_ok h
  obtain ⟨withFields, hfields, hmembers⟩ := exists_of_bind_eq_ok hmembers
  obtain ⟨withMethods, hmethods, hinner⟩ := exists_of_bind_eq_ok hmembers
  have hwithFields : set.Grows withFields.set :=
    keeps_of_foldlM (P := fun x : Build => set.Grows x.set)
      (fun _ _ _ => FieldDraft.grows_of_build) hfields (.refl set)
  have hwithMethods : set.Grows withMethods.set :=
    keeps_of_foldlM (P := fun x : Build => set.Grows x.set)
      (fun _ _ _ => MethodDraft.grows_of_build) hmethods hwithFields
  exact ⟨id, set, withMethods, hadd, hwithMethods, hinner⟩

theorem ClassDraft.grows_of_buildAll (forest : List ClassDraft) :
    ∀ (parent : Option ClassId) (b c : Build), s.Grows b.set →
      ClassDraft.buildAll parent b forest = .ok c → s.Grows c.set := by
  induction forest using ClassDraft.forest_induction with
  | nil =>
    intro parent b c hb h
    cases h
    exact hb
  | cons d rest ihinner ihrest =>
    intro parent b c hb h
    obtain ⟨after, hclass, hrest⟩ := exists_of_bind_eq_ok h
    obtain ⟨id, set, withMembers, hadd, hgrows, hinner⟩ := ClassDraft.exists_of_build hclass
    have hset : s.Grows set := .addClass hb hadd
    exact ihrest parent after c (ihinner _ _ _ (hset.trans hgrows) hinner) hrest

end Building

/-- A draft is built by additions to a new set with its namespaces. -/
theorem MappingDraft.exists_grows_of_build {d : MappingDraft} {id : SetId} {s : MappingSet}
    {report : Report} (h : d.build id = .ok (s, report)) :
    ∃ new, MappingSet.create id d.namespaces = .ok new ∧ new.Grows s := by
  unfold MappingDraft.build at h
  obtain ⟨new, hnew, h⟩ := exists_of_bind_eq_ok h
  obtain ⟨withPackages, hpackages, h⟩ := exists_of_bind_eq_ok h
  obtain ⟨built, hclasses, h⟩ := exists_of_bind_eq_ok h
  cases h
  have hwithPackages : new.Grows withPackages.set :=
    keeps_of_foldlM (P := fun x : Build => new.Grows x.set)
      (fun _ _ _ => PackageDraft.grows_of_build) hpackages (.refl new)
  exact ⟨new, hnew, ClassDraft.grows_of_buildAll d.classes none _ _ hwithPackages hclasses⟩

/-- A set that is built is one that additions lead to. -/
theorem MappingSet.Reachable.of_build {d : MappingDraft} {id : SetId} {s : MappingSet}
    {report : Report} (h : d.build id = .ok (s, report)) : s.Reachable := by
  obtain ⟨new, hnew, hgrows⟩ := MappingDraft.exists_grows_of_build h
  exact Reachable.grows (.create hnew) hgrows

/-! ## What additions keep -/

namespace MappingSet

/-- Names can be looked up, each class has the id of its position, and the class
that it is nested in stands in front of it in the same set. -/
structure Sound (s : MappingSet) : Prop where
  packages : s.packages.Indexed s.width
  classes : s.classes.Indexed s.width
  ids : ∀ i c, s.classes.get? i = some c → c.id = ⟨s.id, i⟩
  parents : ∀ i c p, s.classes.get? i = some c → c.parent = some p →
    p.set = s.id ∧ p.index < i

/-- A new set has valid names of namespaces and no elements. -/
theorem create_eq_ok {id : SetId} {names : List String} {s : MappingSet}
    (h : create id names = .ok s) :
    ∃ valid, Namespace.validNames names = .ok valid ∧
      s = ⟨id, valid, .empty valid.length, .empty valid.length⟩ := by
  unfold create at h
  obtain ⟨valid, hvalid, hs⟩ := exists_of_bind_eq_ok h
  cases hs
  exact ⟨valid, hvalid, rfl⟩

/-- What a class is nested in is a class of the set that stands in front of it. -/
theorem Sound.exists_parent {s : MappingSet} (hs : s.Sound) {i : Nat} {c : Class} {p : ClassId}
    (hc : s.classes.get? i = some c) (hp : c.parent = some p) :
    ∃ outer, p = ⟨s.id, p.index⟩ ∧ p.index < i ∧ s.classes.get? p.index = some outer ∧
      outer.id = p := by
  obtain ⟨hset, hlt⟩ := hs.parents i c p hc hp
  have hin : p.index < s.classes.size :=
    Nat.lt_trans hlt (Array.getElem?_eq_some_iff.1 hc).1
  obtain ⟨outer, houter⟩ : ∃ outer, s.classes.get? p.index = some outer :=
    ⟨_, Array.getElem?_eq_getElem hin⟩
  have hid : p = ⟨s.id, p.index⟩ := by rw [← hset]
  exact ⟨outer, hid, hlt, houter, (hs.ids _ _ houter).trans hid.symm⟩

theorem sound_of_create {id : SetId} {names : List String} {s : MappingSet}
    (h : create id names = .ok s) : s.Sound := by
  obtain ⟨valid, _, rfl⟩ := create_eq_ok h
  refine ⟨Table.indexed_empty _, Table.indexed_empty _, ?_, ?_⟩
  · intro i c hc
    rw [Table.get?_empty] at hc
    cases hc
  · intro i c p hc
    rw [Table.get?_empty] at hc
    cases hc

/-- What an accepted package is. -/
theorem addPackage_eq_ok {s t : MappingSet} {names : NameRow} {origin : Origin} {position : Nat}
    (h : s.addPackage names origin = .ok (position, t)) :
    t = { s with packages := s.packages.push ⟨⟨names, origin⟩⟩ } ∧ names.size = s.width := by
  unfold addPackage at h
  rw [Update.result_eq_ok_iff, run_insertPackage] at h
  split at h
  · rename_i hsize
    cases h
    exact ⟨rfl, hsize⟩
  · cases h

theorem Sound.addPackage {s t : MappingSet} {names : NameRow} {origin : Origin} {position : Nat}
    (hs : s.Sound) (h : s.addPackage names origin = .ok (position, t)) : t.Sound := by
  obtain ⟨rfl, _⟩ := addPackage_eq_ok h
  exact ⟨hs.packages.push _, hs.classes, hs.ids, hs.parents⟩

/-- What an accepted class is, the id that is handed out for it, and that the set has the class
around it. -/
theorem addClass_eq_ok {s t : MappingSet} {names : NameRow} {origin : Origin}
    {parent : Option ClassId} {id : ClassId}
    (h : s.addClass names origin parent = .ok (id, t)) :
    t = { s with classes :=
        s.classes.push (.bare ⟨s.id, s.classes.size⟩ names origin parent) } ∧
      (∀ p ∈ parent, (s.class? p).isSome) ∧ names.size = s.width ∧
      id = ⟨s.id, s.classes.size⟩ := by
  unfold addClass at h
  rw [Update.result_eq_ok_iff, run_insertClass] at h
  split at h
  · rename_i hsize
    cases hforeign : parent.filter fun outer => (s.class? outer).isNone with
    | some outer =>
      rw [hforeign] at h
      cases h
    | none =>
      rw [hforeign] at h
      cases h
      refine ⟨rfl, ?_, hsize, rfl⟩
      rintro p ⟨⟩
      rw [Option.filter_eq_none_iff] at hforeign
      simpa [Option.isSome_iff_ne_none] using hforeign p rfl
  · cases h

theorem Sound.addClass {s t : MappingSet} {names : NameRow} {origin : Origin}
    {parent : Option ClassId} {id : ClassId} (hs : s.Sound)
    (h : s.addClass names origin parent = .ok (id, t)) : t.Sound := by
  obtain ⟨rfl, hparent, _⟩ := addClass_eq_ok h
  refine ⟨hs.packages, hs.classes.push _, ?_, ?_⟩
  · intro i c hc
    rw [Table.get?_push] at hc
    split at hc
    · rename_i hi
      cases hc
      rw [hi]
      rfl
    · exact hs.ids i c hc
  · intro i c p hc hp
    rw [Table.get?_push] at hc
    split at hc
    · rename_i hi
      cases hc
      obtain ⟨outer, houter⟩ := Option.isSome_iff_exists.1 (hparent p hp)
      obtain ⟨hset, hat⟩ := class?_eq_some_iff.1 houter
      exact ⟨hset, hi ▸ (Array.getElem?_eq_some_iff.1 hat).1⟩
    · exact hs.parents i c p hc hp

/-- A class of which only the members have changed leaves all else of a set as it is. -/
theorem Sound.withClass {s : MappingSet} {position : Nat} {c d : Class} (hs : s.Sound)
    (hc : s.classes.get? position = some c) (hcd : c.Remains d) :
    (s.withClass position d).Sound := by
  have hget : ∀ i e, (s.withClass position d).classes.get? i = some e →
      ∃ b, s.classes.get? i = some b ∧ e.id = b.id ∧ e.parent = b.parent := by
    intro i e he
    unfold MappingSet.withClass at he
    rw [Table.get?_replace] at he
    split at he
    · rename_i hi
      cases he
      exact ⟨c, hi.1 ▸ hc, hcd.id, hcd.parent⟩
    · exact ⟨e, he, rfl, rfl⟩
  refine ⟨hs.packages, hs.classes.replace hc hcd.names, ?_, ?_⟩
  · intro i e he
    obtain ⟨b, hb, hid, _⟩ := hget i e he
    rw [hid]
    exact hs.ids i b hb
  · intro i e p he hp
    obtain ⟨b, hb, _, hparent⟩ := hget i e he
    exact hs.parents i b p hb (hparent ▸ hp)

/-- A class is put back as it has become by the update. -/
theorem modifyClass_eq_ok {s t : MappingSet} {id : ClassId} {α : Type} {edit : Update Class α}
    {a : α} (h : (modifyClass id edit).run s = .ok a t) :
    ∃ c d, s.class? id = some c ∧ edit.run c = .ok a d ∧ t = s.withClass id.index d := by
  cases hc : s.class? id with
  | none =>
    rw [run_modifyClass_of_none hc] at h
    cases h
  | some c =>
    rw [run_modifyClass_of_some hc] at h
    obtain ⟨d, hd, ht⟩ := Update.putBack_eq_ok_iff.1 h
    exact ⟨c, d, rfl, hd, ht.symm⟩

theorem left_modifyClass_of_some {s : MappingSet} {id : ClassId} {c : Class}
    (h : s.class? id = some c) {α : Type} (edit : Update Class α) :
    (modifyClass id edit).left s = s.withClass id.index (edit.left c) := by
  unfold Update.left
  rw [run_modifyClass_of_some h, Update.behind_putBack]

/-- A field is added to a class of the set. -/
theorem addField_eq_ok {s t : MappingSet} {owner : ClassId} {names : NameRow} {origin : Origin}
    {type : Option FieldType} {flags : MemberFlags} {f : Field}
    (h : s.addField owner names origin type flags = .ok (f, t)) :
    ∃ c d, s.class? owner = some c ∧ (Class.insertField names origin type flags).run c = .ok f d ∧
      t = s.withClass owner.index d :=
  modifyClass_eq_ok (Update.result_eq_ok_iff.1 h)

/-- A method is added to a class of the set. -/
theorem addMethod_eq_ok {s t : MappingSet} {owner : ClassId} {names : NameRow} {origin : Origin}
    {descriptor : MethodDescriptor} {flags : MemberFlags} {α : Type}
    {fill : Method → Except MappingError (α × Method)} {a : α}
    (h : s.addMethod owner names origin descriptor flags fill = .ok (a, t)) :
    ∃ c d, s.class? owner = some c ∧
      (Class.insertMethod names origin descriptor flags (.ofResult fill)).run c = .ok a d ∧
      t = s.withClass owner.index d :=
  modifyClass_eq_ok (Update.result_eq_ok_iff.1 h)

/-- A method that is updated is put back into its class. -/
theorem modifyMethod_eq_ok_some_iff {s t : MappingSet} {owner : ClassId} {id : MethodId} {α : Type}
    {edit : Update Method α} {a : α} :
    (modifyMethod owner id edit).run s = .ok (some a) t ↔
      ∃ c m n, s.class? owner = some c ∧ c.method? id = some m ∧ edit.run m = .ok a n ∧
        t = s.withClass owner.index { c with methods := c.methods.set id.index n } := by
  constructor
  · intro h
    obtain ⟨c, d, hc, hedit, rfl⟩ := modifyClass_eq_ok h
    cases hm : c.method? id with
    | none =>
      rw [Class.run_modifyMethod_of_none hm] at hedit
      cases hedit
    | some m =>
      rw [Class.run_modifyMethod_of_some hm] at hedit
      obtain ⟨n, hn, rfl⟩ := Update.putBack_eq_ok_iff.1 hedit
      obtain ⟨b, hn, ⟨⟩⟩ := Update.run_map_eq_ok_iff.1 hn
      exact ⟨c, m, n, hc, hm, hn, rfl⟩
  · rintro ⟨c, m, n, hc, hm, hn, rfl⟩
    unfold modifyMethod
    rw [run_modifyClass_of_some hc, Class.run_modifyMethod_of_some hm,
      Update.run_map_eq_ok_iff.2 ⟨a, hn, rfl⟩]
    rfl

/-- Where the method is one of another class, nothing is changed. -/
theorem eq_of_modifyMethod_eq_ok_none {s t : MappingSet} {owner : ClassId} {id : MethodId}
    {α : Type} {edit : Update Method α} (h : (modifyMethod owner id edit).run s = .ok none t) :
    t = s := by
  obtain ⟨c, d, hc, hedit, rfl⟩ := modifyClass_eq_ok h
  cases hm : c.method? id with
  | none =>
    rw [Class.run_modifyMethod_of_none hm] at hedit
    cases hedit
    exact withClass_self (class?_eq_some_iff.1 hc).2
  | some m =>
    rw [Class.run_modifyMethod_of_some hm] at hedit
    obtain ⟨n, hn, -⟩ := Update.putBack_eq_ok_iff.1 hedit
    obtain ⟨_, _, ⟨⟩⟩ := Update.run_map_eq_ok_iff.1 hn

theorem editMethod_eq_ok_iff {s t : MappingSet} {owner : ClassId} {id : MethodId} {α : Type}
    {edit : Method → Except MappingError (α × Method)} {a : α} :
    s.editMethod owner id edit = .ok (some (a, t)) ↔
      (modifyMethod owner id (.ofResult edit)).run s = .ok (some a) t := by
  rw [← Update.result_eq_ok_iff]
  unfold editMethod
  cases (modifyMethod owner id (.ofResult edit)).result s with
  | error e => simp [bind, Except.bind]
  | ok outcome =>
    obtain ⟨result, u⟩ := outcome
    cases result <;> simp [bind, Except.bind, pure, Except.pure]

theorem editMethod_eq_ok {s t : MappingSet} {owner : ClassId} {id : MethodId} {α : Type}
    {edit : Method → Except MappingError (α × Method)} {a : α}
    (h : s.editMethod owner id edit = .ok (some (a, t))) :
    ∃ c m n, s.class? owner = some c ∧ c.method? id = some m ∧ edit m = .ok (a, n) ∧
      t = s.withClass owner.index { c with methods := c.methods.set id.index n } := by
  obtain ⟨c, m, n, hc, hm, hn, ht⟩ := modifyMethod_eq_ok_some_iff.1 (editMethod_eq_ok_iff.1 h)
  exact ⟨c, m, n, hc, hm, Update.run_ofResult_eq_ok_iff.1 hn, ht⟩

/-- An update of a class that keeps the rest of it keeps a set sound. -/
theorem Sound.modifyClass {s t : MappingSet} {id : ClassId} {α : Type} {edit : Update Class α}
    {a : α} (hs : s.Sound) (hedit : Class.KeepsRest edit)
    (h : (MappingSet.modifyClass id edit).run s = .ok a t) : t.Sound := by
  obtain ⟨c, d, hc, hd, rfl⟩ := modifyClass_eq_ok h
  exact hs.withClass (class?_eq_some_iff.1 hc).2 (hedit.remains hd)

theorem Reachable.sound {s : MappingSet} (h : s.Reachable) : s.Sound := by
  induction h with
  | create h => exact sound_of_create h
  | addPackage _ h ih => exact ih.addPackage h
  | addClass _ h ih => exact ih.addClass h
  | addField _ h ih =>
    exact ih.modifyClass Class.keepsRest_insertField (Update.result_eq_ok_iff.1 h)
  | addMethod _ _ h ih =>
    exact ih.modifyClass Class.keepsRest_insertMethod (Update.result_eq_ok_iff.1 h)
  | editMethod _ _ h ih =>
    exact ih.modifyClass Class.keepsRest_modifyMethod (editMethod_eq_ok_iff.1 h)

end MappingSet

end SymbolMap
