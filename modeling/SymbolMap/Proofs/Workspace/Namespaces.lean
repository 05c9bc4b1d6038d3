import SymbolMap.Proofs.Draft.Reachable
import SymbolMap.Proofs.Grouping
import SymbolMap.Proofs.MappingSet.Growth
import SymbolMap.Proofs.Workspace.Provenance

/-!
# Namespaces of sets side by side

A set resolves a namespace in one of two ways. If the namespace has the number of the set, its index
is taken as it is. Any other namespace is looked up by its name. The two ways agree
(`namespaces_resolve_by_name`), for two reasons:

* the names of the namespaces of a set differ (`MappingSet.WellNamed`);
* sets of one number have the same namespaces (`Workspace.Numbered`). A new set gets a number that
  no other one has, a copy has the namespaces of what it is a copy of, and no addition changes
  the namespaces of a set.
-/

namespace SymbolMap

/-! ## Namespaces of one set -/

namespace MappingSet

/-- A set has two or more namespaces. Their names are not empty and differ, and each namespace has
the number of the set and the index of its position. -/
structure WellNamed (s : MappingSet) : Prop where
  several : 1 < s.namespaces.length
  named : ∀ ns ∈ s.namespaces, ns.name ≠ ""
  distinct : (s.namespaces.map Namespace.name).Nodup
  positions : ∀ (i : Nat) (ns : Namespace), s.namespaces[i]? = some ns →
    ns.index = i ∧ ns.set = s.id

/-- A set resolves a namespace as it resolves its name: to the position of its own namespace of that
name, and only if it has one. There is no index beyond the namespaces. -/
structure ResolvesByName (s : MappingSet) (ns : Namespace) : Prop where
  same : ∀ i, s.indexOf ns = .ok i ↔ s.indexOfName ns.name = .ok i
  own : ∀ i, s.indexOf ns = .ok i ↔ s.namespaces[i]? = some ⟨ns.name, i, s.id⟩
  inBounds : ∀ other names, s.indexOf ns ≠ .error (.namespaceOutOfBounds other names)

variable {s t : MappingSet}

theorem map_name_namespaces (s : MappingSet) :
    s.namespaces.map Namespace.name = s.namespaceNames := by
  apply List.ext_getElem <;> simp [namespaces]

theorem wellNamed_of_valid (h : Namespace.validNames s.namespaceNames = .ok s.namespaceNames) :
    s.WellNamed := by
  obtain ⟨hlength, hnamed, hdistinct⟩ := Namespace.validNames_self_iff.1 h
  have hnames := map_name_namespaces s
  refine ⟨?_, fun ns hns hempty => hnamed ?_, hnames ▸ hdistinct, fun i ns hns => ?_⟩
  · rwa [← hnames, List.length_map] at hlength
  · rw [← hnames, ← hempty]
    exact List.mem_map_of_mem hns
  · rw [getElem?_namespaces] at hns
    obtain ⟨name, _, rfl⟩ := Option.map_eq_some_iff.1 hns
    exact ⟨rfl, rfl⟩

/-- The namespace of a name is the only one that has it. -/
theorem WellNamed.findNamespace?_eq_some_iff (hs : s.WellNamed) {name : String} {ns : Namespace} :
    s.findNamespace? name = some ns ↔ ns ∈ s.namespaces ∧ ns.name = name :=
  find?_key_eq_some_iff hs.distinct

/-- A name resolves to the index of the namespace that is found for it. -/
theorem indexOfName_eq_ok_iff {name : String} {i : Nat} :
    s.indexOfName name = .ok i ↔ ∃ ns, s.findNamespace? name = some ns ∧ ns.index = i := by
  unfold indexOfName findNamespace
  cases s.findNamespace? name with
  | none => exact ⟨(nomatch ·), fun ⟨_, h, _⟩ => nomatch h⟩
  | some ns =>
    constructor
    · rintro ⟨⟩
      exact ⟨ns, rfl, rfl⟩
    · rintro ⟨_, ⟨⟩, rfl⟩
      rfl

/-- That is the position at which the namespace of the name stands. -/
theorem WellNamed.indexOfName_eq_ok_iff (hs : s.WellNamed) {name : String} {i : Nat} :
    s.indexOfName name = .ok i ↔ s.namespaces[i]? = some ⟨name, i, s.id⟩ := by
  simp only [MappingSet.indexOfName_eq_ok_iff, hs.findNamespace?_eq_some_iff]
  constructor
  · rintro ⟨ns, ⟨hns, rfl⟩, rfl⟩
    obtain ⟨k, hk⟩ := List.getElem?_of_mem hns
    obtain ⟨hindex, hset⟩ := hs.positions k ns hk
    rw [hindex, hk, ← hset, ← hindex]
  · intro hns
    exact ⟨_, ⟨List.mem_of_getElem? hns, rfl⟩, rfl⟩

/-- What resolves as its name does, resolves to the own namespace of that name. -/
theorem WellNamed.resolvesByName (hs : s.WellNamed) {ns : Namespace}
    (hsame : ∀ i, s.indexOf ns = .ok i ↔ s.indexOfName ns.name = .ok i)
    (hinBounds : ∀ other names, s.indexOf ns ≠ .error (.namespaceOutOfBounds other names)) :
    s.ResolvesByName ns :=
  ⟨hsame, fun i => (hsame i).trans hs.indexOfName_eq_ok_iff, hinBounds⟩

/-- A namespace of the set itself resolves to its index, and so does its name. -/
theorem WellNamed.resolvesByName_of_mem (hs : s.WellNamed) {ns : Namespace}
    (hns : ns ∈ s.namespaces) : s.ResolvesByName ns := by
  have hindex := indexOf_of_mem hns
  obtain ⟨k, hk⟩ := List.getElem?_of_mem hns
  obtain ⟨rfl, hset⟩ := hs.positions k ns hk
  have hname : s.indexOfName ns.name = .ok ns.index := by
    rw [hs.indexOfName_eq_ok_iff, hk, ← hset]
  apply hs.resolvesByName
  · intro i
    rw [hindex, hname]
  · intro other names
    rw [hindex]
    exact nofun

/-- A namespace with another number is looked up by its name. -/
theorem WellNamed.resolvesByName_of_foreign (hs : s.WellNamed) {ns : Namespace}
    (hset : ns.set ≠ s.id) : s.ResolvesByName ns := by
  apply hs.resolvesByName
  · intro i
    unfold indexOf indexOfName findNamespace
    rw [if_neg hset]
    cases s.findNamespace? ns.name with
    | none => exact ⟨(nomatch ·), (nomatch ·)⟩
    | some own => exact Iff.rfl
  · intro other names
    unfold indexOf
    rw [if_neg hset]
    cases s.findNamespace? ns.name with
    | none => exact nofun
    | some own => exact nofun

end MappingSet

/-! ## Sets side by side -/

namespace Workspace

/-- The workspaces that come about when sets are created, built, copied and added to. -/
inductive Reachable : Workspace → Prop
  | empty : Reachable .empty
  | create {w v : Workspace} {names : List String} {position : Nat} :
      Reachable w → w.create names = .ok (position, v) → Reachable v
  | build {w v : Workspace} {d : MappingDraft} {report : Report} {position : Nat} :
      Reachable w → w.build d = .ok (report, position, v) → Reachable v
  | buildDocument {w v : Workspace} {d : DocumentDraft} {source : SourceFile} {position : Nat} :
      Reachable w → w.buildDocument d = .ok (source, position, v) → Reachable v
  | duplicate {w v : Workspace} {position copy : Nat} :
      Reachable w → w.duplicate position = some (copy, v) → Reachable v
  | add {w v : Workspace} {position : Nat} {α : Type}
      {change : MappingSet → Except MappingError (α × MappingSet)} {a : α} :
      Reachable w → (∀ s a t, change s = .ok (a, t) → s.Grows t) →
      w.edit position change = some (.ok (a, v)) → Reachable v

/-- The sets have valid names of namespaces, and numbers that were given out. Those of one number
have the same namespaces. -/
structure Numbered (w : Workspace) : Prop where
  valid : ∀ p s, w.get? p = some s →
    Namespace.validNames s.namespaceNames = .ok s.namespaceNames
  used : ∀ p s, w.get? p = some s → s.id.number < w.sets.size
  agree : ∀ p q s t, w.get? p = some s → w.get? q = some t → s.id = t.id →
    s.namespaceNames = t.namespaceNames

variable {w v : Workspace} {position : Nat} {s new : MappingSet}

theorem build_eq_ok {d : MappingDraft} {report : Report}
    (h : w.build d = .ok (report, position, v)) :
    ∃ s, d.build ⟨w.sets.size⟩ = .ok (s, report) ∧ v = (w.push s).2 := by
  obtain ⟨⟨s, _⟩, hs, hv⟩ := exists_of_bind_eq_ok h
  cases hv
  exact ⟨s, hs, rfl⟩

theorem buildDocument_eq_ok {d : DocumentDraft} {source : SourceFile}
    (h : w.buildDocument d = .ok (source, position, v)) :
    ∃ s report, d.mappings.build ⟨w.sets.size⟩ = .ok (s, report) ∧ v = (w.push s).2 := by
  obtain ⟨document, hdocument, hv⟩ := exists_of_bind_eq_ok h
  obtain ⟨⟨s, report⟩, hs, hsource⟩ := exists_of_bind_eq_ok hdocument
  cases hsource
  cases hv
  exact ⟨s, report, hs, rfl⟩

theorem Numbered.empty : Workspace.empty.Numbered := by
  refine ⟨fun p s hs => ?_, fun p s hs => ?_, fun p q s t hs => ?_⟩ <;> cases hs

/-- A set can be put behind the others if it agrees with them. -/
theorem Numbered.push (hw : w.Numbered)
    (hvalid : Namespace.validNames s.namespaceNames = .ok s.namespaceNames)
    (hused : s.id.number ≤ w.sets.size)
    (hagree : ∀ q t, w.get? q = some t → t.id = s.id → t.namespaceNames = s.namespaceNames) :
    (w.push s).2.Numbered := by
  have hsize := size_push w s
  have hcases : ∀ p t, (w.push s).2.get? p = some t → t = s ∨ w.get? p = some t := by
    intro p t ht
    rw [get?_push] at ht
    split at ht
    · exact .inl (Option.some.inj ht).symm
    · exact .inr ht
  refine ⟨fun p t ht => ?_, fun p t ht => ?_, fun p q t u ht hu hid => ?_⟩
  · rcases hcases p t ht with rfl | hold
    · exact hvalid
    · exact hw.valid p t hold
  · rcases hcases p t ht with rfl | hold
    · omega
    · have hlt := hw.used p t hold
      omega
  · rcases hcases p t ht with rfl | holdt <;> rcases hcases q u hu with rfl | holdu
    · rfl
    · exact (hagree q u holdu hid.symm).symm
    · exact hagree p t holdt hid
    · exact hw.agree p q t u holdt holdu hid

/-- A new set has a number of its own, whatever is added to it. -/
theorem Numbered.push_new (hw : w.Numbered) {names : List String}
    (hnew : MappingSet.create ⟨w.sets.size⟩ names = .ok new) (hgrows : new.Grows s) :
    (w.push s).2.Numbered := by
  obtain ⟨valid, hvalid, rfl⟩ := MappingSet.create_eq_ok hnew
  have hkept := hgrows.extends
  have hid : s.id = ⟨w.sets.size⟩ := hkept.id
  have hspaces : s.namespaceNames = valid := hkept.spaces
  refine hw.push ?_ ?_ fun q t ht hsame => ?_
  · rw [hspaces]
    exact Namespace.validNames_of_validNames hvalid
  · exact Nat.le_of_eq (congrArg SetId.number hid)
  · -- no other set has this number
    have hlt := hw.used q t ht
    rw [hsame, hid] at hlt
    exact absurd hlt (Nat.lt_irrefl _)

/-- Additions to one of the sets keep the numbers and the namespaces of all. -/
theorem Numbered.edit (hw : w.Numbered) {α : Type}
    {change : MappingSet → Except MappingError (α × MappingSet)} {a : α}
    (hgrows : ∀ s a t, change s = .ok (a, t) → s.Grows t)
    (h : w.edit position change = some (.ok (a, v))) : v.Numbered := by
  obtain ⟨s, t, hs, ht, hsize, hget⟩ := edit_eq_ok h
  have hkept := (hgrows s a t ht).extends
  -- each set goes back to one of the same number and the same namespaces
  have hbefore : ∀ p u, v.get? p = some u →
      ∃ r, w.get? p = some r ∧ u.id = r.id ∧ u.namespaceNames = r.namespaceNames := by
    intro p u hu
    rw [hget] at hu
    split at hu
    · rename_i hp
      cases hu
      exact ⟨s, hp ▸ hs, hkept.id, hkept.spaces⟩
    · exact ⟨u, hu, rfl, rfl⟩
  refine ⟨fun p u hu => ?_, fun p u hu => ?_, fun p q u x hu hx hid => ?_⟩
  · obtain ⟨r, hr, _, hspaces⟩ := hbefore p u hu
    rw [hspaces]
    exact hw.valid p r hr
  · obtain ⟨r, hr, hid, _⟩ := hbefore p u hu
    rw [hid, hsize]
    exact hw.used p r hr
  · obtain ⟨r, hr, hrid, hrspaces⟩ := hbefore p u hu
    obtain ⟨y, hy, hyid, hyspaces⟩ := hbefore q x hx
    rw [hrspaces, hyspaces]
    exact hw.agree p q r y hr hy (hrid.symm.trans (hid.trans hyid))

theorem Reachable.numbered (h : w.Reachable) : w.Numbered := by
  induction h with
  | empty => exact .empty
  | create _ h ih =>
    obtain ⟨s, hs, rfl⟩ := create_eq_ok h
    exact ih.push_new hs (.refl s)
  | build _ h ih =>
    obtain ⟨s, hs, rfl⟩ := build_eq_ok h
    obtain ⟨new, hnew, hgrows⟩ := MappingDraft.exists_grows_of_build hs
    exact ih.push_new hnew hgrows
  | buildDocument _ h ih =>
    obtain ⟨s, _, hs, rfl⟩ := buildDocument_eq_ok h
    obtain ⟨new, hnew, hgrows⟩ := MappingDraft.exists_grows_of_build hs
    exact ih.push_new hnew hgrows
  | duplicate _ h ih =>
    obtain ⟨s, hs, _, rfl⟩ := duplicate_eq_some h
    exact ih.push (ih.valid _ s hs) (Nat.le_of_lt (ih.used _ s hs))
      fun q t ht hid => ih.agree q _ t s ht hs hid
  | add _ hgrows h ih => exact ih.edit hgrows h

theorem Numbered.wellNamed (hw : w.Numbered) (hs : w.get? position = some s) : s.WellNamed :=
  MappingSet.wellNamed_of_valid (hw.valid position s hs)

/-- A namespace that has the number of a set is one of the set. -/
theorem Numbered.mem_namespaces (hw : w.Numbered) {p q : Nat} {t : MappingSet}
    (hs : w.get? p = some s) (ht : w.get? q = some t) {ns : Namespace} (hns : ns ∈ t.namespaces)
    (hset : ns.set = s.id) : ns ∈ s.namespaces := by
  obtain ⟨k, hk⟩ := List.getElem?_of_mem hns
  have hid : t.id = s.id := ((hw.wellNamed ht).positions k ns hk).2.symm.trans hset
  rw [MappingSet.getElem?_namespaces, hw.agree q p t s ht hs hid, hid,
    ← MappingSet.getElem?_namespaces] at hk
  exact List.mem_of_getElem? hk

end Workspace

/-- **Namespaces resolve by name.** Take sets that were created, built, copied and added to in
whatever order. Each of them has two or more namespaces, with names that are not empty and differ,
and with the indices of their positions. It resolves a namespace of any of the sets exactly if it
resolves its name, and to the same index; that is the one of its own namespace of that name. It
never finds a namespace out of bounds. -/
theorem namespaces_resolve_by_name {w : Workspace} (h : w.Reachable) {p : Nat} {s : MappingSet}
    (hs : w.get? p = some s) :
    s.WellNamed ∧
      ∀ q t, w.get? q = some t → ∀ ns ∈ t.namespaces, s.ResolvesByName ns := by
  have hw := h.numbered
  have hnamed := hw.wellNamed hs
  refine ⟨hnamed, fun q t ht ns hns => ?_⟩
  by_cases hset : ns.set = s.id
  · exact hnamed.resolvesByName_of_mem (hw.mem_namespaces hs ht hns hset)
  · exact hnamed.resolvesByName_of_foreign hset

/-- A class is added to a copy, and the copy is shown namespaces of another set, of the set that it
is a copy of, and of one that was built. -/
theorem namespaces_resolve_by_name_copied :
    let two : MappingSet := ⟨⟨0⟩, ["a", "b"], .empty 2, .empty 2⟩
    let three : MappingSet := ⟨⟨1⟩, ["b", "c", "a"], .empty 3, .empty 3⟩
    let c := Class.bare ⟨⟨0⟩, 0⟩ ⟨[some "x", none]⟩ .unknown none
    let copy : MappingSet := ⟨⟨0⟩, ["a", "b"], .empty 2, (Table.empty 2).push c⟩
    let built : MappingSet := ⟨⟨3⟩, ["from", "b"], .empty 2, .empty 2⟩
    let w : Workspace := ⟨#[two, three, copy, built]⟩
    w.Reachable ∧ copy.WellNamed ∧ (∀ ns ∈ three.namespaces, copy.ResolvesByName ns) ∧
      three.namespaces.map copy.indexOf =
        [.ok 1, .error (.foreignNamespace "c" ["a", "b"]), .ok 0] ∧
      two.namespaces.map copy.indexOf = [.ok 0, .ok 1] ∧
      built.namespaces.map copy.indexOf =
        [.error (.foreignNamespace "from" ["a", "b"]), .ok 1] := by
  intro two three c copy built w
  have hcreate : Workspace.empty.create ["a", "b"] = .ok (0, ⟨#[two]⟩) := rfl
  have hother : Workspace.create ⟨#[two]⟩ ["b", "c", "a"] = .ok (1, ⟨#[two, three]⟩) := rfl
  have hcopy : Workspace.duplicate ⟨#[two, three]⟩ 0 = some (2, ⟨#[two, three, two]⟩) := rfl
  have hadd : Workspace.edit ⟨#[two, three, two]⟩ 2
      (·.addClass ⟨[some "x", none]⟩ .unknown none) =
        some (.ok (⟨⟨0⟩, 0⟩, ⟨#[two, three, copy]⟩)) := rfl
  have hbuild : Workspace.build ⟨#[two, three, copy]⟩ ⟨["from", "b"], .empty, [], [], none⟩ =
      .ok (.empty, 3, w) := rfl
  have hreachable : w.Reachable :=
    .build (.add (.duplicate (.create (.create .empty hcreate) hother) hcopy)
      (fun s _ _ h => .addClass (.refl s) h) hadd) hbuild
  obtain ⟨hnamed, hresolves⟩ :=
    namespaces_resolve_by_name hreachable (rfl : w.get? 2 = some copy)
  exact ⟨hreachable, hnamed, hresolves 1 three rfl, rfl, rfl, rfl⟩

end SymbolMap
