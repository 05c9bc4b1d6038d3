import SymbolMap.Proofs.Draft.Building
import SymbolMap.Proofs.Draft.ClassLookup
import SymbolMap.Proofs.MappingSet.NameQueries

/-!
# Referring to a class before and after building

A look-up in a draft walks over the classes that are not nested in another one. A query in
the set that is built goes through all of them, and those that are nested in a class stand
between it and the next one. Where no nested class has the name, the first class that has it
is the same one for both (`ClassDraft.firstFit_layout`). So a query finds what is built from
the class that a look-up would give, and nothing where a look-up would add a class
(`classRef_found`).
-/

namespace SymbolMap

open ClassDraft (preorder layout)

/-! ## The first class of a name -/

/-- If nothing fits that is nested in a class, the first fit of the whole forest is the
first one among its roots. It stands where the walk over the roots in front of it ends. -/
theorem ClassDraft.firstFit_layout {forest : List ClassDraft} {fits : ClassDraft → Bool}
    (h : ∀ c ∈ forest, ∀ i ∈ preorder c.inner, fits i = false) :
    firstFit (fun p => fits p.draft) (layout none 0 forest) =
      (firstFit fits forest).map fun e =>
        ⟨(preorder (forest.take e.position)).length, ⟨none, e.item⟩⟩ := by
  have hnone : ∀ roots : List ClassDraft, (∀ c ∈ roots, c ∈ forest ∧ fits c = false) →
      ∀ c ∈ preorder roots, fits c = false := by
    intro roots hroots c hc
    obtain ⟨root, hroot, rfl | hc⟩ := mem_preorder_iff.1 hc
    · exact (hroots _ hroot).2
    · exact h root (hroots root hroot).1 c hc
  cases hfit : firstFit fits forest with
  | none =>
    refine firstFit_eq_none_iff.2 fun p hp => ?_
    have hmem : p.draft ∈ preorder forest := by
      rw [← map_draft_layout forest none 0]
      exact List.mem_map_of_mem hp
    exact hnone forest (fun c hc => ⟨hc, firstFit_eq_none_iff.1 hfit c hc⟩) _ hmem
  | some found =>
    obtain ⟨k, c⟩ := found
    obtain ⟨-, hfits, -⟩ := firstFit_eq_some_iff.1 hfit
    obtain ⟨after, hsplit, hbefore⟩ := exists_append_of_firstFit hfit
    show _ = some (Entry.mk (preorder (forest.take k)).length (Placed.mk none c))
    generalize forest.take k = before at hsplit hbefore ⊢
    subst hsplit
    refine firstFit_eq_some_iff.2 ⟨getElem?_layout_root before after c, hfits, ?_⟩
    -- what stands in front is a root in front or nested in one
    intro j hj p hp
    have hat := getElem?_preorder_of_layout hp
    rw [preorder_append, List.getElem?_append_left hj] at hat
    refine hnone before (fun d hd => ?_) _ (List.mem_of_getElem? hat)
    exact ⟨List.mem_append_left _ hd, hbefore d hd⟩

namespace MappingDraft

/-- A draft that can be reached can trust its memory. -/
theorem Reachable.recalls_classes {d : MappingDraft} (h : d.Reachable) : d.Recalls := by
  induction h with
  | create h => exact recalls_of_create h
  | error _ _ _ ih => exact ih
  | warn _ _ _ ih => exact ih
  | newPackage _ _ _ _ _ ih => exact ih
  | newClass _ _ _ _ _ ih => exact fun r hr => (ih r hr).append _
  | classRef _ _ happly ih => exact recalls_editClass ih happly

variable {d : MappingDraft} {ns : Nat} {name : String}

/-- What a set has of a class of the draft that is not nested in another one. In front of it are
the classes before it, and what is nested in those. -/
def rootEntry (d : MappingDraft) (id : SetId) (e : Entry ClassDraft) : Entry Class :=
  let i := (preorder (d.classes.take e.position)).length
  ⟨i, e.item.element ⟨id, i⟩ none⟩

/-- The first class that a query finds in the set is that of the first class of the name in the
draft. -/
theorem head?_findClassesAt (hd : d.WellFormed) (hns : ns < d.namespaces.length)
    (hname : Text.allBlank name = false) (hdots : '.' ∉ name.toList)
    (hinner : ∀ c ∈ d.classes, ∀ i ∈ preorder c.inner, ¬ i.HasName ⟨⟨name⟩, ns⟩) (id : SetId) :
    ((d.declared id).findClassesAt ns name).head? =
      (firstFit (·.isNamedBy ⟨⟨name⟩, ns⟩) d.classes).map (d.rootEntry id) := by
  have hsound : (d.declared id).Sound := (MappingSet.Reachable.of_build (build_eq hd id)).sound
  have hwidth : ns < (d.declared id).width := by
    unfold MappingSet.width
    rw [(materialises_declared hd id).namespaces]
    exact hns
  have hfits : ∀ (i : Nat) (p : ClassDraft.Placed),
      ((IsElement.element (p.element id i)).name? ns == some name) =
        p.draft.isNamedBy ⟨⟨name⟩, ns⟩ := by
    intro i p
    rw [Bool.eq_iff_iff, beq_iff_eq, ClassDraft.isNamedBy_iff]
    exact Heading.name?_element_eq_some_iff hname
  unfold MappingSet.findClassesAt
  rw [ClassName.ofSpelling_eq_iff.2 hdots, hsound.classes.head?_namedAt hwidth,
    toList_classes_declared, firstFit_mapIdx hfits, ClassDraft.firstFit_layout fun c hc i hi =>
      ClassDraft.isNamedBy_eq_false_iff.2 (hinner c hc i hi), Option.map_map]
  rfl

end MappingDraft

/-- **A class is found by the reference that gives it in the draft.** In any draft that can be
reached, a look-up of a name that no nested class has ends at some class or would add one. In the
set that is built, a query for the name finds first what is built from that class, or finds
nothing. -/
theorem classRef_found {d : MappingDraft} (h : d.Reachable) {ns : Nat} {name : String}
    (hns : ns < d.namespaces.length) (hname : Text.allBlank name = false)
    (hdots : '.' ∉ name.toList)
    (hinner : ∀ c ∈ d.classes, ∀ i ∈ preorder c.inner, ¬ i.HasName ⟨⟨name⟩, ns⟩) (id : SetId) :
    ∃ s report space found, d.build id = .ok (s, report) ∧ s.namespaces[ns]? = some space ∧
      s.findClassesIn space name = .ok found ∧
      ((∃ c ∈ d.classes, c.HasName ⟨⟨name⟩, ns⟩) → ∃ k c, d.classes[k]? = some c ∧
        (∀ {α : Type} (line : Option Line) (column : Nat) (edit : ClassDraft → α × ClassDraft),
          ∃ after, d.editClass ⟨⟨name⟩, ns⟩ line column edit = .ok ((edit c).1, after) ∧
            after.classes = d.classes.set k (edit c).2) ∧
        found.head? = some (d.rootEntry s.id ⟨k, c⟩)) ∧
      ((∀ c ∈ d.classes, ¬ c.HasName ⟨⟨name⟩, ns⟩) → found.head? = none) := by
  have hset := MappingDraft.materialises_declared h.wellFormed id
  have hspace : (d.declared id).namespaces[ns]? =
      some ⟨d.namespaces[ns], ns, (d.declared id).id⟩ := by
    simp [MappingSet.namespaces, hset.namespaces, hns]
  have hfound : (d.declared id).findClassesIn ⟨d.namespaces[ns], ns, (d.declared id).id⟩ name =
      .ok ((d.declared id).findClassesAt ns name) := by
    unfold MappingSet.findClassesIn
    rw [MappingSet.indexOf_of_mem (List.mem_of_getElem? hspace)]
    rfl
  have hid : (d.declared id).id = id := MappingSet.id_addAll _ _
  have hhead := MappingDraft.head?_findClassesAt h.wellFormed hns hname hdots hinner id
  refine ⟨_, _, _, _, MappingDraft.build_eq h.wellFormed id, hspace, hfound, ?_, ?_⟩
  · rintro ⟨c, hc, hnamed⟩
    cases hfit : firstFit (·.isNamedBy ⟨⟨name⟩, ns⟩) d.classes with
    | none =>
      exact absurd hnamed (ClassDraft.isNamedBy_eq_false_iff.1 (firstFit_eq_none_iff.1 hfit c hc))
    | some first =>
      refine ⟨first.position, first.item, (firstFit_eq_some_iff.1 hfit).1, ?_, ?_⟩
      · intro α line column edit
        exact ⟨_, MappingDraft.editClass_of_some h.recalls_classes hns hfit, rfl⟩
      · rw [hhead, hfit, hid]
        rfl
  · intro hnone
    have hfit : firstFit (·.isNamedBy ⟨⟨name⟩, ns⟩) d.classes = none :=
      firstFit_eq_none_iff.2 fun c hc => ClassDraft.isNamedBy_eq_false_iff.2 (hnone c hc)
    rw [hhead, hfit]
    rfl

/-- Two classes have the name, behind a class with another one nested in it. The first of the two is
looked up in the draft, and it is the one that is found in the set, at position 2. A name that only
the class around the nested one has in the other namespace is not found. -/
theorem classRef_found_behind_nested :
    let named (first second : String) (c : ClassDraft) : Except MappingError ClassDraft := do
      let c ← Draft.assign c 0 first true
      Draft.assign c 1 second true
    let fillOuter (c : ClassDraft) : Unit × ClassDraft :=
      ((), ((Draft.attempt (named "a" "Outer") c).2.editNewInner none 2
        (Draft.attempt (named "b" "Nested"))).2)
    let start : MappingDraft := ⟨["official", "named"], .empty, [], [], none⟩
    let outer := (start.editNewClass none 1 fillOuter).2
    let one := (outer.editNewClass none 3 (Draft.attempt (named "c" "Foo"))).2
    let d := (one.editNewClass none 4 (Draft.attempt (named "d" "Foo"))).2
    d.Reachable ∧ ∃ s report space found missing, d.build ⟨7⟩ = .ok (s, report) ∧
      s.namespaces[1]? = some space ∧
      (∃ after, d.editClass ⟨⟨"Foo"⟩, 1⟩ none 1 (fun c => (Draft.name? c 0, c)) =
        .ok (some "c", after)) ∧
      s.findClassesIn space "Foo" = .ok found ∧
      found.head?.map (fun e => (e.position, e.item.name? 0)) = some (2, some "c") ∧
      s.findClassesIn space "a" = .ok missing ∧ missing.head? = none := by
  intro named fillOuter start outer one d
  have hnamed : ∀ first second (c e : ClassDraft), named first second c = .ok e → c.Evolves e := by
    intro first second c e h
    obtain ⟨_, hfirst, hsecond⟩ := exists_of_bind_eq_ok h
    exact .heading (.heading (.refl c) (.assign hfirst)) (.assign hsecond)
  have hattempt : ∀ first second (c : ClassDraft),
      c.Evolves (Draft.attempt (named first second) c).2 :=
    fun first second => ClassDraft.evolves_attempt (hnamed first second)
  have hd : d.Reachable :=
    .newClass none 4 _ (.newClass none 3 _ (.newClass none 1 fillOuter
      (.create (by rfl : MappingDraft.create ["official", "named"] = .ok start))
      fun c => .newInner none 2 _ (hattempt "a" "Outer" c) (hattempt "b" "Nested" _))
      (hattempt "c" "Foo")) (hattempt "d" "Foo")
  have hnames : d.classes.map (Draft.name? · 0) = [some "a", some "c", some "d"] := rfl
  have hposition : (preorder (d.classes.take 1)).length = 2 := rfl
  obtain ⟨after, hlooked⟩ : ∃ after, d.editClass ⟨⟨"Foo"⟩, 1⟩ none 1
      (fun c => (Draft.name? c 0, c)) = .ok (some "c", after) := ⟨_, rfl⟩
  obtain ⟨s, report, space, found, hbuild, hspace, hfound, hsome, -⟩ :=
    classRef_found hd (by decide : 1 < _) (by decide : Text.allBlank "Foo" = false) (by decide)
      (by decide +kernel) ⟨7⟩
  obtain ⟨t, _, space', missing, hbuild', hspace', hmissing, -, hnone⟩ :=
    classRef_found hd (by decide : 1 < _) (by decide : Text.allBlank "a" = false) (by decide)
      (by decide +kernel) ⟨7⟩
  obtain ⟨k, c, hk, hedit, hhead⟩ := hsome (by decide +kernel)
  have hempty := hnone (by decide +kernel)
  clear_value d
  obtain ⟨rfl, -⟩ := Prod.ext_iff.1 (Except.ok.inj (hbuild'.symm.trans hbuild))
  obtain rfl := Option.some.inj (hspace'.symm.trans hspace)
  -- a look-up that gives out the first name tells which class it was
  have hname : Draft.name? c 0 = some "c" := by
    obtain ⟨_, hsame, -⟩ := hedit none 1 fun c => (Draft.name? c 0, c)
    exact (Prod.ext_iff.1 (Except.ok.inj (hsame.symm.trans hlooked))).1
  have hat : [some "a", some "c", some "d"][k]? = some (some "c") := by
    rw [← hnames, List.getElem?_map, hk, ← hname]
    rfl
  obtain rfl : k = 1 := by
    rcases k with _ | _ | _ | k <;> simp_all
  refine ⟨hd, t, report, _, found, missing, hbuild, hspace, ⟨after, hlooked⟩, hfound, ?_, hmissing,
    hempty⟩
  have hkept : c.toHeading.element.name? 0 = some "c" :=
    (Heading.name?_element_eq_some_iff (by decide)).2 hname
  rw [hhead]
  show some ((preorder (d.classes.take 1)).length, c.toHeading.element.name? 0) = _
  rw [hposition, hkept]

end SymbolMap
