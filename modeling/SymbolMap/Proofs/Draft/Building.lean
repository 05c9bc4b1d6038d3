import SymbolMap.Proofs.Draft.Elements

/-!
# Building a draft

Building a draft that can be reached never fails, and gives the set of exactly
the declared elements (`build_eq_forest`). The classes of the set are a walk over
the forest of the declared classes in pre-order, and the parent of each class is
the class that it is declared in.

* `ClassDraft.buildAll_eq`: the classes of one parent with all that is in them,
  at any point of the walk;
* `MappingDraft.build_eq`: the whole set and the whole report;
* `MappingDraft.Materialises`: what it means that a set holds what a draft
  declares.
-/

namespace SymbolMap

open ClassDraft (Placed layout preorder DeclaredIn)

/-! ## Additions in a row -/

namespace Table

variable {α : Type} [IsElement α]

/-- The table with further elements at the end. -/
def pushAll (t : Table α) (items : List α) : Table α := items.foldl push t

theorem toList_pushAll (t : Table α) (items : List α) :
    (t.pushAll items).elements.toList = t.elements.toList ++ items := by
  induction items generalizing t with
  | nil => exact (List.append_nil _).symm
  | cons x rest ih =>
    show ((t.push x).pushAll rest).elements.toList = _
    rw [ih]
    show (t.elements.push x).toList ++ rest = _
    rw [Array.toList_push, List.append_assoc, List.singleton_append]

end Table

/-- The class at a position of a set, inside of the class at the position of its
parent. -/
def ClassDraft.Placed.element (set : SetId) (position : Nat) (p : Placed) : Class :=
  p.draft.element ⟨set, position⟩ (p.parent.map (ClassId.mk set))

namespace MappingSet

/-- The set with further classes at the end. -/
def addAll (s : MappingSet) (classes : List Placed) : MappingSet :=
  classes.foldl (fun s p => s.add (p.element s.id s.classes.size)) s

theorem addAll_cons (s : MappingSet) (p : Placed) (rest : List Placed) :
    s.addAll (p :: rest) = (s.add (p.element s.id s.classes.size)).addAll rest := rfl

theorem addAll_append (s : MappingSet) (xs ys : List Placed) :
    s.addAll (xs ++ ys) = (s.addAll xs).addAll ys :=
  List.foldl_append

/-- Classes that are added leave all else as it is. -/
theorem addAll_eq (s : MappingSet) (classes : List Placed) :
    s.addAll classes =
      { s with classes :=
          s.classes.pushAll (classes.mapIdx fun i p => p.element s.id (s.classes.size + i)) } := by
  induction classes generalizing s with
  | nil => rfl
  | cons p rest ih =>
    rw [addAll_cons, ih, List.mapIdx_cons]
    simp only [add, Table.size_push, Nat.add_assoc, Nat.add_comm 1]
    rfl

@[simp] theorem id_addAll (s : MappingSet) (classes : List Placed) :
    (s.addAll classes).id = s.id := by
  rw [addAll_eq]

@[simp] theorem namespaceNames_addAll (s : MappingSet) (classes : List Placed) :
    (s.addAll classes).namespaceNames = s.namespaceNames := by
  rw [addAll_eq]

theorem size_addAll (s : MappingSet) (classes : List Placed) :
    (s.addAll classes).classes.size = s.classes.size + classes.length := by
  induction classes generalizing s with
  | nil => rfl
  | cons p rest ih =>
    rw [addAll_cons, ih, List.length_cons]
    show (s.classes.push _).size + rest.length = _
    rw [Table.size_push, Nat.add_assoc, Nat.add_comm 1]

/-- A class of as many names as the set has namespaces can be added inside of any
class of the set. -/
theorem addClass_eq {s : MappingSet} {names : NameRow} {parent : Option Nat}
    (hnames : names.size = s.width) (hparent : ∀ p ∈ parent, p < s.classes.size)
    (origin : Origin) :
    s.addClass names origin (parent.map (ClassId.mk s.id)) =
      .ok (s.nextId, s.add (.bare s.nextId names origin (parent.map (ClassId.mk s.id)))) := by
  have hknown : (parent.map (ClassId.mk s.id)).filter (fun outer => (s.class? outer).isNone) =
      none := by
    cases parent with
    | none => rfl
    | some p =>
      obtain ⟨outer, houter⟩ : ∃ outer, s.classes.get? p = some outer :=
        ⟨_, Array.getElem?_eq_getElem (hparent p rfl)⟩
      have hsome : s.class? ⟨s.id, p⟩ = some outer := by
        unfold class? position?
        rw [if_pos rfl, Option.bind_some]
        exact houter
      rw [Option.map_some, Option.filter_some, hsome]
      rfl
  unfold addClass
  rw [Update.result_eq_ok_iff, run_insertClass, if_pos hnames, hknown]
  rfl

end MappingSet

/-! ## Packages and classes -/

section Building

variable {namespaces : List String}

theorem PackageDraft.build_eq {p : PackageDraft} (hp : p.toHeading.Aligned namespaces)
    {s : MappingSet} (hs : s.namespaceNames = namespaces) (r : Report) :
    p.build ⟨s, r⟩ =
      .ok ⟨{ s with packages := s.packages.push p.element }, r.followedBy p.problems⟩ := by
  have hsize : p.names.clearBlanks.size = s.width := by
    rw [hp.size_clearBlanks, ← hs]
    rfl
  have hadd : s.addPackage p.names.clearBlanks (.file p.coords) =
      .ok (s.packages.size, { s with packages := s.packages.push p.element }) := by
    unfold MappingSet.addPackage
    rw [Update.result_eq_ok_iff, MappingSet.run_insertPackage, if_pos hsize]
    rfl
  unfold PackageDraft.build
  rw [Heading.conclude_eq]
  show (s.addPackage _ _ >>= _) = _
  rw [hadd]
  rfl

theorem PackageDraft.buildAll_eq {packages : List PackageDraft}
    (hpackages : ∀ p ∈ packages, p.toHeading.Aligned namespaces)
    {s : MappingSet} (hs : s.namespaceNames = namespaces) (r : Report) :
    packages.foldlM (fun b p => p.build b) ⟨s, r⟩ =
      Except.ok (ε := MappingError)
        ⟨{ s with packages := s.packages.pushAll (packages.map PackageDraft.element) },
          r.followedBy (.inOrder (packages.map PackageDraft.problems))⟩ := by
  induction packages generalizing s r with
  | nil =>
    show Except.ok (Build.mk s r) = .ok ⟨s, r.followedBy .empty⟩
    rw [Report.followedBy_empty]
  | cons p rest ih =>
    rw [List.foldlM_cons, PackageDraft.build_eq (hpackages p List.mem_cons_self) hs]
    refine (ih (fun q hq => hpackages q (List.mem_cons_of_mem _ hq)) hs
      (s := { s with packages := s.packages.push p.element }) _).trans ?_
    rw [Report.followedBy_assoc]
    rfl

/-- A class is added before all that is inside of it. -/
theorem ClassDraft.build_eq {d : ClassDraft} (hd : d.WellFormed namespaces) {s : MappingSet}
    (hs : s.namespaceNames = namespaces) {parent : Option Nat}
    (hparent : ∀ p ∈ parent, p < s.classes.size) (r : Report) :
    ClassDraft.build (parent.map (ClassId.mk s.id)) ⟨s, r⟩ d =
      ClassDraft.buildAll (some s.nextId)
        ⟨s.add (Placed.element s.id s.classes.size ⟨parent, d⟩), r.followedBy d.ownProblems⟩
        d.inner := by
  have hsize : d.names.clearBlanks.size = s.width := by
    obtain ⟨heading, _, _, _⟩ := hd
    rw [heading.size_clearBlanks, ← hs]
    rfl
  have hmembers := ClassDraft.buildMembers_eq hd s (parent.map (ClassId.mk s.id))
    (r.followedBy (d.toHeading.problems .classes))
  obtain ⟨heading, fields, methods, inner, recent⟩ := d
  unfold ClassDraft.build
  rw [Heading.conclude_eq]
  show (s.addClass _ _ _ >>= _) = _
  rw [MappingSet.addClass_eq hsize hparent]
  -- the members are built in one go, and the inner classes after them
  show (List.foldlM _ _ fields >>= fun b => List.foldlM _ b methods >>= fun b =>
    ClassDraft.buildAll (some s.nextId) b inner) = _
  rw [← bind_assoc, hmembers]
  show ClassDraft.buildAll _ (Build.mk _ _) inner = ClassDraft.buildAll _ (Build.mk _ _) inner
  rw [Report.followedBy_assoc, Report.followedBy_assoc]
  rfl

/-- Building classes beside each other adds their layout. -/
theorem ClassDraft.buildAll_eq (forest : List ClassDraft) :
    (∀ c ∈ forest, c.WellFormed namespaces) → ∀ (parent : Option Nat) (s : MappingSet) (r : Report),
      s.namespaceNames = namespaces → (∀ p ∈ parent, p < s.classes.size) →
      ClassDraft.buildAll (parent.map (ClassId.mk s.id)) ⟨s, r⟩ forest =
        .ok ⟨s.addAll (layout parent s.classes.size forest),
          r.followedBy (.inOrder ((preorder forest).map ClassDraft.ownProblems))⟩ := by
  induction forest using ClassDraft.forest_induction with
  | nil =>
    intro _ parent s r _ _
    show Except.ok (Build.mk s r) = .ok ⟨s, r.followedBy .empty⟩
    rw [Report.followedBy_empty]
  | cons c rest ihinner ihrest =>
    intro hforest parent s r hs hparent
    have hc := hforest c List.mem_cons_self
    -- the set with `c` itself, and the one with all that is inside of `c`
    let own := s.add (Placed.element s.id s.classes.size ⟨parent, c⟩)
    have hown : own.classes.size = s.classes.size + 1 := Table.size_push _ _
    let below := layout (some s.classes.size) (s.classes.size + 1) c.inner
    have hbelow : (own.addAll below).classes.size =
        s.classes.size + 1 + (preorder c.inner).length := by
      rw [MappingSet.size_addAll, hown, ClassDraft.length_layout]
    have hinner := ihinner (by cases hc; assumption) (some s.classes.size) own
      (r.followedBy c.ownProblems) hs (by rintro p ⟨⟩; omega)
    have hrest := ihrest (fun d hd => hforest d (List.mem_cons_of_mem _ hd)) parent
      (own.addAll below)
      ((r.followedBy c.ownProblems).followedBy
        (.inOrder ((preorder c.inner).map ClassDraft.ownProblems)))
      ((MappingSet.namespaceNames_addAll _ _).trans hs)
      (fun p hp => by have := hparent p hp; omega)
    rw [MappingSet.id_addAll, hbelow] at hrest
    rw [hown] at hinner
    show (ClassDraft.build _ _ c >>= fun b => ClassDraft.buildAll _ b rest) = _
    rw [ClassDraft.build_eq hc hs hparent]
    show (ClassDraft.buildAll ((some s.classes.size).map (ClassId.mk own.id)) ⟨own, _⟩ c.inner
      >>= _) = _
    rw [hinner]
    refine hrest.trans ?_
    rw [ClassDraft.layout_cons, ClassDraft.preorder_cons, MappingSet.addAll_cons,
      MappingSet.addAll_append, List.map_cons, List.map_append, Report.inOrder_cons,
      Report.inOrder_append, Report.followedBy_assoc, Report.followedBy_assoc]

end Building

/-! ## The whole set -/

namespace MappingDraft

/-- The set that a draft declares: its packages, and its classes as they lie in the
forest. -/
def declared (d : MappingDraft) (id : SetId) : MappingSet :=
  MappingSet.addAll
    { id, namespaceNames := d.namespaces
      packages := (Table.empty d.namespaces.length).pushAll (d.packages.map PackageDraft.element)
      classes := .empty d.namespaces.length }
    (layout none 0 d.classes)

/-- Building a well-formed draft gives the declared set, and the report of the
draft with its problems behind. -/
theorem build_eq {d : MappingDraft} (hd : d.WellFormed) (id : SetId) :
    d.build id = .ok (d.declared id, d.report.followedBy d.problems) := by
  let new : MappingSet :=
    ⟨id, d.namespaces, .empty d.namespaces.length, .empty d.namespaces.length⟩
  have hcreate : MappingSet.create id d.namespaces = .ok new := by
    unfold MappingSet.create
    rw [hd.valid]
    rfl
  have hpackages := PackageDraft.buildAll_eq hd.packages (s := new) rfl d.report
  have hclasses := ClassDraft.buildAll_eq d.classes hd.classes none
    { new with packages := new.packages.pushAll (d.packages.map PackageDraft.element) }
    (d.report.followedBy (.inOrder (d.packages.map PackageDraft.problems))) rfl
    (by rintro p ⟨⟩)
  unfold build
  rw [hcreate]
  show (d.packages.foldlM (fun b p => p.build b) (Build.mk new d.report) >>= _) = _
  rw [hpackages]
  show (ClassDraft.buildAll ((none : Option Nat).map (ClassId.mk id)) (Build.mk _ _) d.classes
    >>= _) = _
  rw [hclasses, Report.followedBy_assoc]
  rfl

/-! ## What the set holds -/

theorem toList_packages_declared (d : MappingDraft) (id : SetId) :
    (d.declared id).packages.elements.toList = d.packages.map PackageDraft.element := by
  unfold declared
  rw [MappingSet.addAll_eq]
  show (Table.pushAll _ _).elements.toList = _
  rw [Table.toList_pushAll]
  rfl

theorem toList_classes_declared (d : MappingDraft) (id : SetId) :
    (d.declared id).classes.elements.toList =
      (layout none 0 d.classes).mapIdx fun i p => p.element id i := by
  unfold declared
  rw [MappingSet.addAll_eq]
  show (Table.pushAll _ _).elements.toList = _
  rw [Table.toList_pushAll]
  show [] ++ List.mapIdx (fun i p => Placed.element id (0 + i) p) _ = _
  simp only [Nat.zero_add, List.nil_append]

end MappingDraft

/-- Declares a local variable to a method of a set. -/
def LocalDraft.declareTo (x : Method) (v : LocalDraft) : Except MappingError Method := do
  let (_, x) ← x.addLocal v.names.clearBlanks (.file v.coords) v.index v.type
  return x

/-- The method of a draft results from declaring to it, in order, the local
variables that can be placed. -/
def MethodDraft.LocalsAdded (m : MethodDraft) (id : MethodId) (descriptor : MethodDescriptor) :
    Prop :=
  (m.locals.filter (·.index.isKnown)).foldlM LocalDraft.declareTo
    { m.element id descriptor with locals := [] } = .ok (m.element id descriptor)

theorem LocalDraft.foldlM_declareTo {namespaces : List String} {locals : List LocalDraft}
    (hlocals : ∀ v ∈ locals, v.toHeading.Aligned namespaces ∧ v.index.isKnown = true) {x : Method}
    (hx : x.names.size = namespaces.length) :
    locals.foldlM LocalDraft.declareTo x =
      .ok { x with locals := locals.foldl (settleInto x.id) x.locals } := by
  induction locals generalizing x with
  | nil => rfl
  | cons v rest ih =>
    obtain ⟨hv, hknown⟩ := hlocals v List.mem_cons_self
    have hone : declareTo x v = .ok { x with locals := v.settleInto x.id x.locals } := by
      unfold declareTo
      rw [LocalDraft.addLocal_eq hv hknown hx]
      rfl
    rw [List.foldlM_cons, hone]
    exact ih (fun w hw => hlocals w (List.mem_cons_of_mem _ hw))
      (x := { x with locals := v.settleInto x.id x.locals }) hx

theorem MethodDraft.localsAdded {namespaces : List String} {m : MethodDraft}
    (hm : m.WellFormed namespaces) (id : MethodId) (descriptor : MethodDescriptor) :
    m.LocalsAdded id descriptor := by
  have hlocals : ∀ v ∈ m.locals.filter (·.index.isKnown),
      v.toHeading.Aligned namespaces ∧ v.index.isKnown = true := by
    intro v hv
    rw [List.mem_filter] at hv
    exact ⟨hm.locals v hv.1, hv.2⟩
  exact LocalDraft.foldlM_declareTo hlocals (by exact hm.heading.size_clearBlanks)

theorem Heading.name?_element (h : Heading) (ns : Nat) :
    h.element.name? ns = (h.names.get? ns).filter fun name => !Text.allBlank name :=
  NameRow.get?_clearBlanks _ _

/-- A name that is not blank is one of what is built exactly if it is one of the draft. -/
theorem Heading.name?_element_eq_some_iff {h : Heading} {ns : Nat} {name : String}
    (hname : Text.allBlank name = false) :
    h.element.name? ns = some name ↔ h.names.get? ns = some name := by
  rw [name?_element, Option.filter_eq_some_iff]
  simp [hname]

/-- What is in a forest of well-formed classes is well-formed. -/
theorem ClassDraft.wellFormed_of_mem_preorder {namespaces : List String}
    {forest : List ClassDraft} :
    (∀ c ∈ forest, c.WellFormed namespaces) → ∀ c ∈ preorder forest, c.WellFormed namespaces := by
  induction forest using ClassDraft.forest_induction with
  | nil => exact fun h => h
  | cons d rest ihinner ihrest =>
    intro h c hc
    rw [ClassDraft.preorder_cons] at hc
    rcases List.mem_cons.1 hc with rfl | hc
    · exact h _ List.mem_cons_self
    · rcases List.mem_append.1 hc with hc | hc
      · cases h d List.mem_cons_self with
        | mk _ _ _ inner => exact ihinner inner c hc
      · exact ihrest (fun e he => h e (List.mem_cons_of_mem _ he)) c hc

/-- The set holds exactly what the draft declares: its packages, and the classes
of a walk over its forest, each inside of the class that it is declared in. Names
are those of the slots that are not blank, and the local variables of a method
are what adding those of its draft leads to. -/
structure MappingDraft.Materialises (d : MappingDraft) (s : MappingSet) : Prop where
  namespaces : s.namespaceNames = d.namespaces
  packages : s.packages.elements.toList = d.packages.map PackageDraft.element
  size : s.classes.size = (preorder d.classes).length
  classes : ∀ i c, (preorder d.classes)[i]? = some c →
    ∃ parent, (∀ place, DeclaredIn d.classes i place ↔ place = parent) ∧
      s.classes.get? i = some (c.element ⟨s.id, i⟩ (parent.map (ClassId.mk s.id)))
  names : ∀ (h : Heading) (ns : Nat),
    h.element.name? ns = (h.names.get? ns).filter fun name => !Text.allBlank name
  locals : ∀ c ∈ preorder d.classes, ∀ m ∈ c.methods, ∀ id descriptor,
    m.LocalsAdded id descriptor

theorem MappingDraft.materialises_declared {d : MappingDraft} (hd : d.WellFormed) (id : SetId) :
    d.Materialises (d.declared id) := by
  have hclasses := d.toList_classes_declared id
  have hid : (d.declared id).id = id := MappingSet.id_addAll _ _
  have hget : ∀ i, (d.declared id).classes.get? i =
      ((layout none 0 d.classes)[i]?).map fun p => p.element id i := by
    intro i
    show (d.declared id).classes.elements[i]? = _
    rw [← Array.getElem?_toList, hclasses, List.getElem?_mapIdx]
  refine ⟨MappingSet.namespaceNames_addAll _ _, d.toList_packages_declared id, ?_, ?_,
    Heading.name?_element, ?_⟩
  · show (d.declared id).classes.elements.size = _
    rw [← Array.length_toList, hclasses, List.length_mapIdx, ClassDraft.length_layout]
  · intro i c hc
    rw [← ClassDraft.map_draft_layout d.classes none 0, List.getElem?_map,
      Option.map_eq_some_iff] at hc
    obtain ⟨p, hp, rfl⟩ := hc
    refine ⟨p.parent, fun place => (ClassDraft.declaredIn_iff_of_layout hp).trans eq_comm, ?_⟩
    rw [hget, hp, hid]
    rfl
  · intro c hc m hm id descriptor
    cases ClassDraft.wellFormed_of_mem_preorder hd.classes c hc with
    | mk _ _ methods _ => exact MethodDraft.localsAdded (methods m hm) id descriptor

/-- **Building gives the declared forest.** From a draft that can be reached a set
is built, whatever has been declared, and it holds exactly what the draft
declares. -/
theorem build_eq_forest {d : MappingDraft} (h : d.Reachable) (id : SetId) :
    ∃ s report, d.build id = .ok (s, report) ∧ s.id = id ∧ d.Materialises s :=
  ⟨d.declared id, d.report.followedBy d.problems, MappingDraft.build_eq h.wellFormed id,
    MappingSet.id_addAll _ _, MappingDraft.materialises_declared h.wellFormed id⟩

/-- A class with an inner class in an inner class: the positions and parents
follow the walk. Of its two methods one has no descriptor and is left out, and of
the three local variables of the other one the last has no index and is left out,
while the second contends with the first and loses. -/
theorem build_eq_forest_nested :
    let addVar (index : LocalIndex) (m : MethodDraft) : MethodDraft :=
      (m.editLocal index (some (.base 2)) 1 fun v => ((), v)).2
    let fillMethod (m : MethodDraft) : Unit × MethodDraft :=
      ((), addVar ⟨⟨none, none, none⟩, none⟩ (addVar ⟨⟨some 1, none, none⟩, none⟩
        (addVar ⟨⟨some 1, none, none⟩, some 4⟩ { m with descriptor := some ⟨[], .void⟩ })))
    let fillInner (c : ClassDraft) : Unit × ClassDraft :=
      ((), (c.editNewInner none 5 fun inner => ((), inner)).2)
    let fillClass (c : ClassDraft) : Unit × ClassDraft :=
      c.editNewMethod none 3 (fun m => ((), m)) |>.2.editNewMethod none 4 fillMethod
        |>.2.editNewInner none 2 fillInner
    let start : MappingDraft := ⟨["a", "b"], .empty, [], [], none⟩
    let d := (start.editNewClass none 1 fillClass).2
    d.Reachable ∧ ∃ s report, d.build ⟨7⟩ = .ok (s, report) ∧ s.classes.size = 3 ∧
      (s.classes.get? 0).map (fun c => (c.parent, c.methods.map fun m => m.locals.length)) =
        some (none, [1]) ∧
      (s.classes.get? 1).map Class.parent = some (some ⟨⟨7⟩, 0⟩) ∧
      (s.classes.get? 2).map Class.parent = some (some ⟨⟨7⟩, 1⟩) := by
  intro addVar fillMethod fillInner fillClass start d
  have haddVar : ∀ index m, MethodDraft.Step m (addVar index m) := fun index m =>
    .local m index _ 1 _ fun v => .refl
  have hmethod : ∀ m, Relation.ReflTransGen MethodDraft.Step m (fillMethod m).2 := fun m =>
    (((Relation.ReflTransGen.single (.descriptor m _)).tail (haddVar _ _)).tail
      (haddVar _ _)).tail (haddVar _ _)
  have hinner : ∀ c : ClassDraft, c.Evolves (fillInner c).2 := fun c =>
    .newInner none 5 _ (.refl c) (.refl _)
  have hclass : ∀ c : ClassDraft, c.Evolves (fillClass c).2 := fun c =>
    .newInner none 2 fillInner (.newMethod none 4 fillMethod
      (.newMethod none 3 _ (.refl c) fun m => .refl) hmethod) (hinner _)
  have hstart : MappingDraft.create ["a", "b"] = .ok start := rfl
  have hreachable : d.Reachable := .newClass none 1 fillClass (.create hstart) hclass
  obtain ⟨s, report, hbuild, -, hset⟩ := build_eq_forest hreachable ⟨7⟩
  have hs : s = d.declared ⟨7⟩ := by
    have hdeclared := hbuild.symm.trans (MappingDraft.build_eq hreachable.wellFormed ⟨7⟩)
    exact congrArg Prod.fst (Except.ok.inj hdeclared)
  refine ⟨hreachable, s, report, hbuild, hset.size.trans rfl, ?_, ?_, ?_⟩
  · rw [hs]
    rfl
  · rw [hs]
    rfl
  · rw [hs]
    rfl

end SymbolMap
