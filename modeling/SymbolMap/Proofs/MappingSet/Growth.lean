import SymbolMap.Proofs.MappingSet.Structure
import SymbolMap.Proofs.MappingSet.ThereAndBack

/-!
# What stays as a set grows

Additions put classes behind those that are there, and change nothing of a class but its members. So
a set that additions lead to has the classes of the first one at their positions, with the same
names and in the same classes (`MappingSet.Extends`), and what was told by them stays
(`growing_set_keeps_spellings`):

* the first class of a name, for what is new stands behind it;
* the classes around a class, for they stand in front of it;
* so the qualified names of classes, and how the names of classes are respelled.

A name that no class has may be the one of a class that is added later, and is respelled from then
on. If no classes are added, there is no such name either (`MappingSet.SameClasses`).
-/

namespace SymbolMap

/-- Whether a class is added. -/
def Addition.addsClass : Addition → Bool
  | .newClass .. => true
  | _ => false

/-- The class that a member or a variable of a method is added to. -/
def Addition.owner? : Addition → Option ClassId
  | .newPackage .. => none
  | .newClass .. => none
  | .newField owner .. => some owner
  | .newMethod owner .. => some owner
  | .newParam owner .. => some owner
  | .newLocal owner .. => some owner

namespace MappingSet

/-! ## Sets that have the classes of another one -/

/-- Each class of a set is in the other one, at the same position. -/
structure Extends (s t : MappingSet) : Prop where
  id : t.id = s.id
  spaces : t.namespaceNames = s.namespaceNames
  classes : ∀ k c, s.classes.get? k = some c → ∃ d, t.classes.get? k = some d ∧ c.Remains d

/-- The sets have the same classes. -/
def SameClasses (s t : MappingSet) : Prop := s.Extends t ∧ t.Extends s

variable {s t u : MappingSet}

theorem Extends.refl (s : MappingSet) : s.Extends s :=
  ⟨rfl, rfl, fun _ c hc => ⟨c, hc, rfl⟩⟩

theorem Extends.trans (h : s.Extends t) (h' : t.Extends u) : s.Extends u := by
  refine ⟨h'.id.trans h.id, h'.spaces.trans h.spaces, fun k c hc => ?_⟩
  obtain ⟨d, hd, hcd⟩ := h.classes k c hc
  obtain ⟨e, he, hde⟩ := h'.classes k d hd
  exact ⟨e, he, hcd.trans hde⟩

theorem SameClasses.refl (s : MappingSet) : s.SameClasses s := ⟨.refl s, .refl s⟩

theorem SameClasses.trans (h : s.SameClasses t) (h' : t.SameClasses u) : s.SameClasses u :=
  ⟨h.1.trans h'.1, h'.2.trans h.2⟩

/-! ## Additions -/

/-- A class that is added stands behind all others. -/
theorem extends_push (s : MappingSet) (c : Class) :
    s.Extends { s with classes := s.classes.push c } := by
  refine ⟨rfl, rfl, fun k d hd => ⟨d, ?_, rfl⟩⟩
  have hlt : k < s.classes.size := (Array.getElem?_eq_some_iff.1 hd).1
  rw [Table.get?_push, if_neg (Nat.ne_of_lt hlt), hd]

/-- The class that was put in the place of another one. -/
theorem class?_withClass {owner : ClassId} {c : Class} (hc : s.class? owner = some c) (d : Class) :
    (s.withClass owner.index d).class? owner = some d := by
  obtain ⟨hset, hat⟩ := class?_eq_some_iff.1 hc
  have hlt : owner.index < s.classes.size := (Array.getElem?_eq_some_iff.1 hat).1
  refine class?_eq_some_iff.2 ⟨hset, ?_⟩
  exact (Table.get?_replace _ _ _ _).trans (if_pos ⟨rfl, hlt⟩)

/-- A class of which only the members have changed stands for the one that it was. -/
theorem sameClasses_withClass {position : Nat} {c d : Class}
    (hc : s.classes.get? position = some c) (hcd : c.Remains d) :
    s.SameClasses (s.withClass position d) := by
  have hget : ∀ k, (s.withClass position d).classes.get? k =
      if position = k ∧ k < s.classes.size then some d else s.classes.get? k :=
    fun k => Table.get?_replace _ _ _ _
  constructor
  · refine ⟨rfl, rfl, fun k b hb => ?_⟩
    rw [hget]
    split
    · rename_i hk
      rw [← hk.1, hc] at hb
      cases hb
      exact ⟨d, rfl, hcd⟩
    · exact ⟨b, hb, rfl⟩
  · refine ⟨rfl, rfl, fun k b hb => ?_⟩
    rw [hget] at hb
    split at hb
    · rename_i hk
      cases hb
      exact ⟨c, hk.1 ▸ hc, hcd.symm⟩
    · exact ⟨b, hb, rfl⟩

/-- An update of a class that keeps the rest of it puts it back with other members. -/
theorem exists_withClass_of_modifyClass {id : ClassId} {α : Type} {edit : Update Class α} {a : α}
    (hedit : Class.KeepsRest edit) (h : (modifyClass id edit).run s = .ok a t) :
    ∃ c d, s.class? id = some c ∧ c.Remains d ∧ t = s.withClass id.index d := by
  obtain ⟨c, d, hc, hd, ht⟩ := modifyClass_eq_ok h
  exact ⟨c, d, hc, hedit.remains hd, ht⟩

/-- An addition to a class changes its members. -/
theorem exists_withClass_of_perform {addition : Addition} {owner : ClassId}
    (howner : addition.owner? = some owner) (h : addition.perform.run s = .ok () t) :
    ∃ c d, s.class? owner = some c ∧ c.Remains d ∧ t = s.withClass owner.index d := by
  cases addition with
  | newPackage => cases howner
  | newClass => cases howner
  | newField own names origin type flags =>
    cases howner
    obtain ⟨_, hadd, -⟩ := Update.run_map_eq_ok_iff.1 h
    exact exists_withClass_of_modifyClass Class.keepsRest_insertField hadd
  | newMethod own names origin descriptor flags =>
    cases howner
    exact exists_withClass_of_modifyClass Class.keepsRest_insertMethod h
  | newParam own id names origin index table type =>
    cases howner
    obtain ⟨_, hadd, -⟩ := Update.run_map_eq_ok_iff.1 h
    exact exists_withClass_of_modifyClass Class.keepsRest_modifyMethod hadd
  | newLocal own id names origin index type =>
    cases howner
    obtain ⟨_, hadd, -⟩ := Update.run_map_eq_ok_iff.1 h
    exact exists_withClass_of_modifyClass Class.keepsRest_modifyMethod hadd

theorem sameClasses_modifyClass {id : ClassId} {α : Type} {edit : Update Class α} {a : α}
    (hedit : Class.KeepsRest edit) (h : (modifyClass id edit).run s = .ok a t) :
    s.SameClasses t := by
  obtain ⟨c, d, hc, hcd, rfl⟩ := exists_withClass_of_modifyClass hedit h
  exact sameClasses_withClass (class?_eq_some_iff.1 hc).2 hcd

theorem sameClasses_addPackage {names : NameRow} {origin : Origin} {position : Nat}
    (h : s.addPackage names origin = .ok (position, t)) : s.SameClasses t := by
  obtain ⟨rfl, _⟩ := addPackage_eq_ok h
  exact ⟨⟨rfl, rfl, fun _ c hc => ⟨c, hc, rfl⟩⟩, ⟨rfl, rfl, fun _ c hc => ⟨c, hc, rfl⟩⟩⟩

/-- Packages and members leave the classes. -/
theorem sameClasses_perform {addition : Addition} (hadds : addition.addsClass = false)
    (h : addition.perform.run s = .ok () t) : s.SameClasses t := by
  cases howner : addition.owner? with
  | some owner =>
    obtain ⟨c, d, hc, hcd, rfl⟩ := exists_withClass_of_perform howner h
    exact sameClasses_withClass (class?_eq_some_iff.1 hc).2 hcd
  | none =>
    cases addition with
    | newPackage names origin =>
      obtain ⟨_, hadd, -⟩ := Update.run_map_eq_ok_iff.1 h
      exact sameClasses_addPackage (Update.result_eq_ok_iff.2 hadd)
    | newClass => cases hadds
    | newField => cases howner
    | newMethod => cases howner
    | newParam => cases howner
    | newLocal => cases howner

/-- What additions lead to has the classes of the set. -/
theorem Grows.extends (h : s.Grows t) : s.Extends t := by
  induction h with
  | refl => exact .refl s
  | addPackage _ h ih => exact ih.trans (sameClasses_addPackage h).1
  | addClass _ h ih =>
    obtain ⟨rfl, _⟩ := addClass_eq_ok h
    exact ih.trans (extends_push _ _)
  | addField _ h ih =>
    have hadd := Update.result_eq_ok_iff.1 h
    exact ih.trans (sameClasses_modifyClass Class.keepsRest_insertField hadd).1
  | addMethod _ _ h ih =>
    have hadd := Update.result_eq_ok_iff.1 h
    exact ih.trans (sameClasses_modifyClass Class.keepsRest_insertMethod hadd).1
  | editMethod _ _ h ih =>
    have hedit := editMethod_eq_ok_iff.1 h
    exact ih.trans (sameClasses_modifyClass Class.keepsRest_modifyMethod hedit).1

theorem extends_attemptAll (s : MappingSet) (additions : List Addition) :
    s.Extends (additions.foldl MappingSet.attempt s) := by
  induction additions generalizing s with
  | nil => exact .refl s
  | cons addition rest ih => exact (grows_attempt s addition).extends.trans (ih _)

theorem sameClasses_attemptAll (s : MappingSet) {additions : List Addition}
    (hadds : ∀ addition ∈ additions, addition.addsClass = false) :
    s.SameClasses (additions.foldl MappingSet.attempt s) := by
  induction additions generalizing s with
  | nil => exact .refl s
  | cons addition rest ih =>
    obtain ⟨hfirst, hrest⟩ := List.forall_mem_cons.1 hadds
    refine SameClasses.trans ?_ (ih (s.attempt addition) hrest)
    unfold MappingSet.attempt
    cases h : addition.perform.run s with
    | ok _ t =>
      rw [Update.left_of_ok h]
      exact sameClasses_perform hfirst h
    | error e t =>
      rw [addition.atomic_perform.left_of_refuses ⟨e, t, h⟩]
      exact .refl s

/-! ## Names -/

theorem indexOf_of_extends (h : s.Extends t) (ns : Namespace) : t.indexOf ns = s.indexOf ns := by
  unfold indexOf findNamespace? namespaces width
  rw [h.id, h.spaces]

/-- The names of a class and of those around it stay, so does its qualified name. -/
theorem qualifiedName?_of_extends (h : s.Extends t) (hs : s.Sound) (ns : Nat) :
    ∀ (position : Nat) (c : Class), s.classes.get? position = some c →
      t.qualifiedName? ns position = s.qualifiedName? ns position := by
  intro position
  induction position using Nat.strongRecOn with
  | ind position ih =>
    intro c hc
    obtain ⟨d, hd, hremains⟩ := h.classes position c hc
    rw [qualifiedName?_eq hc, qualifiedName?_eq hd, hremains.name?, hremains.parent]
    cases hparent : c.parent with
    | none => rfl
    | some parent =>
      obtain ⟨outer, _, hlt, houter, _⟩ := hs.exists_parent hc hparent
      have hposition : t.position? parent = s.position? parent := by
        unfold position?
        rw [h.id]
      have hinside : s.position? parent = some parent.index :=
        if_pos (hs.parents position c parent hc hparent).1
      simp only [hposition, hinside, Option.bind_some, ih parent.index hlt outer houter]

theorem qualifiedName_of_extends (h : s.Extends t) (hs : s.Sound) {k : Nat} {c d : Class}
    (hc : s.classes.get? k = some c) (hcd : c.Remains d) (ns : Namespace) :
    t.qualifiedName d ns = s.qualifiedName c ns := by
  have hk : c.id.index = k := congrArg ClassId.index (hs.ids k c hc)
  unfold qualifiedName
  rw [indexOf_of_extends h, hcd.id, hk]
  cases s.indexOf ns with
  | error e => rfl
  | ok i => exact congrArg Except.ok (qualifiedName?_of_extends h hs i k c hc)

/-- The first class of a name stays the first one. -/
theorem head?_namedAt_of_extends (h : s.Extends t) (hs : s.Sound) (ht : t.Sound) {ns : Nat}
    (hns : ns < s.width) {name : String} {found : Entry Class}
    (hfound : (s.classes.namedAt ns name).head? = some found) :
    ∃ d, (t.classes.namedAt ns name).head? = some ⟨found.position, d⟩ := by
  have hwidth : ns < t.width := by
    unfold width
    rw [h.spaces]
    exact hns
  rw [hs.classes.head?_namedAt hns, firstFit_eq_some_iff] at hfound
  obtain ⟨hat, hfits, hbefore⟩ := hfound
  have hsame : ∀ (k : Nat) (c : Class), s.classes.elements.toList[k]? = some c →
      ∃ d : Class, t.classes.elements.toList[k]? = some d ∧ d.name? ns = c.name? ns := by
    intro k c hc
    rw [Array.getElem?_toList] at hc
    obtain ⟨d, hd, hremains⟩ := h.classes k c hc
    exact ⟨d, Array.getElem?_toList.trans hd, hremains.name? ns⟩
  obtain ⟨d, hd, hname⟩ := hsame _ _ hat
  refine ⟨d, ?_⟩
  rw [ht.classes.head?_namedAt hwidth, firstFit_eq_some_iff]
  refine ⟨hd, ?_, fun j hj e he => ?_⟩
  · show (d.name? ns == some name) = true
    rw [hname]
    exact hfits
  · -- what stands in front was there before
    have hlt := Nat.lt_trans hj (List.getElem?_eq_some_iff.1 hat).1
    obtain ⟨e', he', hname'⟩ := hsame j _ (List.getElem?_eq_getElem hlt)
    cases he.symm.trans he'
    show (e.name? ns == some name) = false
    rw [hname']
    exact hbefore j hj _ (List.getElem?_eq_getElem hlt)

/-- A name that a class has is respelled as before. -/
theorem respellName_of_extends (h : s.Extends t) (hs : s.Sound) (ht : t.Sound) {source : Nat}
    (hsource : source < s.width) {k : Nat} {c : Class} {name : ClassName}
    (hc : s.classes.get? k = some c) (hname : c.name? source = some name.text) (target : Nat) :
    t.respellName source target name = s.respellName source target name := by
  have hhead := hs.classes.head?_namedAt hsource name.text
  cases hfit : firstFit (fun x => (IsElement.element x).name? source == some name.text)
      s.classes.elements.toList with
  | none =>
    have hmem : c ∈ s.classes.elements.toList := Array.mem_toList_iff.2 (Array.mem_of_getElem? hc)
    exact absurd hname (beq_eq_false_iff_ne.1 (firstFit_eq_none_iff.1 hfit c hmem))
  | some found =>
    obtain ⟨d, hd⟩ := head?_namedAt_of_extends h hs ht hsource (hhead.trans hfit)
    obtain ⟨rest, hrest⟩ := List.head?_eq_some_iff.1 (hhead.trans hfit)
    obtain ⟨others, hothers⟩ := List.head?_eq_some_iff.1 hd
    have hat := Array.getElem?_toList.symm.trans (firstFit_eq_some_iff.1 hfit).1
    unfold respellName
    rw [hrest, hothers]
    simp only [qualifiedName?_of_extends h hs target _ _ hat]

/-- Where the classes are the same, all names are respelled as before. -/
theorem respellName_of_sameClasses (h : s.SameClasses t) (hs : s.Sound) (ht : t.Sound)
    {source : Nat} (hsource : source < s.width) (target : Nat) (name : ClassName) :
    t.respellName source target name = s.respellName source target name := by
  by_cases hnamed : ∃ k c, s.classes.get? k = some c ∧ c.name? source = some name.text
  · obtain ⟨k, c, hc, hname⟩ := hnamed
    exact respellName_of_extends h.1 hs ht hsource hc hname target
  · -- no class has the name, neither there nor here
    have hunknown : ∀ c ∈ s.classes.elements.toList, c.name? source ≠ some name.text := by
      intro c hc hname
      obtain ⟨k, hk⟩ := List.getElem?_of_mem hc
      exact hnamed ⟨k, c, Array.getElem?_toList.symm.trans hk, hname⟩
    have hunknown' : ∀ d ∈ t.classes.elements.toList, d.name? source ≠ some name.text := by
      intro d hd hname
      obtain ⟨k, hk⟩ := List.getElem?_of_mem hd
      obtain ⟨c, hc, hremains⟩ := h.2.classes k d (Array.getElem?_toList.symm.trans hk)
      exact hnamed ⟨k, c, hc, (hremains.name? source).trans hname⟩
    have hwidth : source < t.width := by
      unfold width
      rw [h.1.spaces]
      exact hsource
    rw [hs.respellName_of_unknown hsource hunknown, ht.respellName_of_unknown hwidth hunknown']

/-! ## Respelling -/

section Respell

open MentionsClasses

variable {τ : Type} [MentionsClasses τ] {source target : Namespace} {v : τ}

/-- A value is respelled as before if the names in it are. -/
theorem respell_of_extends (h : s.Extends t)
    (hnames : ∀ a b, s.indexOf source = .ok a →
      mapClasses (t.respellName a b) v = mapClasses (s.respellName a b) v) :
    t.respell source target v = s.respell source target v := by
  unfold respell
  rw [indexOf_of_extends h, indexOf_of_extends h]
  split
  · cases hsource : s.indexOf source with
    | error e => rfl
    | ok a =>
      cases s.indexOf target with
      | error e => rfl
      | ok b =>
        show Except.ok (t.respellAt a b v) = Except.ok (s.respellAt a b v)
        unfold respellAt
        rw [hnames a b hsource]
  · rfl

end Respell

end MappingSet

/-- **What a set tells by its classes stays as the set grows.** Whatever is added to a set that can
be reached, taken or refused: a class type of which some class has the name is respelled as before,
also where it is passed through; the id of a class stands for a class of the same names, place and
parent, whose qualified names are the same. If no classes are added, everything is respelled as
before. -/
theorem growing_set_keeps_spellings {s : MappingSet} (h : s.Reachable)
    (additions : List Addition) :
    let t := additions.foldl MappingSet.attempt s
    (∀ (a b : Namespace) (ns : Nat) (name : ClassName), s.indexOf a = .ok ns →
      (∃ k c, s.classes.get? k = some c ∧ c.name? ns = some name.text) →
      t.respell a b (FieldType.object name) = s.respell a b (FieldType.object name)) ∧
    (∀ id c, s.class? id = some c → ∃ d, t.class? id = some d ∧ d.names = c.names ∧
      d.origin = c.origin ∧ d.parent = c.parent ∧
      ∀ ns, t.qualifiedName d ns = s.qualifiedName c ns) ∧
    ((∀ addition ∈ additions, addition.addsClass = false) →
      ∀ {τ : Type} [MentionsClasses τ] (a b : Namespace) (v : τ),
        t.respell a b v = s.respell a b v) := by
  intro t
  have hs := h.sound
  have ht : t.Sound := (h.attemptAll additions).sound
  have hextends : s.Extends t := MappingSet.extends_attemptAll s additions
  refine ⟨fun a b ns name ha hnamed => ?_, fun id c hc => ?_, fun hadds τ _ a b v => ?_⟩
  · obtain ⟨k, c, hc, hname⟩ := hnamed
    refine MappingSet.respell_of_extends hextends fun i j hi => ?_
    cases ha.symm.trans hi
    exact congrArg FieldType.object
      (MappingSet.respellName_of_extends hextends hs ht (MappingSet.indexOf_lt ha) hc hname j)
  · obtain ⟨hset, hat⟩ := MappingSet.class?_eq_some_iff.1 hc
    obtain ⟨d, hd, hremains⟩ := hextends.classes _ c hat
    exact ⟨d, MappingSet.class?_eq_some_iff.2 ⟨hset.trans hextends.id.symm, hd⟩, hremains.names,
      hremains.origin, hremains.parent,
      MappingSet.qualifiedName_of_extends hextends hs hat hremains⟩
  · have hsame := MappingSet.sameClasses_attemptAll s hadds
    refine MappingSet.respell_of_extends hextends fun i j hi => ?_
    rw [funext (MappingSet.respellName_of_sameClasses hsame hs ht (MappingSet.indexOf_lt hi) j)]

/-- A class of the same name as a nested one is added, and one of which the name was not known
before, besides members and a class that is refused. The nested class is still the one that is
meant, and a class without a name in the other namespace is still passed through. -/
theorem growing_set_keeps_spellings_nested :
    let outer := Class.bare ⟨⟨3⟩, 0⟩ ⟨[some "x/Outer", some "y.Out"]⟩ .unknown none
    let inner := Class.bare ⟨⟨3⟩, 1⟩ ⟨[some "x/In", some "In"]⟩ .unknown (some ⟨⟨3⟩, 0⟩)
    let lone := Class.bare ⟨⟨3⟩, 2⟩ ⟨[some "x/Lone", none]⟩ .unknown none
    let s : MappingSet :=
      ⟨⟨3⟩, ["a", "b"], .empty 2, (((Table.empty 2).push outer).push inner).push lone⟩
    let row : NameRow := ⟨[some "run", none]⟩
    let members : List Addition := [.newPackage ⟨[some "x", some "y"]⟩ .unknown,
      .newField ⟨⟨3⟩, 1⟩ row .unknown none .unknown,
      .newMethod ⟨⟨3⟩, 1⟩ row .unknown ⟨[], .void⟩ .unknown,
      .newParam ⟨⟨3⟩, 1⟩ ⟨⟨⟨3⟩, 1⟩, 0⟩ row .unknown 0 none none]
    let classes : List Addition := [.newClass ⟨[some "x/In", some "Later"]⟩ .unknown none,
      .newClass ⟨[some "x/New", some "New"]⟩ .unknown (some ⟨⟨3⟩, 1⟩),
      .newClass ⟨[some "x/Refused"]⟩ .unknown none]
    let t := (members ++ classes).foldl MappingSet.attempt s
    let a : Namespace := ⟨"a", 0, ⟨3⟩⟩
    let b : Namespace := ⟨"b", 1, ⟨3⟩⟩
    s.Reachable ∧ t.classes.size = 5 ∧
      (t.classes.namedAt 0 "x/In").map Entry.position = [1, 3] ∧
      t.respell a b (FieldType.object ⟨"x/In"⟩) = s.respell a b (FieldType.object ⟨"x/In"⟩) ∧
      t.respell a b (FieldType.object ⟨"x/Lone"⟩) = .ok (.object ⟨"x/Lone"⟩) ∧
      (∃ d, t.class? ⟨⟨3⟩, 1⟩ = some d ∧ d.fields.length = 1 ∧ d.parent = some ⟨⟨3⟩, 0⟩ ∧
        t.qualifiedName d b = s.qualifiedName inner b) ∧
      (members.foldl MappingSet.attempt s).respell a b (FieldType.object ⟨"x/New"⟩) =
        s.respell a b (FieldType.object ⟨"x/New"⟩) := by
  intro outer inner lone s row members classes t a b
  have hs : s.Reachable :=
    .addClass (.addClass (.addClass (.create (by rfl : MappingSet.create ⟨3⟩ ["a", "b"] = .ok _))
      (by rfl : MappingSet.addClass _ outer.names .unknown none = .ok (⟨⟨3⟩, 0⟩, _)))
      (by rfl : MappingSet.addClass _ inner.names .unknown (some ⟨⟨3⟩, 0⟩) = .ok (⟨⟨3⟩, 1⟩, _)))
      (by rfl : MappingSet.addClass _ lone.names .unknown none = .ok (⟨⟨3⟩, 2⟩, s))
  obtain ⟨hnames, hids, -⟩ := growing_set_keeps_spellings hs (members ++ classes)
  obtain ⟨-, -, hall⟩ := growing_set_keeps_spellings hs members
  obtain ⟨d, hd, -, -, hparent, hqualified⟩ := hids ⟨⟨3⟩, 1⟩ inner rfl
  have hfield : (t.class? ⟨⟨3⟩, 1⟩).map (fun c => c.fields.length) = some 1 := by decide +kernel
  rw [hd] at hfield
  have hlone : s.respell a b (FieldType.object ⟨"x/Lone"⟩) = .ok (.object ⟨"x/Lone"⟩) := by
    have hdistinct : s.DistinctNames 0 := by decide +kernel
    have hfirst : s.FirstNamed 0 "x/Lone" lone := hdistinct.firstNamed (by decide +kernel) rfl
    show Except.ok (FieldType.object (s.respellName 0 1 ⟨"x/Lone"⟩)) = _
    rw [hs.sound.respellName_of_unnamed (by decide) hfirst rfl]
  refine ⟨hs, by decide +kernel, by decide +kernel, hnames a b 0 _ rfl ⟨1, inner, rfl, rfl⟩,
    (hnames a b 0 _ rfl ⟨2, lone, rfl, rfl⟩).trans hlone,
    ⟨d, hd, Option.some.inj hfield, hparent, hqualified b⟩, hall (by decide) a b _⟩

end SymbolMap
