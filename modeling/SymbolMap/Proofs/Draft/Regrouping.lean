import Mathlib.Data.List.Induction
import SymbolMap.Draft.Declaration
import SymbolMap.Proofs.Draft.Building
import SymbolMap.Proofs.Draft.ClassLookup
import SymbolMap.Proofs.Draft.MethodCalls
import SymbolMap.Proofs.Grouping

/-!
# Declarations about different classes

A declaration changes the class that it is about, and makes it if no declaration before it was
about that class. So what declarations leave is told class by class
(`MappingDraft.Declares`): the classes in the order in which they are first declared, each of them
as the declarations about it leave it. One declaration more keeps this
(`MappingDraft.Declares.apply`).

Declarations that are regrouped by class are about the same classes in the same order, and about
each class they are the same, so they leave the same classes (`apply_regrouped`). Only which class
was looked up last is not the same.
-/

namespace SymbolMap

variable {namespaces : List String}

/-! ## Inside of one class -/

/-- A class that a look-up adds is well-formed. -/
theorem ClassDraft.wellFormed_ofRef (ref : Spelled ClassName) (h : ref.ns < namespaces.length)
    (coords : Coords) : (ofRef namespaces coords ref).WellFormed namespaces := by
  have hblank := wellFormed_blank (Heading.aligned_blank namespaces coords) coords
  exact (Evolves.heading (.refl _) (.assign (assign_blank h coords))).wellFormed hblank

/-- A method that a look-up adds is well-formed. -/
theorem MethodDraft.wellFormed_ofRef (ref : Spelled MethodRef) (h : ref.ns < namespaces.length)
    (coords : Coords) : (ofRef namespaces coords ref).WellFormed namespaces := by
  have hblank := wellFormed_blank (Heading.aligned_blank namespaces coords) coords
  have hnamed := (Step.heading (.assign (assign_blank h coords))).wellFormed hblank
  exact (Step.descriptor _ ref.value.signature).wellFormed hnamed

/-- The class can be referred to by its name in the first namespace, and look-ups in it can
be relied on. -/
structure ClassDraft.Known (namespaces : List String) (name : ClassName) (k : ClassDraft) :
    Prop where
  wellFormed : k.WellFormed namespaces
  recalls : k.Recalls
  named : k.HasName ⟨name, 0⟩

theorem ClassDraft.known_ofRef (name : ClassName) (hns : 1 < namespaces.length) (coords : Coords) :
    (ofRef namespaces coords ⟨name, 0⟩).Known namespaces name where
  wellFormed := wellFormed_ofRef ⟨name, 0⟩ (Nat.lt_trans Nat.zero_lt_one hns) coords
  recalls := recalls_blank namespaces coords
  named := by
    apply Draft.name?_put_self
    show 0 < (Heading.blank namespaces coords).names.size
    rw [(Heading.aligned_blank namespaces coords).size]
    exact Nat.lt_trans Nat.zero_lt_one hns

namespace Declaration

/-- The class that the declaration is or belongs to. -/
def owner (c : Declaration) : ClassName := c.subject.owner

/-- What the declaration makes of the class that it is about. -/
def change (c : Declaration) (k : ClassDraft) : ClassDraft := (Draft.attempt c.applyTo k).2

/-- Where there are two namespaces, a name in the second one is not refused. -/
theorem exists_nameDraft {δ : Type} [Draft δ] {d : δ} (hd : (Draft.heading d).Aligned namespaces)
    (hns : 1 < namespaces.length) (c : Declaration) : ∃ e, c.nameDraft d = .ok e :=
  Draft.exists_assign (by rw [hd.size]; exact hns) _ _

theorem exists_attempt_nameDraft {m : MethodDraft} (hm : m.WellFormed namespaces)
    (hns : 1 < namespaces.length) (c : Declaration) :
    ∃ n, Draft.attempt c.nameDraft m = (.ok (), n) ∧ n.WellFormed namespaces := by
  obtain ⟨n, hn⟩ := c.exists_nameDraft (d := m) hm.heading hns
  exact ⟨n, Draft.attempt_of_ok hn, (MethodDraft.Step.heading (.assign hn)).wellFormed hm⟩

/-- A declaration about a method is not refused by a method of the class, nor by the one that is
made for it. -/
theorem exists_editMethod {k : ClassDraft} {name : ClassName} (hk : k.Known namespaces name)
    (hns : 1 < namespaces.length) (c : Declaration) (ref : MethodRef) :
    ∃ e, k.editMethod ⟨ref, 0⟩ c.line c.column (Draft.attempt c.nameDraft) = .ok (.ok (), e) := by
  obtain ⟨heading, _, methods, _⟩ := hk.wellFormed
  have hfirst : 0 < k.namespaces.length := by
    rw [heading.spaces]
    exact Nat.lt_trans Nat.zero_lt_one hns
  cases hfit : firstFit (·.isNamedBy ⟨ref, 0⟩) k.methods with
  | some found =>
    have hfound := methods _ (List.mem_of_getElem? (firstFit_eq_some_iff.1 hfit).1)
    obtain ⟨n, hn, _⟩ := exists_attempt_nameDraft hfound hns c
    rw [ClassDraft.editMethod_of_some hk.recalls hfirst hfit, hn]
    exact ⟨_, rfl⟩
  | none =>
    have hnew := MethodDraft.wellFormed_ofRef ⟨ref, 0⟩ hfirst (.onLine c.line c.column)
    rw [heading.spaces] at hnew
    obtain ⟨n, hn, _⟩ := exists_attempt_nameDraft hnew hns c
    rw [ClassDraft.editMethod_of_none hk.recalls hfirst hfit, heading.spaces, hn]
    exact ⟨_, rfl⟩

/-- A class that is known takes every declaration, and stays known by its name. -/
theorem exists_applyTo {k : ClassDraft} {name : ClassName} (hk : k.Known namespaces name)
    (hns : 1 < namespaces.length) (c : Declaration) :
    ∃ e, c.applyTo k = .ok e ∧ e.Known namespaces name := by
  unfold applyTo
  cases c.subject with
  | ofClass _ =>
    obtain ⟨heading, _, _, _⟩ := hk.wellFormed
    obtain ⟨e, he⟩ := c.exists_nameDraft (d := k) heading hns
    have hwell := (ClassDraft.Evolves.heading (.refl k) (.assign he)).wellFormed hk.wellFormed
    refine ⟨e, he, ?_⟩
    rcases Draft.assign_cases he with rfl | rfl
    · exact hk
    · exact ⟨hwell, hk.recalls, (Draft.name?_put_of_ne Nat.one_ne_zero c.name).trans hk.named⟩
  | ofMethod _ method descriptor =>
    obtain ⟨e, he⟩ := c.exists_editMethod hk hns ⟨method, some descriptor⟩
    have hwell := ClassDraft.wellFormed_editMethod (fun m hm => by
      obtain ⟨n, hn, hwell⟩ := exists_attempt_nameDraft hm hns c
      rw [hn]
      exact hwell) he hk.wellFormed
    refine ⟨e, by simp only [he]; rfl, hwell, (ClassDraft.recalls_editMethod hk.recalls he).1, ?_⟩
    rw [ClassDraft.editMethod_eq_with hk.recalls he]
    exact hk.named

theorem attempt_applyTo {k : ClassDraft} {name : ClassName} (hk : k.Known namespaces name)
    (hns : 1 < namespaces.length) (c : Declaration) :
    Draft.attempt c.applyTo k = (.ok (), c.change k) ∧ (c.change k).Known namespaces name := by
  obtain ⟨e, he, hknown⟩ := exists_applyTo hk hns c
  unfold change
  rw [Draft.attempt_of_ok he]
  exact ⟨rfl, hknown⟩

end Declaration

/-! ## One class after the other -/

/-- The position of the first declaration. -/
def Declaration.placeOf (cs : List Declaration) : Coords :=
  cs.head?.elim .start fun c => .onLine c.line c.column

/-- The class of a name as the declarations about it leave it. The first one makes it. -/
def ClassDraft.declaredBy (namespaces : List String) (name : ClassName) (cs : List Declaration) :
    ClassDraft :=
  cs.foldl (fun k c => c.change k) (ofRef namespaces (Declaration.placeOf cs) ⟨name, 0⟩)

theorem ClassDraft.known_declaredBy (name : ClassName) (hns : 1 < namespaces.length)
    (cs : List Declaration) : (declaredBy namespaces name cs).Known namespaces name :=
  List.foldlRecOn cs _ (known_ofRef name hns _) fun _ hk c _ => (c.attempt_applyTo hk hns).2

/-- Only the first declaration decides the position. -/
theorem ClassDraft.declaredBy_concat {name : ClassName} {cs : List Declaration} (h : cs ≠ [])
    (c : Declaration) :
    declaredBy namespaces name (cs ++ [c]) = c.change (declaredBy namespaces name cs) := by
  obtain ⟨first, rest, rfl⟩ := List.exists_cons_of_ne_nil h
  unfold declaredBy
  rw [List.foldl_append]
  rfl

/-- By its name each class is told apart from those of other names. -/
theorem ClassDraft.Known.isNamedBy_iff {name other : ClassName} {k : ClassDraft}
    (hk : k.Known namespaces other) : k.isNamedBy ⟨name, 0⟩ = true ↔ other = name := by
  rw [ClassDraft.isNamedBy_iff, HasName, show Draft.name? k 0 = _ from hk.named, Option.some_inj]
  exact ⟨fun h => congrArg Symbol.mk h, congrArg Symbol.text⟩

namespace MappingDraft

/-- The classes that declarations are about, each as the declarations about it leave it. -/
def declaring (namespaces : List String) (cs : List Declaration) : List ClassDraft :=
  (keysOf Declaration.owner cs).map fun name =>
    .declaredBy namespaces name (itemsOf Declaration.owner cs name)

section Declaring

variable {cs : List Declaration} {i : Nat} {name : ClassName}

/-- A class that was declared is the first one of its name. -/
theorem firstFit_declaring (hns : 1 < namespaces.length)
    (hi : (keysOf Declaration.owner cs)[i]? = some name) :
    firstFit (·.isNamedBy ⟨name, 0⟩) (declaring namespaces cs) =
      some ⟨i, .declaredBy namespaces name (itemsOf Declaration.owner cs name)⟩ := by
  refine firstFit_eq_some_iff.2 ⟨?_, ?_, fun j hj k hk => ?_⟩
  · rw [declaring, List.getElem?_map, hi]
    rfl
  · exact (ClassDraft.known_declaredBy _ hns _).isNamedBy_iff.2 rfl
  · rw [declaring, List.getElem?_map, Option.map_eq_some_iff] at hk
    obtain ⟨other, hother, rfl⟩ := hk
    rw [Bool.eq_false_iff, ne_eq, (ClassDraft.known_declaredBy _ hns _).isNamedBy_iff]
    rintro rfl
    have hlt := (List.getElem?_eq_some_iff.1 hother).1
    exact Nat.ne_of_lt hj ((List.getElem?_inj hlt (nodup_keysOf _ _)).1 (hother.trans hi.symm))

theorem firstFit_declaring_eq_none (hns : 1 < namespaces.length)
    (hname : name ∉ keysOf Declaration.owner cs) :
    firstFit (·.isNamedBy ⟨name, 0⟩) (declaring namespaces cs) = none := by
  refine firstFit_eq_none_iff.2 fun k hk => ?_
  obtain ⟨other, hother, rfl⟩ := List.mem_map.1 hk
  rw [Bool.eq_false_iff, ne_eq, (ClassDraft.known_declaredBy _ hns _).isNamedBy_iff]
  exact ne_of_mem_of_not_mem hother hname

/-- One declaration more changes the class that it is about, if there is one. -/
theorem declaring_concat_of_mem {c : Declaration}
    (hi : (keysOf Declaration.owner cs)[i]? = some c.owner) :
    declaring namespaces (cs ++ [c]) = (declaring namespaces cs).set i
      (c.change (.declaredBy namespaces c.owner (itemsOf Declaration.owner cs c.owner))) := by
  have hmem := List.mem_of_getElem? hi
  have hlt := (List.getElem?_eq_some_iff.1 hi).1
  unfold declaring
  rw [keysOf_concat, if_pos hmem, List.append_nil]
  apply List.ext_getElem?
  intro j
  by_cases hj : i = j
  · subst hj
    rw [List.getElem?_set_self (by rwa [List.length_map]), List.getElem?_map, hi, Option.map_some,
      itemsOf_concat, if_pos rfl]
    rw [ClassDraft.declaredBy_concat fun hnil => itemsOf_eq_nil_iff.1 hnil hmem]
  · rw [List.getElem?_set_ne hj, List.getElem?_map, List.getElem?_map]
    cases hother : (keysOf Declaration.owner cs)[j]? with
    | none => rfl
    | some other =>
      have hne : c.owner ≠ other := by
        rintro rfl
        exact hj ((List.getElem?_inj hlt (nodup_keysOf _ _)).1 (hi.trans hother.symm))
      rw [Option.map_some, Option.map_some, itemsOf_concat, if_neg hne, List.append_nil]

/-- One declaration more makes the class that it is about, if there is none. -/
theorem declaring_concat_of_not_mem {c : Declaration}
    (hc : c.owner ∉ keysOf Declaration.owner cs) :
    declaring namespaces (cs ++ [c]) = declaring namespaces cs ++
      [c.change (.ofRef namespaces (.onLine c.line c.column) ⟨c.owner, 0⟩)] := by
  unfold declaring
  rw [keysOf_concat, if_neg hc, List.map_append, List.map_singleton, itemsOf_concat, if_pos rfl,
    itemsOf_eq_nil_iff.2 hc]
  refine congrArg (· ++ _) (List.map_congr_left fun other hother => ?_)
  rw [itemsOf_concat, if_neg (ne_of_mem_of_not_mem hother hc).symm, List.append_nil]

end Declaring

/-- The declarations have led from a draft without classes to this one. -/
structure Declares (start : MappingDraft) (cs : List Declaration) (d : MappingDraft) : Prop where
  recalls : d.Recalls
  eq_with : d = { start with classes := declaring start.namespaces cs, recent := d.recent }

variable {start d : MappingDraft} {cs : List Declaration}

/-- One declaration more is carried out in the class that it is about, in whatever order it comes
with declarations about other classes. -/
theorem Declares.apply (h : Declares start cs d) (hns : 1 < start.namespaces.length)
    (c : Declaration) : ∃ e, d.apply c = .ok e ∧ Declares start (cs ++ [c]) e := by
  have hspaces : d.namespaces = start.namespaces := by rw [h.eq_with]
  have hclasses : d.classes = declaring start.namespaces cs := by rw [h.eq_with]
  have hfirst : 0 < d.namespaces.length := by
    rw [hspaces]
    exact Nat.lt_trans Nat.zero_lt_one hns
  -- what is left to show is how the look-up ends
  suffices hends : ∃ recent, d.editClass ⟨c.owner, 0⟩ c.line c.column (Draft.attempt c.applyTo) =
      .ok (.ok (), { start with classes := declaring start.namespaces (cs ++ [c]), recent }) by
    obtain ⟨recent, hedit⟩ := hends
    refine ⟨_, ?_, recalls_editClass h.recalls hedit, rfl⟩
    show (d.editClass ⟨c.owner, 0⟩ c.line c.column (Draft.attempt c.applyTo) >>= _) = _
    rw [hedit]
    rfl
  by_cases hmem : c.owner ∈ keysOf Declaration.owner cs
  · obtain ⟨i, hi⟩ := List.mem_iff_getElem?.1 hmem
    have hfit := firstFit_declaring hns hi
    rw [← hclasses] at hfit
    have hknown := ClassDraft.known_declaredBy c.owner hns
      (itemsOf Declaration.owner cs c.owner)
    refine ⟨some ⟨⟨c.owner, 0⟩, i⟩, ?_⟩
    rw [editClass_of_some h.recalls hfirst hfit, (c.attempt_applyTo hknown hns).1,
      declaring_concat_of_mem hi, h.eq_with]
  · have hfit := firstFit_declaring_eq_none hns hmem
    rw [← hclasses] at hfit
    have hknown := ClassDraft.known_ofRef c.owner hns (.onLine c.line c.column)
    refine ⟨some ⟨⟨c.owner, 0⟩, d.classes.length⟩, ?_⟩
    rw [editClass_of_none h.recalls hfirst hfit, hspaces, (c.attempt_applyTo hknown hns).1,
      declaring_concat_of_not_mem hmem, h.eq_with]

theorem declares_nil {names : List String} (h : create names = .ok start) :
    Declares start [] start := by
  obtain ⟨_, _, rfl⟩ := create_eq_ok h
  exact ⟨recalls_of_create h, rfl⟩

/-- No declaration is refused. -/
theorem exists_declares {names : List String} (h : create names = .ok start)
    (cs : List Declaration) : ∃ d, cs.foldlM MappingDraft.apply start = .ok d ∧
      Declares start cs d := by
  have hns : 1 < start.namespaces.length := by
    obtain ⟨_, hvalid, rfl⟩ := create_eq_ok h
    exact Namespace.one_lt_length_of_validNames hvalid
  induction cs using List.reverseRecOn with
  | nil => exact ⟨start, rfl, declares_nil h⟩
  | append_singleton cs c ih =>
    obtain ⟨d, hrun, hd⟩ := ih
    obtain ⟨e, hlast, he⟩ := hd.apply hns c
    refine ⟨e, ?_, he⟩
    rw [List.foldlM_append, hrun]
    show List.foldlM MappingDraft.apply d [c] = _
    rw [List.foldlM_cons, hlast]
    rfl

/-- Declarations that are regrouped by class leave the same classes. -/
theorem declaring_regrouped (namespaces : List String) (cs : List Declaration) :
    declaring namespaces (regrouped Declaration.owner cs) = declaring namespaces cs := by
  unfold declaring
  rw [keysOf_regrouped]
  exact List.map_congr_left fun name _ => by rw [itemsOf_regrouped]

theorem Declares.wellFormed {names : List String} (h : create names = .ok start)
    (hd : Declares start cs d) : d.WellFormed := by
  obtain ⟨namespaces, hvalid, rfl⟩ := create_eq_ok h
  have hns := Namespace.one_lt_length_of_validNames hvalid
  rw [hd.eq_with]
  refine ⟨Namespace.validNames_of_validNames hvalid, by simp, fun k hk => ?_⟩
  obtain ⟨name, _, rfl⟩ := List.mem_map.1 hk
  exact (ClassDraft.known_declaredBy _ hns _).wellFormed

end MappingDraft

/-- **The order of declarations about different classes does not matter.** Declarations on a new
draft, and the same declarations regrouped by class, lead to drafts that differ in nothing but in
what they remember, so they give the same sets and the same reports. -/
theorem apply_regrouped {names : List String} {start : MappingDraft}
    (h : MappingDraft.create names = .ok start) (cs : List Declaration) :
    ∃ d e, cs.foldlM MappingDraft.apply start = .ok d ∧
      (regrouped Declaration.owner cs).foldlM MappingDraft.apply start = .ok e ∧
      e.forget = d.forget ∧
      ∀ id, ∃ s report, d.build id = .ok (s, report) ∧ e.build id = .ok (s, report) := by
  obtain ⟨d, hrun, hd⟩ := MappingDraft.exists_declares h cs
  obtain ⟨e, hregrouped, he⟩ := MappingDraft.exists_declares h (regrouped Declaration.owner cs)
  have hsame : e = { d with recent := e.recent } := by
    rw [he.eq_with, hd.eq_with, MappingDraft.declaring_regrouped]
  refine ⟨d, e, hrun, hregrouped, by rw [hsame]; rfl, fun id => ?_⟩
  have hbuild := MappingDraft.build_eq (hd.wellFormed h) id
  refine ⟨_, _, hbuild, ?_⟩
  rw [hsame]
  exact hbuild

/-- Declarations about two classes and a method of one of them, in turns: the class `b` is made for
its method, and a name that may not overwrite is not given to `a`. What was looked up last is `a`
in the one run and `b` in the other one. -/
theorem apply_regrouped_turns :
    let run : Subject := .ofMethod ⟨"b"⟩ ⟨"run"⟩ ⟨[.object ⟨"a"⟩], .void⟩
    let cs : List Declaration := [
      ⟨some (.base 2), 1, .ofClass ⟨"a"⟩, "First", true⟩,
      ⟨some (.high 3), 5, run, "start", false⟩,
      ⟨some (.base 4), 1, .ofClass ⟨"a"⟩, "Other", false⟩,
      ⟨none, 7, .ofClass ⟨"b"⟩, "Second", true⟩,
      ⟨some (.low 6), 1, run, "stop", true⟩,
      ⟨some (.base 7), 1, .ofClass ⟨"a"⟩, "Third", true⟩]
    let start : MappingDraft := ⟨["from", "to"], .empty, [], [], none⟩
    MappingDraft.create [] = .ok start ∧
      (regrouped Declaration.owner cs).map Declaration.name =
        ["First", "Other", "Third", "start", "Second", "stop"] ∧
      ∃ d e s report, cs.foldlM MappingDraft.apply start = .ok d ∧
        (regrouped Declaration.owner cs).foldlM MappingDraft.apply start = .ok e ∧
        d.classes.map (fun k => (k.names.slots, k.coords.line)) =
          [([some "a", some "Third"], some 2), ([some "b", some "Second"], some 3)] ∧
        d.classes.map (fun k => k.methods.map fun m => (m.names.slots, m.coords.column)) =
          [[], [([some "run", some "stop"], 5)]] ∧
        d.recent.map Recent.position = some 0 ∧ e.recent.map Recent.position = some 1 ∧
        e.forget = d.forget ∧
        d.build ⟨7⟩ = .ok (s, report) ∧ e.build ⟨7⟩ = .ok (s, report) := by
  intro run cs start
  have hstart : MappingDraft.create [] = .ok start := rfl
  obtain ⟨d, e, hd, he, hforget, hbuild⟩ := apply_regrouped hstart cs
  obtain ⟨s, report, hds, hes⟩ := hbuild ⟨7⟩
  refine ⟨hstart, by decide, d, e, s, report, hd, he, ?_⟩
  cases hd
  cases he
  exact ⟨rfl, rfl, rfl, rfl, hforget, hds, hes⟩

end SymbolMap
