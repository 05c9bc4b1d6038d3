import SymbolMap.Proofs.Descriptor.Substitution
import SymbolMap.Proofs.MappingSet.Respelling

/-!
# Respelling there and back

What is respelled from one namespace to another one and back is what it was exactly
if each class name in it is (`MappingSet.respellAt_respellAt_eq_iff`). A name comes
back

* if it is the name of a class that is nested in no other one, and no two classes
  share a name: then the class is found again by its other name
  (`MappingSet.Sound.translateName_back_of_outermost`);
* if no class has it in the other namespace: then it stays as it is on the way back.

So respelling can be undone in sets without inner classes (`respell_there_and_back`).
Inner classes are respelled with the names around them in front, by which they are
not looked up.
-/

namespace SymbolMap

namespace MappingSet

variable {s : MappingSet}

/-! ## Sets whose names tell classes apart -/

/-- No class is nested in another one. -/
def Unnested (s : MappingSet) : Prop := ∀ c ∈ s.classes.elements.toList, c.parent = none

/-- No name of a class has a dot in it. -/
def Dotless (s : MappingSet) : Prop :=
  ∀ c ∈ s.classes.elements.toList, ∀ slot ∈ c.names.slots, ∀ name ∈ slot, '.' ∉ name.toList

/-- No two classes have the same name in the namespace at an index. -/
def DistinctNames (s : MappingSet) (ns : Nat) : Prop :=
  s.classes.elements.toList.Pairwise fun c d => ∀ name ∈ c.name? ns, d.name? ns ≠ some name

instance : Decidable s.Unnested :=
  inferInstanceAs (Decidable (∀ c ∈ s.classes.elements.toList, c.parent = none))

instance : Decidable s.Dotless :=
  inferInstanceAs (Decidable (∀ c ∈ s.classes.elements.toList, ∀ slot ∈ c.names.slots,
    ∀ name ∈ slot, '.' ∉ name.toList))

instance (ns : Nat) : Decidable (s.DistinctNames ns) :=
  inferInstanceAs (Decidable (s.classes.elements.toList.Pairwise fun c d =>
    ∀ name ∈ c.name? ns, d.name? ns ≠ some name))

theorem Dotless.not_mem (h : s.Dotless) {c : Class} (hc : c ∈ s.classes.elements.toList) {ns : Nat}
    {name : String} (hname : c.name? ns = some name) : '.' ∉ name.toList := by
  have hslot : c.names.slots[ns]? = some (some name) := Option.join_eq_some_iff.1 hname
  exact h c hc _ (List.mem_of_getElem? hslot) name rfl

/-- A class that shares its name with no other one is the first one of that name. -/
theorem DistinctNames.firstNamed {ns : Nat} (h : s.DistinctNames ns) {c : Class}
    (hc : c ∈ s.classes.elements.toList) {name : String} (hname : c.name? ns = some name) :
    s.FirstNamed ns name c := by
  obtain ⟨i, hi⟩ := List.getElem?_of_mem hc
  refine ⟨i, hi, hname, fun j hj d hd hdname => ?_⟩
  obtain ⟨hilt, rfl⟩ := List.getElem?_eq_some_iff.1 hi
  obtain ⟨hjlt, rfl⟩ := List.getElem?_eq_some_iff.1 hd
  exact List.pairwise_iff_getElem.1 h j i hjlt hilt hj name hdname hname

/-! ## One class name -/

/-- What a class name of one namespace is in another one. In the same namespace it is
what it is. -/
def translateName (s : MappingSet) (source target : Nat) (name : ClassName) : ClassName :=
  if source = target then name else s.respellName source target name

theorem translateName_self (ns : Nat) (name : ClassName) : s.translateName ns ns name = name :=
  if_pos rfl

theorem translateName_of_ne {source target : Nat} (h : source ≠ target) (name : ClassName) :
    s.translateName source target name = s.respellName source target name :=
  if_neg h

/-- A name that no class has stays as it is. -/
theorem Sound.respellName_of_unknown (hs : s.Sound) {source : Nat} (hsource : source < s.width)
    {name : ClassName}
    (h : ∀ c ∈ s.classes.elements.toList, c.name? source ≠ some name.text) (target : Nat) :
    s.respellName source target name = name := by
  symm
  rw [← hs.respelled_iff hsource]
  exact .unknown h

/-- A class that has no name in the other namespace keeps the one it has. -/
theorem Sound.respellName_of_unnamed (hs : s.Sound) {source target : Nat}
    (hsource : source < s.width) {name : ClassName} {c : Class}
    (hfirst : s.FirstNamed source name.text c) (h : c.name? target = none) :
    s.respellName source target name = name := by
  obtain ⟨i, hi⟩ := List.getElem?_of_mem hfirst.mem.1
  obtain ⟨chain, hchain⟩ := hs.exists_chain i c (Array.getElem?_toList.symm.trans hi)
  symm
  rw [← hs.respelled_iff hsource]
  exact .unnamed hfirst hchain hchain.self_mem h

/-- A class that is nested in no other one is spelled by its own name. -/
theorem Sound.respellName_of_outermost (hs : s.Sound) (hdots : s.Dotless) {source target : Nat}
    (hsource : source < s.width) {name : ClassName} {c : Class}
    (hfirst : s.FirstNamed source name.text c) (houter : c.parent = none) {other : String}
    (h : c.name? target = some other) : s.respellName source target name = ⟨other⟩ := by
  have hchain : [c].map (fun c => c.name? target) = [other].map some := by
    simp [h]
  rw [← ClassName.slashed_singleton (hdots.not_mem hfirst.mem.1 h)]
  symm
  rw [← hs.respelled_iff hsource]
  exact .named hfirst (.outermost houter) hchain

/-- A class that is nested in no other one is found again by its other name. -/
theorem Sound.translateName_back_of_outermost (hs : s.Sound) (hdots : s.Dotless) {a b : Nat}
    (ha : a < s.width) (hb : b < s.width) (hda : s.DistinctNames a) (hdb : s.DistinctNames b)
    {c : Class} (hc : c ∈ s.classes.elements.toList) (houter : c.parent = none) {name : ClassName}
    (hname : c.name? a = some name.text) (hother : c.name? b ≠ none) :
    s.translateName b a (s.translateName a b name) = name := by
  by_cases hab : a = b
  · subst hab
    rw [translateName_self, translateName_self]
  · obtain ⟨other, hother⟩ := Option.ne_none_iff_exists'.1 hother
    have hthere : s.respellName a b name = ⟨other⟩ :=
      hs.respellName_of_outermost hdots ha (hda.firstNamed hc hname) houter hother
    have hback : s.respellName b a ⟨other⟩ = ⟨name.text⟩ :=
      hs.respellName_of_outermost hdots hb (hdb.firstNamed hc hother) houter hname
    rw [translateName_of_ne hab, translateName_of_ne (Ne.symm hab), hthere, hback]

/-- The name is that of a class which has a name in the other namespace as well, or no
class has it there. -/
def Returnable (s : MappingSet) (source target : Nat) (name : ClassName) : Prop :=
  (∃ c ∈ s.classes.elements.toList, c.name? source = some name.text ∧ c.name? target ≠ none) ∨
    ∀ c ∈ s.classes.elements.toList, c.name? target ≠ some name.text

instance (source target : Nat) (name : ClassName) : Decidable (s.Returnable source target name) :=
  inferInstanceAs (Decidable ((∃ c ∈ s.classes.elements.toList,
    c.name? source = some name.text ∧ c.name? target ≠ none) ∨
      ∀ c ∈ s.classes.elements.toList, c.name? target ≠ some name.text))

/-- Without inner classes and with names that tell classes apart, names come back. -/
theorem Sound.translateName_back (hs : s.Sound) (hunnested : s.Unnested) (hdots : s.Dotless)
    {a b : Nat} (ha : a < s.width) (hb : b < s.width) (hda : s.DistinctNames a)
    (hdb : s.DistinctNames b) {name : ClassName} (h : s.Returnable a b name) :
    s.translateName b a (s.translateName a b name) = name := by
  -- a class of that name decides, and where there is none the name stays on both ways
  by_cases hclass : ∃ c ∈ s.classes.elements.toList, c.name? a = some name.text ∧ c.name? b ≠ none
  · obtain ⟨c, hc, hname, hother⟩ := hclass
    exact hs.translateName_back_of_outermost hdots ha hb hda hdb hc (hunnested c hc) hname hother
  · have hfree := h.resolve_left hclass
    by_cases hab : a = b
    · subst hab
      rw [translateName_self, translateName_self]
    · have hthere : s.respellName a b name = name := by
        by_cases hknown : ∃ c ∈ s.classes.elements.toList, c.name? a = some name.text
        · obtain ⟨c, hc, hname⟩ := hknown
          apply hs.respellName_of_unnamed ha (hda.firstNamed hc hname)
          exact Decidable.byContradiction fun hother => hclass ⟨c, hc, hname, hother⟩
        · apply hs.respellName_of_unknown ha
          intro c hc hname
          exact hknown ⟨c, hc, hname⟩
      rw [translateName_of_ne hab, translateName_of_ne (Ne.symm hab), hthere]
      exact hs.respellName_of_unknown hb hfree a

/-! ## Types and descriptors -/

/-- Namespaces that resolve are those at their indices. -/
theorem respell_eq_respellAt {τ : Type} [MentionsClasses τ] {source target : Namespace} {a b : Nat}
    (ha : s.indexOf source = .ok a) (hb : s.indexOf target = .ok b) (v : τ) :
    s.respell source target v = .ok (s.respellAt a b v) := by
  unfold respell
  cases hmentions : MentionsClasses.mentionsClass v with
  | true =>
    rw [if_pos rfl, ha, hb]
    rfl
  | false =>
    unfold respellAt
    simp [hmentions]

section Values

open MentionsClasses NamesClasses HasDescriptor RenamesClasses

variable {τ : Type} [RenamesClasses τ] {v : τ}

/-- Respelling a flat value is substitution, whatever the two namespaces are. -/
theorem respellAt_eq_substitute (h : flat v = v) (source target : Nat) :
    s.respellAt source target v = substitute (s.translateName source target) v := by
  by_cases hsame : source = target
  · subst hsame
    rw [respellAt_self, substitute_eq_flat, h]
    intro name _
    exact translateName_self source name
  · by_cases hnames : classNames v = []
    · rw [respellAt_of_no_names hnames, substitute_eq_flat, h]
      simp [hnames]
    · have htranslate : s.translateName source target = s.respellName source target :=
        funext fun name => translateName_of_ne hsame name
      rw [respellAt_of_names hnames hsame, htranslate]

/-- A flat value comes back exactly if each class name in it does. -/
theorem respellAt_respellAt_eq_iff (h : flat v = v) (a b : Nat) :
    s.respellAt b a (s.respellAt a b v) = v ↔
      ∀ name ∈ classNames v, s.translateName b a (s.translateName a b name) = name := by
  rw [respellAt_eq_substitute h, respellAt_eq_substitute (flat_substitute _ v),
    substitute_substitute, substitute_eq_self_iff h]
  rfl

/-- A well-formed value whose names come back is respelled and then back to what it
was. -/
def ComesBack (s : MappingSet) (a b : Namespace) (v : τ) : Prop :=
  WellFormed v → (∀ name ∈ classNames v, s.Returnable a.index b.index name) →
    (s.respell a b v >>= s.respell b a) = .ok v

end Values

theorem Sound.comesBack (hs : s.Sound) (hunnested : s.Unnested) (hdots : s.Dotless)
    {a b : Namespace} (ha : a ∈ s.namespaces) (hb : b ∈ s.namespaces)
    (hda : s.DistinctNames a.index) (hdb : s.DistinctNames b.index) {τ : Type} [RenamesClasses τ]
    (v : τ) : s.ComesBack a b v := by
  intro hv hnames
  have ha := indexOf_of_mem ha
  have hb := indexOf_of_mem hb
  rw [respell_eq_respellAt ha hb]
  show s.respell b a (s.respellAt a.index b.index v) = .ok v
  rw [respell_eq_respellAt hb ha,
    (respellAt_respellAt_eq_iff (RenamesClasses.flat_eq v hv) _ _).2]
  intro name hname
  exact hs.translateName_back hunnested hdots (indexOf_lt ha) (indexOf_lt hb) hda hdb
    (hnames name hname)

end MappingSet

/-- **Respelling can be undone where names tell classes apart.** In a reachable set
without inner classes, whose class names have no dots and are one-to-one in both
namespaces, each well-formed field type, return type or descriptor of a method comes
back. Its class names have to be those of classes that have a name in both
namespaces, or such that no class has them in the other one. -/
theorem respell_there_and_back {s : MappingSet} (h : s.Reachable) (hunnested : s.Unnested)
    (hdots : s.Dotless) {a b : Namespace} (ha : a ∈ s.namespaces) (hb : b ∈ s.namespaces)
    (hda : s.DistinctNames a.index) (hdb : s.DistinctNames b.index) :
    (∀ t : FieldType, s.ComesBack a b t) ∧ (∀ t : ReturnType, s.ComesBack a b t) ∧
      ∀ d : MethodDescriptor, s.ComesBack a b d :=
  ⟨h.sound.comesBack hunnested hdots ha hb hda hdb,
    h.sound.comesBack hunnested hdots ha hb hda hdb,
    h.sound.comesBack hunnested hdots ha hb hda hdb⟩

/-- A class with both names, one without a name in the other namespace, and a class
that is none of the set. -/
theorem respell_there_and_back_partly_named :
    let full := Class.bare ⟨⟨3⟩, 0⟩ ⟨[some "x/A", some "y/B"]⟩ .unknown none
    let partly := Class.bare ⟨⟨3⟩, 1⟩ ⟨[some "x/C", none]⟩ .unknown none
    let s : MappingSet := ⟨⟨3⟩, ["a", "b"], .empty 2, ((Table.empty 2).push full).push partly⟩
    let d : MethodDescriptor :=
      ⟨[.array (.object ⟨"x/A"⟩) 2, .object ⟨"x/C"⟩], .value (.object ⟨"q/U"⟩)⟩
    s.Reachable ∧
      (s.respell ⟨"a", 0, ⟨3⟩⟩ ⟨"b", 1, ⟨3⟩⟩ d >>=
        s.respell ⟨"b", 1, ⟨3⟩⟩ ⟨"a", 0, ⟨3⟩⟩) = .ok d := by
  intro full partly s d
  have hcreate : MappingSet.create ⟨3⟩ ["a", "b"] = .ok ⟨⟨3⟩, ["a", "b"], .empty 2, .empty 2⟩ := rfl
  have hfull : MappingSet.addClass ⟨⟨3⟩, ["a", "b"], .empty 2, .empty 2⟩
      ⟨[some "x/A", some "y/B"]⟩ .unknown none =
        .ok (⟨⟨3⟩, 0⟩, ⟨⟨3⟩, ["a", "b"], .empty 2, (Table.empty 2).push full⟩) := rfl
  have hpartly : MappingSet.addClass ⟨⟨3⟩, ["a", "b"], .empty 2, (Table.empty 2).push full⟩
      ⟨[some "x/C", none]⟩ .unknown none = .ok (⟨⟨3⟩, 1⟩, s) := rfl
  have hreachable : s.Reachable := .addClass (.addClass (.create hcreate) hfull) hpartly
  have hunnested : s.Unnested := by decide
  have hdots : s.Dotless := by decide
  have hda : s.DistinctNames 0 := by decide
  have hdb : s.DistinctNames 1 := by decide
  have hwell : d.WellFormed := by
    refine ⟨?_, by decide, by decide⟩
    simp [d, FieldType.WellFormed, FieldType.isArray, ClassName.Spellable]
  have hnames : ∀ name ∈ d.classNames, s.Returnable 0 1 name := by decide
  exact ⟨hreachable, (respell_there_and_back hreachable hunnested hdots (by decide) (by decide)
    hda hdb).2.2 d hwell hnames⟩

end SymbolMap
