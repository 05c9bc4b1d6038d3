import SymbolMap.Proofs.Descriptor.Shape
import SymbolMap.Proofs.MappingSet.ThereAndBack

/-!
# Names that stay spellable

A descriptor can spell a class name that is not empty and has no semicolon. If all class
names of a set are such, then so are the rows of names that respelling makes of them
(`ClassName.Spellable.slashed`), however deep the classes are nested. So a descriptor
that is well-formed stays well-formed in every namespace, and keeps its shape
(`respell_preserves_shape`).
-/

namespace SymbolMap

namespace ClassName

theorem slashDots_eq_semicolon_iff {c : Char} : slashDots c = ';' ↔ c = ';' := by
  unfold slashDots
  by_cases hdot : c = '.'
  · subst hdot
    decide
  · simp [hdot]

/-- Slashes in the place of dots do not make a name that cannot be spelled. -/
theorem spellable_map_slashDots {text : String} :
    Spellable ⟨text.map slashDots⟩ ↔ Spellable ⟨text⟩ := by
  have hempty : text.map slashDots = "" ↔ text = "" := by
    rw [← String.toList_inj, ← String.toList_inj, String.toList_map]
    exact List.map_eq_nil_iff
  have hsemicolon : ';' ∈ (text.map slashDots).toList ↔ ';' ∈ text.toList := by
    rw [String.toList_map, List.mem_map]
    simp only [slashDots_eq_semicolon_iff, exists_eq_right]
  unfold Spellable
  rw [ne_eq, ne_eq, hempty, hsemicolon]

/-- With something between them that has no semicolon, two names make a longer one. -/
theorem Spellable.append {first rest separator : String} (h : Spellable ⟨first⟩)
    (hrest : Spellable ⟨rest⟩) (hseparator : ';' ∉ separator.toList) :
    Spellable ⟨first ++ separator ++ rest⟩ := by
  obtain ⟨hne, hfirst⟩ := h
  obtain ⟨_, hrest⟩ := hrest
  refine ⟨?_, ?_⟩
  · simp [String.append_eq_empty_iff, hne]
  · simp only [String.toList_append, List.mem_append, not_or]
    exact ⟨⟨hfirst, hseparator⟩, hrest⟩

/-- A row of names that can be spelled can be spelled. -/
theorem Spellable.slashed {names : List String} (hne : names ≠ [])
    (h : ∀ name ∈ names, Spellable ⟨name⟩) : (slashed names).Spellable := by
  apply spellable_map_slashDots.2
  induction names with
  | nil => exact absurd rfl hne
  | cons name rest ih =>
    rw [List.forall_mem_cons] at h
    cases rest with
    | nil =>
      rw [String.intercalate_singleton]
      exact h.1
    | cons next rest =>
      rw [String.intercalate_cons_cons]
      exact h.1.append (ih (List.cons_ne_nil _ _) h.2) (by decide)

end ClassName

namespace MappingSet

variable {s : MappingSet}

/-- All names of classes can be spelled in descriptors. -/
def SpellableNames (s : MappingSet) : Prop :=
  ∀ c ∈ s.classes.elements.toList, ∀ slot ∈ c.names.slots, ∀ name ∈ slot,
    ClassName.Spellable ⟨name⟩

instance : Decidable s.SpellableNames :=
  inferInstanceAs (Decidable (∀ c ∈ s.classes.elements.toList, ∀ slot ∈ c.names.slots,
    ∀ name ∈ slot, name ≠ "" ∧ ';' ∉ name.toList))

theorem SpellableNames.spellable (h : s.SpellableNames) {c : Class}
    (hc : c ∈ s.classes.elements.toList) {ns : Nat} {name : String}
    (hname : c.name? ns = some name) : ClassName.Spellable ⟨name⟩ := by
  have hslot : c.names.slots[ns]? = some (some name) := Option.join_eq_some_iff.1 hname
  exact h c hc _ (List.mem_of_getElem? hslot) name rfl

theorem Lineage.mem {c : Class} {chain : List Class} (h : s.Lineage c chain)
    (hc : c ∈ s.classes.elements.toList) : ∀ d ∈ chain, d ∈ s.classes.elements.toList := by
  induction h with
  | outermost => simpa using hc
  | inside houter _ _ ih =>
    intro d hd
    rcases List.mem_append.1 hd with hd | hd
    · exact ih houter d hd
    · cases List.mem_singleton.1 hd
      exact hc

/-- What a name becomes can be spelled: it is a row of names of the set, or the name as it was. -/
theorem Sound.spellable_translateName (hs : s.Sound) (hnames : s.SpellableNames) {source : Nat}
    (hsource : source < s.width) (target : Nat) {name : ClassName} (h : name.Spellable) :
    (s.translateName source target name).Spellable := by
  by_cases hsame : source = target
  · subst hsame
    rwa [translateName_self]
  · rw [translateName_of_ne hsame]
    have hrespelled := hs.respelled_respellName hsource target name
    generalize s.respellName source target name = new at hrespelled
    cases hrespelled with
    | unnamed => exact h
    | unknown => exact h
    | @named c chain names hfirst hchain hrow =>
      -- the names of a walk from the outermost class, which is never empty
      have hne : names ≠ [] := by
        rintro rfl
        exact hchain.ne_nil (List.map_eq_nil_iff.1 hrow)
      apply ClassName.Spellable.slashed hne
      intro own hown
      have hmem : some own ∈ chain.map fun c => c.name? target := by
        rw [hrow]
        exact List.mem_map_of_mem hown
      obtain ⟨d, hd, hname⟩ := List.mem_map.1 hmem
      exact hnames.spellable (hchain.mem hfirst.mem.1 d hd) hname

end MappingSet

/-- **Respelling keeps the shape of a descriptor.** Let all names of classes in a
reachable set be such that descriptors can spell them. A descriptor that is read from a
text is then respelled between any two namespaces of the set. What comes out has the same
shape, is read from its own text, and this is the first text with the names between each
`L` and its semicolon respelled, one by one. -/
theorem respell_preserves_shape {s : MappingSet} (h : s.Reachable) (hnames : s.SpellableNames)
    {a b : Namespace} (ha : a ∈ s.namespaces) (hb : b ∈ s.namespaces) {text : String}
    {d : MethodDescriptor} (hd : MethodDescriptor.parse text = .ok d) :
    ∃ (d' : MethodDescriptor) (f : ClassName → ClassName),
      s.respell a b d = .ok d' ∧
      (∀ name, s.respell a b (FieldType.object name) = .ok (.object (f name))) ∧
      MethodDescriptor.parse d'.descriptor = .ok d' ∧
      d.SameShape d' ∧
      NamesReplaced f text.toList d'.descriptor.toList := by
  obtain ⟨hwell, htext⟩ := MethodDescriptor.parse_eq_ok_iff.1 hd
  have hia := MappingSet.indexOf_of_mem ha
  have hib := MappingSet.indexOf_of_mem hb
  have hspell : ∀ name ∈ d.classNames, (s.translateName a.index b.index name).Spellable := by
    intro name hname
    exact h.sound.spellable_translateName hnames (MappingSet.indexOf_lt hia) b.index
      (hwell.of_mem_classNames hname)
  generalize hf : s.translateName a.index b.index = f at hspell
  have hrespell : s.respell a b d = .ok (d.mapClasses f) := by
    rw [MappingSet.respell_eq_respellAt hia hib,
      MappingSet.respellAt_eq_substitute (RenamesClasses.flat_eq d hwell), hf,
      d.mapClasses_eq_substitute f]
    rfl
  have hobject : ∀ name, s.respell a b (FieldType.object name) = .ok (.object (f name)) := by
    intro name
    rw [MappingSet.respell_eq_respellAt hia hib, MappingSet.respellAt_eq_substitute rfl, hf]
    rfl
  have hparse : MethodDescriptor.parse (d.mapClasses f).descriptor = .ok (d.mapClasses f) :=
    MethodDescriptor.parse_eq_ok_iff.2 ⟨hwell.mapClasses hspell, String.toList_ofList⟩
  have hreplaced : NamesReplaced f text.toList (d.mapClasses f).descriptor.toList := by
    rw [htext]
    show NamesReplaced f d.spelling (String.ofList (d.mapClasses f).spelling).toList
    rw [String.toList_ofList]
    exact hwell.namesReplaced_spelling hspell
  exact ⟨d.mapClasses f, f, hrespell, hobject, hparse, hwell.sameShape_mapClasses f, hreplaced⟩

/-- An array of an inner class, a class around it that is spelled with a dot, and a class
that is none of the set. -/
theorem respell_preserves_shape_nested :
    let outer := Class.bare ⟨⟨3⟩, 0⟩ ⟨[some "x/Outer", some "y.Out"]⟩ .unknown none
    let inner := Class.bare ⟨⟨3⟩, 1⟩ ⟨[some "x/In", some "L"]⟩ .unknown (some ⟨⟨3⟩, 0⟩)
    let s : MappingSet :=
      ⟨⟨3⟩, ["a", "b"], .empty 2, ((Table.empty 2).push outer).push inner⟩
    let d : MethodDescriptor :=
      ⟨[.array (.object ⟨"x/In"⟩) 2, .base .int, .object ⟨"q/LU"⟩], .value (.object ⟨"x/Outer"⟩)⟩
    let d' : MethodDescriptor :=
      ⟨[.array (.object ⟨"y/Out/L"⟩) 2, .base .int, .object ⟨"q/LU"⟩], .value (.object ⟨"y/Out"⟩)⟩
    s.Reachable ∧ s.SpellableNames ∧
      MethodDescriptor.parse "([[Lx/In;ILq/LU;)Lx/Outer;" = .ok d ∧
      s.respell ⟨"a", 0, ⟨3⟩⟩ ⟨"b", 1, ⟨3⟩⟩ d = .ok d' ∧
      d.SameShape d' ∧ MethodDescriptor.parse d'.descriptor = .ok d' ∧
      ∃ f, f ⟨"x/In"⟩ = ⟨"y/Out/L"⟩ ∧
        NamesReplaced f "([[Lx/In;ILq/LU;)Lx/Outer;".toList d'.descriptor.toList := by
  intro outer inner s d d'
  have hcreate : MappingSet.create ⟨3⟩ ["a", "b"] = .ok ⟨⟨3⟩, ["a", "b"], .empty 2, .empty 2⟩ := rfl
  have houter : MappingSet.addClass ⟨⟨3⟩, ["a", "b"], .empty 2, .empty 2⟩
      ⟨[some "x/Outer", some "y.Out"]⟩ .unknown none =
        .ok (⟨⟨3⟩, 0⟩, ⟨⟨3⟩, ["a", "b"], .empty 2, (Table.empty 2).push outer⟩) := rfl
  have hinner : MappingSet.addClass ⟨⟨3⟩, ["a", "b"], .empty 2, (Table.empty 2).push outer⟩
      ⟨[some "x/In", some "L"]⟩ .unknown (some ⟨⟨3⟩, 0⟩) = .ok (⟨⟨3⟩, 1⟩, s) := rfl
  have hreachable : s.Reachable := .addClass (.addClass (.create hcreate) houter) hinner
  have hnames : s.SpellableNames := by decide
  have hparse : MethodDescriptor.parse "([[Lx/In;ILq/LU;)Lx/Outer;" = .ok d := by decide +kernel
  have hvalue : s.respell ⟨"a", 0, ⟨3⟩⟩ ⟨"b", 1, ⟨3⟩⟩ d = .ok d' := by decide +kernel
  obtain ⟨d'', f, hrespell, hobject, hback, hshape, hreplaced⟩ :=
    respell_preserves_shape hreachable hnames (a := ⟨"a", 0, ⟨3⟩⟩) (b := ⟨"b", 1, ⟨3⟩⟩) (by decide)
      (by decide) hparse
  cases hvalue.symm.trans hrespell
  have hinside : s.respell ⟨"a", 0, ⟨3⟩⟩ ⟨"b", 1, ⟨3⟩⟩ (FieldType.object ⟨"x/In"⟩) =
      .ok (.object ⟨"y/Out/L"⟩) := by decide +kernel
  have hname : f ⟨"x/In"⟩ = ⟨"y/Out/L"⟩ := by
    have hsame := (hobject ⟨"x/In"⟩).symm.trans hinside
    simpa using hsame
  exact ⟨hreachable, hnames, hparse, hvalue, hshape, hback, f, hname, hreplaced⟩

end SymbolMap
