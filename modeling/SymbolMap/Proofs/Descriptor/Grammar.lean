import SymbolMap.Proofs.Descriptor.RoundTrip

/-!
# The grammar of descriptors

Which texts are descriptors is told here by how they are put together, and not by
a reader that walks over them: a field descriptor is a component behind at most
255 brackets, a return descriptor may also be the letter of void, and a method
descriptor is a row of field descriptors in parentheses in front of a return
descriptor.

* `isFieldText_iff`, `isReturnText_iff`, `isMethodText_iff`: the texts of the
  grammar are the spellings of the well-formed values;
* `parse_accepts_grammar`: the readers accept the texts of the grammar and no
  others, and lose nothing of them.
-/

namespace SymbolMap

/-! ## Texts -/

/-- What stands behind the brackets of a field descriptor: the letter of a base
type, or the name of a class between `L` and a semicolon. -/
inductive IsComponentText : List Char → Prop
  | base {c : Char} : c ∈ ['B', 'C', 'D', 'F', 'I', 'J', 'S', 'Z'] → IsComponentText [c]
  | object {name : List Char} : name ≠ [] → ';' ∉ name →
      IsComponentText ('L' :: (name ++ [';']))

/-- A component behind any number of brackets up to 255. -/
inductive IsFieldText : List Char → Prop
  | mk {dimension : Nat} {component : List Char} : dimension ≤ 255 →
      IsComponentText component → IsFieldText (List.replicate dimension '[' ++ component)

/-- A field descriptor, or void. -/
inductive IsReturnText : List Char → Prop
  | field {cs : List Char} : IsFieldText cs → IsReturnText cs
  | void : IsReturnText ['V']

/-- Field descriptors in a row between parentheses, and behind them a return
descriptor. -/
inductive IsMethodText : List Char → Prop
  | mk {params : List (List Char)} {returns : List Char} : (∀ p ∈ params, IsFieldText p) →
      IsReturnText returns → IsMethodText ('(' :: (params.flatten ++ ')' :: returns))

/-! ## Texts are spellings -/

theorem BaseType.exists_letter_eq_iff {c : Char} :
    (∃ b : BaseType, b.letter = c) ↔ c ∈ ['B', 'C', 'D', 'F', 'I', 'J', 'S', 'Z'] := by
  constructor
  · rintro ⟨b, rfl⟩
    cases b <;> simp [letter]
  · intro h
    simp only [List.mem_cons, List.not_mem_nil, or_false] at h
    rcases h with rfl | rfl | rfl | rfl | rfl | rfl | rfl | rfl
    · exact ⟨byte, rfl⟩
    · exact ⟨char, rfl⟩
    · exact ⟨double, rfl⟩
    · exact ⟨float, rfl⟩
    · exact ⟨int, rfl⟩
    · exact ⟨long, rfl⟩
    · exact ⟨short, rfl⟩
    · exact ⟨boolean, rfl⟩

theorem isComponentText_iff {cs : List Char} :
    IsComponentText cs ↔ ∃ t : FieldType, t.isArray = false ∧ t.Spellable ∧ t.spelling = cs := by
  constructor
  · intro h
    cases h with
    | base hc =>
      obtain ⟨b, rfl⟩ := BaseType.exists_letter_eq_iff.2 hc
      exact ⟨.base b, rfl, trivial, rfl⟩
    | @object name hne hsemi =>
      have hname : ClassName.Spellable ⟨String.ofList name⟩ := by
        simp [ClassName.Spellable, hne, hsemi]
      exact ⟨.object ⟨String.ofList name⟩, rfl, hname, by simp [FieldType.spelling]⟩
  · rintro ⟨t, harray, hspell, rfl⟩
    cases t with
    | base b => exact .base (BaseType.exists_letter_eq_iff.1 ⟨b, rfl⟩)
    | object name =>
      obtain ⟨hne, hsemi⟩ := hspell
      exact .object (by simpa using hne) hsemi
    | array => cases harray

theorem isFieldText_iff {cs : List Char} :
    IsFieldText cs ↔ ∃ t : FieldType, t.WellFormed ∧ t.spelling = cs := by
  constructor
  · intro h
    cases h with
    | @mk dimension component hdim hcomponent =>
      obtain ⟨t, harray, hspell, rfl⟩ := isComponentText_iff.1 hcomponent
      exact ⟨t.wrapped dimension, FieldType.wellFormed_wrapped harray hspell hdim,
        FieldType.spelling_wrapped harray hdim⟩
  · rintro ⟨t, ht, rfl⟩
    -- the brackets of a type are those of all its arrays, and the rest is what is in them
    have hcomponent : IsComponentText t.innermost.spelling :=
      isComponentText_iff.2
        ⟨t.innermost, t.isArray_innermost, FieldType.spellable_innermost.2 ht.spellable, rfl⟩
    rw [FieldType.spelling_eq]
    exact .mk ht.fits hcomponent

theorem isReturnText_iff {cs : List Char} :
    IsReturnText cs ↔ ∃ t : ReturnType, t.WellFormed ∧ t.spelling = cs := by
  constructor
  · intro h
    cases h with
    | field h =>
      obtain ⟨t, ht, rfl⟩ := isFieldText_iff.1 h
      exact ⟨.value t, ht, rfl⟩
    | void => exact ⟨.void, trivial, rfl⟩
  · rintro ⟨t, ht, rfl⟩
    cases t with
    | void => exact .void
    | value type => exact .field (isFieldText_iff.2 ⟨type, ht, rfl⟩)

/-- A row of field descriptors is the row of the spellings of some types. -/
theorem forall_isFieldText_iff {texts : List (List Char)} :
    (∀ p ∈ texts, IsFieldText p) ↔
      ∃ types : List FieldType, (∀ t ∈ types, t.WellFormed) ∧
        types.map FieldType.spelling = texts := by
  induction texts with
  | nil => simp
  | cons p rest ih =>
    rw [List.forall_mem_cons, ih, isFieldText_iff]
    constructor
    · rintro ⟨⟨t, ht, rfl⟩, types, htypes, rfl⟩
      exact ⟨t :: types, List.forall_mem_cons.2 ⟨ht, htypes⟩, rfl⟩
    · rintro ⟨types, htypes, htexts⟩
      cases types with
      | nil => cases htexts
      | cons t types =>
        cases htexts
        rw [List.forall_mem_cons] at htypes
        exact ⟨⟨t, htypes.1, rfl⟩, types, htypes.2, rfl⟩

theorem isMethodText_iff {cs : List Char} :
    IsMethodText cs ↔ ∃ d : MethodDescriptor, d.WellFormed ∧ d.spelling = cs := by
  constructor
  · intro h
    cases h with
    | mk hparams hreturns =>
      obtain ⟨types, htypes, rfl⟩ := forall_isFieldText_iff.1 hparams
      obtain ⟨t, ht, rfl⟩ := isReturnText_iff.1 hreturns
      refine ⟨⟨types, t⟩, ⟨htypes, ht⟩, ?_⟩
      simp [MethodDescriptor.spelling, List.flatMap_def]
  · rintro ⟨⟨types, t⟩, ⟨htypes, ht⟩, rfl⟩
    have hparams := forall_isFieldText_iff.2 ⟨types, htypes, rfl⟩
    have hreturns := isReturnText_iff.2 ⟨t, ht, rfl⟩
    simpa [MethodDescriptor.spelling, List.flatMap_def] using IsMethodText.mk hparams hreturns

/-! ## Reading -/

open HasDescriptor

/-- The texts that are read are those of a grammar. What is read is well-formed,
and its descriptor is the text that was read, character for character. -/
structure ReadsGrammar (τ : Type) [HasDescriptor τ] (grammar : List Char → Prop) : Prop where
  accepts : ∀ text, (∃ v : τ, parse text = .ok v) ↔ grammar text.toList
  lossless : ∀ text (v : τ), parse text = .ok v → WellFormed v ∧ descriptor v = text

/-- A reader that undoes the spelling of the well-formed values reads the grammar
of their spellings. -/
theorem readsGrammar_of_spelling {τ : Type} [HasDescriptor τ] {grammar : List Char → Prop}
    {spelling : τ → List Char} (hdescriptor : ∀ v : τ, descriptor v = String.ofList (spelling v))
    (hparse : ∀ {text} {v : τ}, parse text = .ok v ↔ WellFormed v ∧ text.toList = spelling v)
    (hgrammar : ∀ {cs}, grammar cs ↔ ∃ v : τ, WellFormed v ∧ spelling v = cs) :
    ReadsGrammar τ grammar := by
  constructor
  · intro text
    rw [hgrammar]
    simp only [hparse, eq_comm]
  · intro text v h
    obtain ⟨hv, htext⟩ := hparse.1 h
    refine ⟨hv, ?_⟩
    rw [hdescriptor, ← htext, String.ofList_toList]

/-- **The readers accept the grammar.** A text is read as a field type, a return
type or a descriptor of a method exactly if it is a text of the grammar, and
nothing of it is lost. -/
theorem parse_accepts_grammar :
    ReadsGrammar FieldType IsFieldText ∧ ReadsGrammar ReturnType IsReturnText ∧
      ReadsGrammar MethodDescriptor IsMethodText :=
  ⟨readsGrammar_of_spelling (fun _ => rfl) FieldType.parse_eq_ok_iff isFieldText_iff,
    readsGrammar_of_spelling (fun _ => rfl) ReturnType.parse_eq_ok_iff isReturnText_iff,
    readsGrammar_of_spelling (fun _ => rfl) MethodDescriptor.parse_eq_ok_iff isMethodText_iff⟩

/-- Behind 255 brackets a type is read, and behind 256 it is no field descriptor.
A name may hold all that a method descriptor is made of, and is read as it is. -/
theorem parse_accepts_grammar_brackets :
    (∃ t, FieldType.parse (String.ofList (List.replicate 255 '[' ++ ['I'])) = .ok t) ∧
      ¬ IsFieldText (List.replicate 256 '[' ++ ['I']) ∧
      ∃ d, MethodDescriptor.parse "([L()V[L;J)V" = .ok d ∧ d.descriptor = "([L()V[L;J)V" := by
  obtain ⟨hfield, -, hmethod⟩ := parse_accepts_grammar
  have hreads : ∀ text, (∃ t, FieldType.parse text = .ok t) ↔ IsFieldText text.toList :=
    hfield.accepts
  have hint : IsComponentText ['I'] := .base (by simp)
  have hlong : IsComponentText ['J'] := .base (by simp)
  have hmany : ∀ count, 255 < count → ¬ IsFieldText (List.replicate count '[' ++ ['I']) := by
    intro count hcount h
    rw [← String.toList_ofList (l := List.replicate count '[' ++ ['I']), ← hreads] at h
    obtain ⟨t, hread⟩ := h
    unfold FieldType.parse at hread
    rw [String.toList_ofList, takeType_replicate_append count (by decide), if_pos hcount] at hread
    cases hread
  refine ⟨?_, hmany 256 (by decide), ?_⟩
  · rw [hreads, String.toList_ofList]
    exact .mk (Nat.le_refl 255) hint
  · have hname : IsFieldText ['[', 'L', '(', ')', 'V', '[', 'L', ';'] :=
      .mk (by decide : 1 ≤ 255)
        (.object (by simp : ['(', ')', 'V', '[', 'L'] ≠ []) (by simp))
    have hplain : IsFieldText ['J'] := .mk (Nat.zero_le 255) hlong
    have htext : IsMethodText "([L()V[L;J)V".toList :=
      .mk (List.forall_mem_cons.2 ⟨hname, List.forall_mem_singleton.2 hplain⟩) .void
    obtain ⟨d, hd⟩ := (hmethod.accepts _).2 htext
    exact ⟨d, hd, (hmethod.lossless _ d hd).2⟩

end SymbolMap
