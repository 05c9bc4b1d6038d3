import SymbolMap.Descriptor.Reader
import SymbolMap.Proofs.Descriptor.Flat

/-!
# Reading what was written

What the reader takes from the front of a text is told by what it has taken: it
accepts a type exactly where the well-formed type is spelled, and leaves what
stands behind it. A name may contain any other character of a descriptor, for
it ends at the first semicolon and nowhere else.

* `takeName_eq_ok_iff`, `takeType_eq_ok_iff`, `takeParams_eq_ok_iff`: what is
  taken from the front of a text, and what is left;
* `FieldType.parse_eq_ok_iff` and the same for return types and methods: the
  texts that are read;
* `parse_descriptor`: reading a written value gives its flat form.
-/

namespace SymbolMap

/-! ## Names -/

theorem takeName_append {name : ClassName} (h : name.Spellable) (rest : List Char) :
    takeName (name.text.toList ++ ';' :: rest) = .ok (name, rest) := by
  obtain ⟨hne, hsemi⟩ := h
  have hopen : ∀ c ∈ name.text.toList, (c != ';') = true := by
    intro c hc
    rw [bne_iff_ne]
    rintro rfl
    exact hsemi hc
  have htake : (name.text.toList ++ ';' :: rest).takeWhile (· != ';') = name.text.toList := by
    rw [List.takeWhile_append_of_pos hopen, List.takeWhile_cons_of_neg (by decide),
      List.append_nil]
  have hdrop : (name.text.toList ++ ';' :: rest).dropWhile (· != ';') = ';' :: rest := by
    rw [List.dropWhile_append_of_pos hopen, List.dropWhile_cons_of_neg (by decide)]
  unfold takeName
  rw [htake, hdrop]
  cases hchars : name.text.toList with
  | nil => exact absurd (String.toList_eq_nil_iff.1 hchars) hne
  | cons c cs =>
    show Except.ok ((⟨String.ofList (c :: cs)⟩ : ClassName), rest) = _
    rw [← hchars, String.ofList_toList]

/-- A name is read where a name is spelled and closed. -/
theorem takeName_eq_ok_iff {cs rest : List Char} {name : ClassName} :
    takeName cs = .ok (name, rest) ↔
      name.Spellable ∧ cs = name.text.toList ++ ';' :: rest := by
  constructor
  · intro h
    -- the name is what stands in front of the first semicolon
    have hsplit := List.takeWhile_append_dropWhile (p := (· != ';')) (l := cs)
    unfold takeName at h
    split at h
    · cases h
    · cases h
    · rename_i c tail hdrop hne
      cases h
      have hclosed : c = ';' := by
        have := List.head?_dropWhile_not (· != ';') cs
        rw [hdrop] at this
        simpa using this
      have hopen : ';' ∉ cs.takeWhile (· != ';') := fun hmem => by
        simpa using List.all_eq_true.1 List.all_takeWhile _ hmem
      refine ⟨⟨?_, ?_⟩, ?_⟩
      · intro hempty
        exact hne (by simpa using congrArg String.toList hempty)
      · rw [String.toList_ofList]
        exact hopen
      · rw [String.toList_ofList]
        refine hsplit.symm.trans ?_
        rw [hdrop, hclosed]
  · rintro ⟨hname, rfl⟩
    exact takeName_append hname rest

/-! ## Spellings -/

/-- All brackets of a type stand in front of its innermost type. -/
theorem FieldType.spelling_eq (t : FieldType) :
    t.spelling = List.replicate t.depth '[' ++ t.innermost.spelling := by
  induction t with
  | base => rfl
  | object => rfl
  | array component dimension ih =>
    show List.replicate dimension.toNat '[' ++ component.spelling =
      List.replicate (component.depth + dimension.toNat) '[' ++ component.innermost.spelling
    rw [ih, ← List.append_assoc, List.replicate_append_replicate, Nat.add_comm]

/-- Merging arrays does not change how a type is spelled. -/
theorem FieldType.spelling_flat {t : FieldType} (h : t.Fits) : t.flat.spelling = t.spelling := by
  have hmin : min t.depth 255 = t.depth := Nat.min_eq_left h
  rw [spelling_eq t.flat, spelling_eq t]
  unfold flat
  rw [hmin, depth_wrapped t.isArray_innermost h, innermost_wrapped t.isArray_innermost]

theorem FieldType.spelling_wrapped {t : FieldType} (h : t.isArray = false) {n : Nat}
    (hn : n ≤ 255) : (t.wrapped n).spelling = List.replicate n '[' ++ t.spelling := by
  rw [spelling_eq, depth_wrapped h hn, innermost_wrapped h]

/-- A type that is no array starts with another character than a bracket. -/
theorem FieldType.spelling_of_not_isArray {t : FieldType} (h : t.isArray = false) :
    ∃ c cs, t.spelling = c :: cs ∧ (c == '[') = false := by
  cases t with
  | base type => exact ⟨_, _, rfl, by cases type <;> rfl⟩
  | object name => exact ⟨_, _, rfl, rfl⟩
  | array => cases h

/-! ## One type -/

/-- What the reader takes from behind `dimension` many brackets. -/
inductive TakenComponent (dimension : Nat) : ReturnType → List Char → Prop
  | void : dimension = 0 → TakenComponent dimension .void ['V']
  | value {t : FieldType} : t.isArray = false → t.Spellable →
      TakenComponent dimension (.value (t.wrapped dimension)) t.spelling

theorem takeComponent_append {dimension : Nat} (hd : dimension ≤ 255) {t : ReturnType}
    {cs : List Char} (h : TakenComponent dimension t cs) (rest : List Char) :
    takeComponent dimension (cs ++ rest) = .ok (t, rest) := by
  cases h with
  | void hzero => exact if_pos hzero
  | @value t harray hspell =>
    have hmerge : FieldType.arrayOf t (UInt8.ofNat dimension) = t.wrapped dimension := by
      rw [FieldType.arrayOf_of_not_isArray harray, FieldType.toNat_ofNat_of_le hd]
    rw [← hmerge]
    cases t with
    | base type => cases type <;> rfl
    | object name =>
      show takeComponent dimension ('L' :: (name.text.toList ++ [';'] ++ rest)) = _
      rw [List.append_assoc]
      show (takeName (name.text.toList ++ ';' :: rest) >>= _) = _
      rw [takeName_append hspell]
      rfl
    | array => cases harray

theorem takenComponent_of_takeComponent {dimension : Nat} (hd : dimension ≤ 255) {t : ReturnType}
    {cs rest : List Char} (h : takeComponent dimension cs = .ok (t, rest)) :
    ∃ taken, TakenComponent dimension t taken ∧ cs = taken ++ rest := by
  have hmerge : ∀ t : FieldType, t.isArray = false →
      FieldType.arrayOf t (UInt8.ofNat dimension) = t.wrapped dimension := by
    intro t harray
    rw [FieldType.arrayOf_of_not_isArray harray, FieldType.toNat_ofNat_of_le hd]
  unfold takeComponent at h
  split at h
  · cases h
  · split at h
    · rename_i hzero
      cases h
      exact ⟨['V'], .void hzero, rfl⟩
    · cases h
  · rename_i tail
    cases hname : takeName tail with
    | error e =>
      rw [hname] at h
      cases h
    | ok taken =>
      obtain ⟨name, left⟩ := taken
      rw [hname] at h
      cases h
      obtain ⟨hspell, rfl⟩ := takeName_eq_ok_iff.1 hname
      rw [hmerge (.object name) rfl]
      refine ⟨_, .value rfl hspell, ?_⟩
      show _ = 'L' :: (name.text.toList ++ [';']) ++ rest
      rw [List.cons_append, List.append_assoc]
      rfl
  · rename_i c tail _ _
    split at h
    · rename_i type htype
      cases h
      rw [hmerge (.base type) rfl]
      refine ⟨_, .value rfl trivial, ?_⟩
      show c :: rest = [type.letter] ++ rest
      rw [BaseType.letter_of_ofLetter? htype]
      rfl
    · cases h

/-- Brackets in front of something else are counted. -/
theorem takeType_replicate_append (n : Nat) {c : Char} (hc : (c == '[') = false)
    (cs : List Char) :
    takeType (List.replicate n '[' ++ c :: cs) =
      if n > 255 then .error .tooManyDimensions else takeComponent n (c :: cs) := by
  have hbrackets : ∀ b ∈ List.replicate n '[', (b == '[') = true := by
    intro b hb
    rw [List.eq_of_mem_replicate hb]
    rfl
  have hnot : ¬ (c == '[') = true := by
    rw [hc]
    exact Bool.false_ne_true
  have htake : (List.replicate n '[' ++ c :: cs).takeWhile (· == '[') = List.replicate n '[' := by
    rw [List.takeWhile_append_of_pos hbrackets,
      List.takeWhile_cons_of_neg (p := (· == '[')) hnot, List.append_nil]
  have hdrop : (List.replicate n '[' ++ c :: cs).dropWhile (· == '[') = c :: cs := by
    rw [List.dropWhile_append_of_pos hbrackets, List.dropWhile_cons_of_neg (p := (· == '[')) hnot]
  unfold takeType
  rw [htake, hdrop, List.length_replicate]

/-- A field type is read back in its flat form, if that has few enough
dimensions. -/
theorem takeType_spelling {t : FieldType} (hspell : t.Spellable) (hfits : t.Fits)
    (rest : List Char) : takeType (t.spelling ++ rest) = .ok (.value t.flat, rest) := by
  have hcomponent := takeComponent_append hfits
    (.value t.isArray_innermost (FieldType.spellable_innermost.2 hspell)) rest
  have hflat : t.flat = t.innermost.wrapped t.depth := by
    unfold FieldType.flat
    rw [Nat.min_eq_left hfits]
  obtain ⟨c, cs, hcs, hc⟩ := FieldType.spelling_of_not_isArray t.isArray_innermost
  rw [hcs] at hcomponent
  rw [FieldType.spelling_eq, hcs, List.append_assoc, hflat]
  show takeType (List.replicate t.depth '[' ++ c :: (cs ++ rest)) = _
  rw [takeType_replicate_append _ hc, if_neg (Nat.not_lt_of_le hfits)]
  exact hcomponent

theorem takeType_spelling_of_not_fits {t : FieldType} (hfits : ¬ t.Fits) (rest : List Char) :
    takeType (t.spelling ++ rest) = .error .tooManyDimensions := by
  obtain ⟨c, cs, hcs, hc⟩ := FieldType.spelling_of_not_isArray t.isArray_innermost
  rw [FieldType.spelling_eq, hcs, List.append_assoc]
  show takeType (List.replicate t.depth '[' ++ c :: (cs ++ rest)) = _
  rw [takeType_replicate_append _ hc, if_pos (Nat.lt_of_not_le hfits)]

/-- A well-formed type or void is read where it is spelled, whatever stands behind
it. -/
theorem takeType_append {t : ReturnType} (h : t.WellFormed) (rest : List Char) :
    takeType (t.spelling ++ rest) = .ok (t, rest) := by
  cases t with
  | void =>
    show takeType (List.replicate 0 '[' ++ 'V' :: rest) = _
    rw [takeType_replicate_append 0 (by decide)]
    rfl
  | value type =>
    have htype : type.WellFormed := h
    show takeType (type.spelling ++ rest) = _
    rw [takeType_spelling htype.spellable htype.fits, htype.flat_eq]

/-- What is read is well-formed, and is spelled in front of what is left. -/
theorem takeType_eq_ok_iff {cs rest : List Char} {t : ReturnType} :
    takeType cs = .ok (t, rest) ↔ t.WellFormed ∧ cs = t.spelling ++ rest := by
  constructor
  · intro h
    have hsplit := List.takeWhile_append_dropWhile (p := (· == '[')) (l := cs)
    have hbrackets : cs.takeWhile (· == '[') =
        List.replicate (cs.takeWhile (· == '[')).length '[' := by
      refine List.eq_replicate_iff.2 ⟨rfl, fun c hc => ?_⟩
      exact eq_of_beq (List.all_eq_true.1 List.all_takeWhile c hc)
    unfold takeType at h
    split at h
    · cases h
    · rename_i hfits
      have hd := Nat.le_of_not_lt hfits
      obtain ⟨taken, htaken, hrest⟩ := takenComponent_of_takeComponent hd h
      rw [hbrackets, hrest] at hsplit
      -- the brackets that were counted are those in front of the type
      cases htaken with
      | void hzero =>
        rw [hzero] at hsplit
        exact ⟨trivial, hsplit.symm⟩
      | value harray hspell =>
        refine ⟨FieldType.wellFormed_wrapped harray hspell hd, ?_⟩
        show cs = (FieldType.wrapped _ _).spelling ++ rest
        rw [FieldType.spelling_wrapped harray hd, List.append_assoc]
        exact hsplit.symm
  · rintro ⟨ht, rfl⟩
    exact takeType_append ht rest

/-! ## Parameters -/

/-- Nothing that a type starts with closes the parameters. -/
theorem takeType_close (cs : List Char) : takeType (')' :: cs) = .error (.unexpectedChar ')') :=
  takeType_replicate_append 0 (by decide) cs

/-- As long as the parameters are not closed, one more type is taken. -/
theorem takeParams_cons {c : Char} (hc : c ≠ ')') (cs : List Char) :
    takeParams (c :: cs) =
      match takeType (c :: cs) with
      | .error cause => .error (.unreadable cause)
      | .ok (.void, _) => .error .void
      | .ok (.value type, rest) =>
        (takeParams rest).map fun (types, rest) => (type :: types, rest) := by
  rw [takeParams]
  · split
    · rename_i h
      rw [h]
    · rename_i h
      rw [h]
    · rename_i type rest h
      rw [h]
      show _ = (takeParams rest).map _
      cases takeParams rest with
      | error e => rfl
      | ok result => rfl
  · exact hc

theorem takeParams_of_takeType {cs rest : List Char} {type : FieldType}
    (h : takeType cs = .ok (.value type, rest)) :
    takeParams cs = (takeParams rest).map fun (types, rest) => (type :: types, rest) := by
  cases cs with
  | nil => cases h
  | cons c cs =>
    have hc : c ≠ ')' := by
      rintro rfl
      rw [takeType_close] at h
      cases h
    rw [takeParams_cons hc, h]

/-- Well-formed types are read up to the parenthesis that closes them. -/
theorem takeParams_append {types : List FieldType} (h : ∀ t ∈ types, t.WellFormed)
    (rest : List Char) :
    takeParams (types.flatMap FieldType.spelling ++ ')' :: rest) = .ok (types, rest) := by
  induction types with
  | nil =>
    show takeParams (')' :: rest) = _
    rw [takeParams]
  | cons t types ih =>
    have hfirst : takeType (t.spelling ++ (types.flatMap FieldType.spelling ++ ')' :: rest)) =
        .ok (.value t, types.flatMap FieldType.spelling ++ ')' :: rest) :=
      takeType_append (t := .value t) (h t List.mem_cons_self) _
    rw [List.flatMap_cons, List.append_assoc, takeParams_of_takeType hfirst,
      ih fun u hu => h u (List.mem_cons_of_mem _ hu)]
    rfl

/-- The types that are read are well-formed, and are spelled in a row in front of
the parenthesis. -/
theorem takeParams_eq_ok_iff {cs rest : List Char} {types : List FieldType} :
    takeParams cs = .ok (types, rest) ↔
      (∀ t ∈ types, t.WellFormed) ∧ cs = types.flatMap FieldType.spelling ++ ')' :: rest := by
  constructor
  · intro h
    fun_induction takeParams cs generalizing types with
    | case1 tail =>
      cases h
      exact ⟨by simp, rfl⟩
    | case2 => cases h
    | case3 => cases h
    | case4 => cases h
    | case5 c cs hc type left htype ih =>
      cases htail : takeParams left with
      | error e =>
        rw [htail] at h
        cases h
      | ok result =>
        obtain ⟨more, behind⟩ := result
        rw [htail] at h
        cases h
        obtain ⟨hmore, hleft⟩ := ih htail
        obtain ⟨hwell, hcs⟩ := takeType_eq_ok_iff.1 htype
        refine ⟨List.forall_mem_cons.2 ⟨hwell, hmore⟩, ?_⟩
        rw [hcs, hleft, List.flatMap_cons, List.append_assoc]
        rfl
  · rintro ⟨htypes, rfl⟩
    exact takeParams_append htypes rest

theorem takeParams_of_tooManyDimensions {cs : List Char}
    (h : takeType cs = .error .tooManyDimensions) :
    takeParams cs = .error (.unreadable .tooManyDimensions) := by
  cases cs with
  | nil => cases h
  | cons c cs =>
    have hc : c ≠ ')' := by
      rintro rfl
      rw [takeType_close] at h
      cases h
    rw [takeParams_cons hc, h]

/-- Of types that can be spelled, the first one with too many dimensions is where
reading ends. -/
theorem takeParams_of_not_fits {types : List FieldType} (hspell : ∀ t ∈ types, t.Spellable)
    (hfits : ¬ ∀ t ∈ types, t.Fits) (rest : List Char) :
    takeParams (types.flatMap FieldType.spelling ++ rest) =
      .error (.unreadable .tooManyDimensions) := by
  induction types with
  | nil => exact absurd (fun t ht => by cases ht) hfits
  | cons t types ih =>
    rw [List.flatMap_cons, List.append_assoc]
    by_cases ht : t.Fits
    · have hmore : ¬ ∀ u ∈ types, u.Fits := fun h => hfits (List.forall_mem_cons.2 ⟨ht, h⟩)
      rw [takeParams_of_takeType (takeType_spelling (hspell t List.mem_cons_self) ht _),
        ih (fun u hu => hspell u (List.mem_cons_of_mem _ hu)) hmore]
      rfl
    · exact takeParams_of_tooManyDimensions (takeType_spelling_of_not_fits ht _)

/-! ## Whole descriptors -/

theorem FieldType.parse_eq_ok_iff {text : String} {t : FieldType} :
    FieldType.parse text = .ok t ↔ t.WellFormed ∧ text.toList = t.spelling := by
  constructor
  · intro h
    unfold FieldType.parse at h
    split at h
    · cases h
    · cases h
    · rename_i htype
      cases h
      obtain ⟨hwell, htext⟩ := takeType_eq_ok_iff.1 htype
      exact ⟨hwell, htext.trans (List.append_nil _)⟩
    · cases h
  · rintro ⟨hwell, htext⟩
    have htake : takeType (t.spelling ++ []) = .ok (.value t, []) :=
      takeType_append (t := .value t) hwell []
    rw [List.append_nil] at htake
    unfold FieldType.parse
    rw [htext, htake]

theorem ReturnType.parse_eq_ok_iff {text : String} {t : ReturnType} :
    ReturnType.parse text = .ok t ↔ t.WellFormed ∧ text.toList = t.spelling := by
  constructor
  · intro h
    unfold ReturnType.parse at h
    split at h
    · cases h
    · rename_i htype
      cases h
      obtain ⟨hwell, htext⟩ := takeType_eq_ok_iff.1 htype
      exact ⟨hwell, htext.trans (List.append_nil _)⟩
    · cases h
  · rintro ⟨hwell, htext⟩
    have htake := takeType_append hwell []
    rw [List.append_nil] at htake
    unfold ReturnType.parse
    rw [htext, htake]

theorem MethodDescriptor.parse_eq_ok_iff {text : String} {d : MethodDescriptor} :
    MethodDescriptor.parse text = .ok d ↔ d.WellFormed ∧ text.toList = d.spelling := by
  constructor
  · intro h
    unfold MethodDescriptor.parse at h
    split at h
    · rename_i cs hopen
      split at h
      · cases h
      · rename_i hparams
        split at h
        · cases h
        · rename_i hreturns
          cases h
          obtain ⟨hwell, hcs⟩ := takeParams_eq_ok_iff.1 hparams
          obtain ⟨hreturn, hleft⟩ := takeType_eq_ok_iff.1 hreturns
          refine ⟨⟨hwell, hreturn⟩, ?_⟩
          rw [hopen, hcs, hleft, List.append_nil]
          rfl
        · cases h
    · cases h
  · rintro ⟨⟨hparams, hreturns⟩, htext⟩
    have htake := takeType_append hreturns []
    rw [List.append_nil] at htake
    unfold MethodDescriptor.parse
    rw [htext]
    simp only [MethodDescriptor.spelling, takeParams_append hparams, htake]

/-! ## Reading written values -/

/-- The values that are written as descriptors and read from them. -/
class HasDescriptor (τ : Type) where
  descriptor : τ → String
  parse : String → Except DescriptorError τ
  Spellable : τ → Prop
  Fits : τ → Prop
  flat : τ → τ
  WellFormed : τ → Prop

instance : HasDescriptor FieldType where
  descriptor := FieldType.descriptor
  parse := FieldType.parse
  Spellable := FieldType.Spellable
  Fits := FieldType.Fits
  flat := FieldType.flat
  WellFormed := FieldType.WellFormed

instance : HasDescriptor ReturnType where
  descriptor := ReturnType.descriptor
  parse := ReturnType.parse
  Spellable := ReturnType.Spellable
  Fits := ReturnType.Fits
  flat := ReturnType.flat
  WellFormed := ReturnType.WellFormed

instance : HasDescriptor MethodDescriptor where
  descriptor := MethodDescriptor.descriptor
  parse := MethodDescriptor.parse
  Spellable := MethodDescriptor.Spellable
  Fits := MethodDescriptor.Fits
  flat := MethodDescriptor.flat
  WellFormed := MethodDescriptor.WellFormed

open HasDescriptor in
/-- What becomes of a value that is written and then read. If its names can be
spelled, it is read in its flat form as long as its dimensions fit, and refused
otherwise. Of all values, exactly the well-formed ones come back as they are. -/
structure ReadsBack {τ : Type} [HasDescriptor τ] (v : τ) : Prop where
  flat : Spellable v → Fits v → parse (descriptor v) = .ok (flat v)
  refused : Spellable v → ¬ Fits v → ∃ e, parse (descriptor v) = (.error e : Except _ τ)
  same : parse (descriptor v) = .ok v ↔ WellFormed v

theorem FieldType.readsBack (t : FieldType) : ReadsBack t := by
  have htext : t.descriptor.toList = t.spelling := String.toList_ofList
  constructor
  · intro hspell hfits
    refine parse_eq_ok_iff.2 ⟨wellFormed_flat hspell, ?_⟩
    exact htext.trans (spelling_flat hfits).symm
  · intro hspell hfits
    have htake := takeType_spelling_of_not_fits hfits []
    rw [List.append_nil, ← htext] at htake
    refine ⟨.unreadable .type t.descriptor .tooManyDimensions, ?_⟩
    show FieldType.parse t.descriptor = _
    unfold FieldType.parse
    rw [htake]
  · exact parse_eq_ok_iff.trans (and_iff_left htext)

namespace ReturnType

theorem wellFormed_flat {t : ReturnType} (h : t.Spellable) : t.flat.WellFormed := by
  cases t with
  | void => exact h
  | value type => exact FieldType.wellFormed_flat h

theorem spelling_flat {t : ReturnType} (h : t.Fits) : t.flat.spelling = t.spelling := by
  cases t with
  | void => rfl
  | value type => exact FieldType.spelling_flat h

theorem takeType_of_not_fits {t : ReturnType} (h : ¬ t.Fits) :
    takeType t.spelling = .error .tooManyDimensions := by
  cases t with
  | void => exact absurd trivial h
  | value type =>
    have htake := takeType_spelling_of_not_fits h []
    rw [List.append_nil] at htake
    exact htake

theorem readsBack (t : ReturnType) : ReadsBack t := by
  have htext : t.descriptor.toList = t.spelling := String.toList_ofList
  constructor
  · intro hspell hfits
    refine parse_eq_ok_iff.2 ⟨wellFormed_flat hspell, ?_⟩
    exact htext.trans (spelling_flat hfits).symm
  · intro hspell hfits
    refine ⟨.unreadable .returns t.descriptor .tooManyDimensions, ?_⟩
    show ReturnType.parse t.descriptor = _
    unfold ReturnType.parse
    rw [htext, takeType_of_not_fits hfits]
  · exact parse_eq_ok_iff.trans (and_iff_left htext)

end ReturnType

namespace MethodDescriptor

theorem wellFormed_flat {d : MethodDescriptor} (h : d.Spellable) : d.flat.WellFormed := by
  refine ⟨fun t ht => ?_, ReturnType.wellFormed_flat h.2⟩
  obtain ⟨p, hp, rfl⟩ := List.mem_map.1 ht
  exact FieldType.wellFormed_flat (h.1 p hp)

theorem flatMap_spelling_flat {params : List FieldType} (h : ∀ p ∈ params, p.Fits) :
    (params.map FieldType.flat).flatMap FieldType.spelling =
      params.flatMap FieldType.spelling := by
  rw [List.flatMap_map, List.flatMap_def, List.flatMap_def,
    List.map_congr_left fun p hp => FieldType.spelling_flat (h p hp)]

theorem spelling_flat {d : MethodDescriptor} (h : d.Fits) : d.flat.spelling = d.spelling := by
  show '(' :: ((d.params.map FieldType.flat).flatMap FieldType.spelling ++
    ')' :: d.returns.flat.spelling) = _
  rw [flatMap_spelling_flat h.1, ReturnType.spelling_flat h.2]
  rfl

/-- Where the dimensions do not fit, reading ends inside of the parameters, or else
inside of the return type. -/
theorem parse_of_not_fits {d : MethodDescriptor} (hspell : d.Spellable) (hfits : ¬ d.Fits) :
    MethodDescriptor.parse d.descriptor =
      .error (.unreadable (if ∀ p ∈ d.params, p.Fits then .methodReturns else .methodParam)
        d.descriptor .tooManyDimensions) := by
  have htext : d.descriptor.toList = d.spelling := String.toList_ofList
  unfold MethodDescriptor.parse
  rw [htext]
  by_cases hparams : ∀ p ∈ d.params, p.Fits
  · have hreturns : ¬ d.returns.Fits := fun h => hfits ⟨hparams, h⟩
    have hwell : ∀ t ∈ d.params.map FieldType.flat, t.WellFormed := (wellFormed_flat hspell).1
    have htake := takeParams_append hwell d.returns.spelling
    rw [flatMap_spelling_flat hparams] at htake
    rw [if_pos hparams]
    simp only [spelling, htake, ReturnType.takeType_of_not_fits hreturns]
  · rw [if_neg hparams]
    simp only [spelling, takeParams_of_not_fits hspell.1 hparams, ParamsError.of]

theorem readsBack (d : MethodDescriptor) : ReadsBack d := by
  have htext : d.descriptor.toList = d.spelling := String.toList_ofList
  constructor
  · intro hspell hfits
    refine parse_eq_ok_iff.2 ⟨wellFormed_flat hspell, ?_⟩
    exact htext.trans (spelling_flat hfits).symm
  · intro hspell hfits
    exact ⟨_, parse_of_not_fits hspell hfits⟩
  · exact parse_eq_ok_iff.trans (and_iff_left htext)

end MethodDescriptor

/-- **Writing and reading.** A field type, a return type or a descriptor of a
method whose names can be spelled is read from what is written of it, in its flat
form, unless it has an array of more than 255 dimensions, which is refused. A
value is read as it was exactly if it is well-formed. -/
theorem parse_descriptor :
    (∀ t : FieldType, ReadsBack t) ∧ (∀ t : ReturnType, ReadsBack t) ∧
      ∀ d : MethodDescriptor, ReadsBack d :=
  ⟨FieldType.readsBack, ReturnType.readsBack, MethodDescriptor.readsBack⟩

/-- Five brackets in two arrays come back in one, 255 are read, 256 are not, and a
name may look like the rest of a descriptor. -/
theorem parse_descriptor_nested :
    let t : FieldType := .array (.array (.object ⟨"a(V[)I"⟩) 2) 3
    let d : MethodDescriptor := ⟨[.array t 250, .base .int], .void⟩
    FieldType.parse t.descriptor = .ok (.array (.object ⟨"a(V[)I"⟩) 5) ∧
      (∃ e, FieldType.parse (FieldType.array t 251).descriptor = .error e) ∧
      ReturnType.parse (ReturnType.value (.array (.base .int) 0)).descriptor =
        .ok (.value (.base .int)) ∧
      MethodDescriptor.parse d.descriptor =
        .ok ⟨[.array (.object ⟨"a(V[)I"⟩) 255, .base .int], .void⟩ := by
  intro t d
  have hname : ClassName.Spellable ⟨"a(V[)I"⟩ := ⟨by decide, by decide⟩
  have hparams : ∀ p ∈ d.params, p.Spellable ∧ p.Fits :=
    List.forall_mem_cons.2 ⟨⟨hname, by decide⟩, List.forall_mem_cons.2 ⟨⟨trivial, by decide⟩,
      fun p hp => by cases hp⟩⟩
  have hfits : t.Fits := by decide
  have hdeep : ¬ (FieldType.array t 251).Fits := by decide
  have hbare : (FieldType.array (.base .int) 0).Fits := by decide
  obtain ⟨hfield, hreturn, hmethod⟩ := parse_descriptor
  exact ⟨(hfield t).flat hname hfits, (hfield _).refused hname hdeep,
    (hreturn _).flat trivial hbare,
    (hmethod d).flat ⟨fun p hp => (hparams p hp).1, trivial⟩
      ⟨fun p hp => (hparams p hp).2, trivial⟩⟩

end SymbolMap
