import SymbolMap.Proofs.Descriptor.Grammar
import SymbolMap.Proofs.Text.Quoted

/-!
# Descriptors end where they end

Nothing behind a descriptor can change how it is read. So no descriptor continues
another one (`prefixFree_descriptors`), although a class name may hold all that a
descriptor is made of, and a text that goes on behind a descriptor of a method is cut
in two in one way only.

Two of the messages about descriptors of methods say where reading came to an end, and
are given for no other reason (`reading_ends_with_descriptor`): the one for a text that
goes on behind its descriptor, and the one for a text that ends inside of the parameters
but not inside of a parameter.
-/

namespace SymbolMap

open Text

/-! ## No descriptor continues another one -/

/-- No text of the grammar continues another one. -/
def PrefixFree (grammar : List Char → Prop) : Prop :=
  ∀ text more, grammar text → grammar (text ++ more) → more = []

theorem prefixFree_isReturnText : PrefixFree IsReturnText := by
  intro text more htext hmore
  obtain ⟨t, ht, rfl⟩ := isReturnText_iff.1 htext
  obtain ⟨u, hu, hspelling⟩ := isReturnText_iff.1 hmore
  -- the longer text is read as its own type, and leaves nothing
  have hwhole := takeType_append hu []
  rw [List.append_nil, hspelling, takeType_append ht more] at hwhole
  cases hwhole
  rfl

theorem prefixFree_isMethodText : PrefixFree IsMethodText := by
  intro text more htext hmore
  obtain ⟨d, hd, rfl⟩ := isMethodText_iff.1 htext
  obtain ⟨e, he, hspelling⟩ := isMethodText_iff.1 hmore
  have hparams : takeParams (d.params.flatMap FieldType.spelling ++
      ')' :: (d.returns.spelling ++ more)) = .ok (e.params, e.returns.spelling) := by
    have hbehind : d.params.flatMap FieldType.spelling ++ ')' :: (d.returns.spelling ++ more) =
        e.params.flatMap FieldType.spelling ++ ')' :: e.returns.spelling := by
      simpa [MethodDescriptor.spelling] using hspelling.symm
    rw [hbehind, takeParams_append he.1]
  rw [takeParams_append hd.1] at hparams
  simp only [Except.ok.injEq, Prod.mk.injEq] at hparams
  -- the parameters end at the same parenthesis, so the return types are to be compared
  refine prefixFree_isReturnText _ more (isReturnText_iff.2 ⟨_, hd.2, rfl⟩) ?_
  rw [hparams.2]
  exact isReturnText_iff.2 ⟨_, he.2, rfl⟩

/-- A type does not begin as a descriptor of a method does. -/
theorem IsReturnText.append_ne_open {text : List Char} (h : IsReturnText text)
    (rest cs : List Char) : text ++ rest ≠ '(' :: cs := by
  intro heq
  obtain ⟨t, ht, rfl⟩ := isReturnText_iff.1 h
  have hopen : takeType ('(' :: cs) = .error (.unexpectedChar '(') :=
    takeType_replicate_append 0 (by decide) cs
  rw [← heq, takeType_append ht rest] at hopen
  cases hopen

theorem prefixFree_descriptors : PrefixFree fun cs => IsReturnText cs ∨ IsMethodText cs := by
  intro text more htext hmore
  rcases htext with htext | htext
  · rcases hmore with hmore | hmore
    · exact prefixFree_isReturnText text more htext hmore
    · generalize hwhole : text ++ more = whole at hmore
      cases hmore with
      | mk => exact absurd hwhole (htext.append_ne_open _ _)
  · rcases hmore with hmore | hmore
    · cases htext with
      | mk => exact absurd (List.append_nil _) (hmore.append_ne_open _ _)
    · exact prefixFree_isMethodText text more htext hmore

/-! ## Parameters that are not closed -/

theorem takeParams_spellings {types : List FieldType} (h : ∀ t ∈ types, t.WellFormed) :
    takeParams (types.flatMap FieldType.spelling) = .error .unclosed := by
  induction types with
  | nil =>
    show takeParams [] = _
    rw [takeParams]
  | cons t types ih =>
    rw [List.forall_mem_cons] at h
    have hfirst : takeType (t.spelling ++ types.flatMap FieldType.spelling) =
        .ok (.value t, types.flatMap FieldType.spelling) :=
      takeType_append (t := .value t) h.1 _
    rw [List.flatMap_cons, takeParams_of_takeType hfirst, ih h.2]
    rfl

/-- The text ends in front of the parenthesis exactly if it is a row of parameters. -/
theorem takeParams_eq_unclosed_iff {cs : List Char} :
    takeParams cs = .error .unclosed ↔
      ∃ types : List FieldType, (∀ t ∈ types, t.WellFormed) ∧
        cs = types.flatMap FieldType.spelling := by
  constructor
  · intro h
    fun_induction takeParams cs with
    | case1 => cases h
    | case2 => exact ⟨[], by simp, rfl⟩
    | case3 => cases h
    | case4 => cases h
    | case5 c cs hc type left htype ih =>
      cases htail : takeParams left with
      | error e =>
        rw [htail] at h
        cases h
        obtain ⟨types, htypes, rfl⟩ := ih htail
        obtain ⟨hwell, hcs⟩ := takeType_eq_ok_iff.1 htype
        exact ⟨type :: types, List.forall_mem_cons.2 ⟨hwell, htypes⟩, hcs⟩
      | ok result =>
        rw [htail] at h
        cases h
  · rintro ⟨types, htypes, rfl⟩
    exact takeParams_spellings htypes

/-! ## Refused texts -/

namespace MethodDescriptor

/-- What the descriptors of methods are refused for, by how far they were read. -/
inductive Refused (text : String) : DescriptorError → Prop
  | noParams : text.toList.head? ≠ some '(' → Refused text (.noParams text)
  | unclosed {cs : List Char} : text.toList = '(' :: cs → takeParams cs = .error .unclosed →
      Refused text (.unclosedParams text)
  | voidParam {cs : List Char} : text.toList = '(' :: cs → takeParams cs = .error .void →
      Refused text (.voidParam text)
  | param {cs : List Char} {cause : ReadError} : text.toList = '(' :: cs →
      takeParams cs = .error (.unreadable cause) →
      Refused text (.unreadable .methodParam text cause)
  | returns {cs left : List Char} {params : List FieldType} {cause : ReadError} :
      text.toList = '(' :: cs → takeParams cs = .ok (params, left) →
      takeType left = .error cause → Refused text (.unreadable .methodReturns text cause)
  | trailing {d : MethodDescriptor} {rest : String} : d.WellFormed → rest ≠ "" →
      text = d.descriptor ++ rest → Refused text (.trailing .method text rest)

variable {text : String}

/-- What stands behind a descriptor is what is left of the text. -/
theorem parse_descriptor_append {d : MethodDescriptor} (h : d.WellFormed) {rest : String}
    (hrest : rest ≠ "") :
    MethodDescriptor.parse (d.descriptor ++ rest) =
      .error (.trailing .method (d.descriptor ++ rest) rest) := by
  obtain ⟨c, cs, hcs⟩ := List.exists_cons_of_ne_nil (mt String.toList_eq_nil_iff.1 hrest)
  have hparams : takeParams (d.params.flatMap FieldType.spelling ++
      ')' :: (d.returns.spelling ++ c :: cs)) = .ok (d.params, d.returns.spelling ++ c :: cs) :=
    takeParams_append h.1 _
  have htext : (d.descriptor ++ rest).toList = '(' :: (d.params.flatMap FieldType.spelling ++
      ')' :: (d.returns.spelling ++ c :: cs)) := by
    rw [String.toList_append, hcs, descriptor, String.toList_ofList, spelling, List.cons_append,
      List.append_assoc]
    rfl
  unfold MethodDescriptor.parse
  rw [htext]
  simp only [hparams, takeType_append h.2]
  rw [← hcs, String.ofList_toList]

theorem refused_of_parse_eq_error {e : DescriptorError}
    (h : MethodDescriptor.parse text = .error e) : Refused text e := by
  unfold MethodDescriptor.parse at h
  split at h
  · rename_i cs hopen
    split at h
    · rename_i cause hparams
      cases h
      cases cause with
      | unclosed => exact .unclosed hopen hparams
      | void => exact .voidParam hopen hparams
      | unreadable cause => exact .param hopen hparams
    · rename_i params left hparams
      split at h
      · rename_i hreturns
        cases h
        exact .returns hopen hparams hreturns
      · cases h
      · rename_i type rest hrest hreturns
        cases h
        obtain ⟨hwell, hcs⟩ := takeParams_eq_ok_iff.1 hparams
        obtain ⟨hreturn, hleft⟩ := takeType_eq_ok_iff.1 hreturns
        refine .trailing (d := ⟨params, type⟩) ⟨hwell, hreturn⟩ (by simpa using hrest) ?_
        rw [← String.toList_inj, hopen, hcs, hleft, String.toList_append, descriptor,
          String.toList_ofList, String.toList_ofList, spelling, List.cons_append,
          List.append_assoc]
        rfl
  · rename_i hopen
    cases h
    refine .noParams fun hhead => ?_
    obtain ⟨cs, hcs⟩ := List.head?_eq_some_iff.1 hhead
    exact hopen cs hcs

/-- A text is refused for what `Refused` says, and for nothing else. -/
theorem parse_eq_error_iff {e : DescriptorError} :
    MethodDescriptor.parse text = .error e ↔ Refused text e := by
  constructor
  · exact refused_of_parse_eq_error
  · intro h
    cases h with
    | noParams hopen =>
      unfold MethodDescriptor.parse
      split
      · rename_i htext
        rw [htext] at hopen
        exact absurd rfl hopen
      · rfl
    | unclosed htext hparams => simp only [MethodDescriptor.parse, htext, hparams, ParamsError.of]
    | voidParam htext hparams => simp only [MethodDescriptor.parse, htext, hparams, ParamsError.of]
    | param htext hparams => simp only [MethodDescriptor.parse, htext, hparams, ParamsError.of]
    | returns htext hparams hreturns => simp only [MethodDescriptor.parse, htext, hparams, hreturns]
    | trailing hwell hrest htext =>
      rw [htext]
      exact parse_descriptor_append hwell hrest

end MethodDescriptor

/-! ## Messages -/

theorem head?_toList_append {s t : String} {c : Char} (h : s.toList.head? = some c) :
    (s ++ t).toList.head? = some c := by
  rw [String.toList_append, List.head?_append, h]
  rfl

namespace DescriptorKind

/-- The character that the title begins with. -/
def initial : DescriptorKind → Char
  | type => 't'
  | returns => 'r'
  | method => 'm'

theorem head?_title (kind : DescriptorKind) : kind.title.toList.head? = some kind.initial := by
  cases kind <;> rfl

theorem initial_inj {kind other : DescriptorKind} (h : kind.initial = other.initial) :
    kind = other := by
  cases kind <;> cases other <;> first | rfl | cases h

/-- The title that a message goes on with is known from the message. -/
theorem title_append_inj {kind other : DescriptorKind} {rest more : String}
    (h : kind.title ++ rest = other.title ++ more) : kind = other ∧ rest = more := by
  have hinitial : some kind.initial = some other.initial := by
    rw [← head?_toList_append (t := rest) (head?_title kind), h,
      head?_toList_append (head?_title other)]
  obtain rfl := initial_inj (Option.some.inj hinitial)
  exact ⟨rfl, (String.append_right_inj _).1 h⟩

end DescriptorKind

namespace DescriptorError

/-- The character that the message begins with. -/
def initial : DescriptorError → Char
  | unreadable .. => 'f'
  | voidType _ => 'v'
  | voidParam _ => 'v'
  | noParams _ => 'm'
  | unclosedParams _ => 'u'
  | trailing .. => 'e'

theorem message_unclosedParams (text : String) : (unclosedParams text).message =
    "unexpected abrupt ending of method descriptor " ++ quoted text := rfl

theorem message_trailing (kind : DescriptorKind) (text rest : String) :
    (trailing kind text rest).message = "expected end of " ++
      (kind.title ++ (quoted text ++ (", got " ++ (quoted rest ++ " remaining")))) := by
  show "expected end of " ++ kind.title ++ quoted text ++ ", got " ++ quoted rest ++
    " remaining" = _
  simp only [String.append_assoc]

theorem head?_message (e : DescriptorError) : e.message.toList.head? = some e.initial := by
  have happend : ∀ {s t : String} {c : Char}, s.toList.head? = some c →
      (s ++ t).toList.head? = some c := head?_toList_append
  cases e with
  | unreadable => exact happend (happend (happend (happend rfl)))
  | voidType => exact happend rfl
  | voidParam => exact happend rfl
  | noParams => exact happend (happend rfl)
  | unclosedParams => exact happend rfl
  | trailing => exact happend (happend (happend (happend (happend rfl))))

theorem initial_eq_of_message_eq {e f : DescriptorError} (h : e.message = f.message) :
    e.initial = f.initial := by
  have hhead : some e.initial = some f.initial := by rw [← head?_message e, h, head?_message f]
  exact Option.some.inj hhead

/-- The message of parameters that are not closed is that of no other error. -/
theorem eq_of_message_eq_unclosedParams {e : DescriptorError} {text : String}
    (h : e.message = (unclosedParams text).message) : e = unclosedParams text := by
  have hinitial := initial_eq_of_message_eq h
  cases e with
  | unclosedParams about =>
    rw [message_unclosedParams, message_unclosedParams, String.append_right_inj] at h
    rw [quoted_inj h]
  | unreadable => cases hinitial
  | voidType => cases hinitial
  | voidParam => cases hinitial
  | noParams => cases hinitial
  | trailing => cases hinitial

/-- The message of a text that goes on tells what it is about, and what is left of it. -/
theorem eq_of_message_eq_trailing {e : DescriptorError} {kind : DescriptorKind}
    {text rest : String} (h : e.message = (trailing kind text rest).message) :
    e = trailing kind text rest := by
  have hinitial := initial_eq_of_message_eq h
  cases e with
  | trailing other about left =>
    rw [message_trailing, message_trailing, String.append_right_inj] at h
    obtain ⟨rfl, hbehind⟩ := DescriptorKind.title_append_inj h
    obtain ⟨rfl, hleft⟩ := quoted_append_inj hbehind
    obtain ⟨rfl, _⟩ := quoted_append_inj ((String.append_right_inj _).1 hleft)
    rfl
  | unreadable => cases hinitial
  | voidType => cases hinitial
  | voidParam => cases hinitial
  | noParams => cases hinitial
  | unclosedParams => cases hinitial

end DescriptorError

/-! ## Where reading ends -/

namespace MethodDescriptor

/-- The text is refused with a message. -/
def Reports (text message : String) : Prop :=
  ∃ e, MethodDescriptor.parse text = .error e ∧ e.message = message

/-- The messages that are about the end of the text. That there is more than a descriptor
is reported of a descriptor that is followed by something, together with what follows it,
and of no other text. That there is less is reported of the opening parenthesis with
complete parameters behind it, and of no other text. -/
structure ReportsEnd (text : String) : Prop where
  trailing : ∀ rest : String,
    Reports text ("expected end of method descriptor " ++ quoted text ++ ", got " ++
        quoted rest ++ " remaining") ↔
      rest ≠ "" ∧ ∃ valid : String, IsMethodText valid.toList ∧ text = valid ++ rest
  unclosed :
    Reports text ("unexpected abrupt ending of method descriptor " ++ quoted text) ↔
      ∃ params : List (List Char), (∀ p ∈ params, IsFieldText p) ∧
        text.toList = '(' :: params.flatten

variable {text : String}

theorem reports_trailing_iff {rest : String} :
    Reports text (DescriptorError.trailing .method text rest).message ↔
      rest ≠ "" ∧ ∃ valid : String, IsMethodText valid.toList ∧ text = valid ++ rest := by
  constructor
  · rintro ⟨e, hparse, hmessage⟩
    cases DescriptorError.eq_of_message_eq_trailing hmessage
    cases parse_eq_error_iff.1 hparse with
    | @trailing d _ hwell hrest htext =>
      have hvalid : IsMethodText d.descriptor.toList :=
        isMethodText_iff.2 ⟨d, hwell, String.toList_ofList.symm⟩
      exact ⟨hrest, d.descriptor, hvalid, htext⟩
  · rintro ⟨hrest, valid, hvalid, htext⟩
    obtain ⟨d, hwell, hspelling⟩ := isMethodText_iff.1 hvalid
    have hdescriptor : d.descriptor = valid := by
      rw [descriptor, hspelling, String.ofList_toList]
    exact ⟨_, parse_eq_error_iff.2 (.trailing hwell hrest (hdescriptor ▸ htext)), rfl⟩

theorem reports_unclosed_iff :
    Reports text (DescriptorError.unclosedParams text).message ↔
      ∃ params : List (List Char), (∀ p ∈ params, IsFieldText p) ∧
        text.toList = '(' :: params.flatten := by
  constructor
  · rintro ⟨e, hparse, hmessage⟩
    cases DescriptorError.eq_of_message_eq_unclosedParams hmessage
    cases parse_eq_error_iff.1 hparse with
    | unclosed htext hparams =>
      obtain ⟨types, htypes, rfl⟩ := takeParams_eq_unclosed_iff.1 hparams
      exact ⟨types.map FieldType.spelling, forall_isFieldText_iff.2 ⟨types, htypes, rfl⟩, htext⟩
  · rintro ⟨params, hparams, htext⟩
    obtain ⟨types, htypes, rfl⟩ := forall_isFieldText_iff.1 hparams
    have hunclosed := takeParams_eq_unclosed_iff.2 ⟨types, htypes, rfl⟩
    exact ⟨_, parse_eq_error_iff.2 (.unclosed htext hunclosed), rfl⟩

theorem reportsEnd (text : String) : ReportsEnd text := by
  constructor
  · intro rest
    exact reports_trailing_iff
  · exact reports_unclosed_iff

end MethodDescriptor

/-- **A descriptor ends by itself.** A well-formed type or void is read from in front of
any text, which is left as it is, so no descriptor continues another one. What is said
of the end of a descriptor of a method is therefore said exactly of the texts that go on
behind one, and of those that end between two parameters. -/
theorem reading_ends_with_descriptor :
    (∀ t : ReturnType, t.WellFormed → ∀ rest : String,
        takeType (t.descriptor ++ rest).toList = .ok (t, rest.toList)) ∧
      PrefixFree (fun cs => IsReturnText cs ∨ IsMethodText cs) ∧
      ∀ text : String, MethodDescriptor.ReportsEnd text := by
  refine ⟨?_, prefixFree_descriptors, MethodDescriptor.reportsEnd⟩
  intro t ht rest
  rw [String.toList_append, ReturnType.descriptor, String.toList_ofList]
  exact takeType_append ht rest.toList

/-- A name that holds parentheses and void ends at its semicolon, and the parameters and
the descriptor around it do not end in it. -/
theorem reading_ends_with_descriptor_named :
    let t : ReturnType := .value (.array (.object ⟨"()V"⟩) 2)
    t.WellFormed ∧
      takeType "[[L()V;J)V".toList = .ok (t, "J)V".toList) ∧
      MethodDescriptor.Reports "([[L()V;)VJ"
        "expected end of method descriptor \"([[L()V;)VJ\", got \"J\" remaining" ∧
      MethodDescriptor.Reports "([[L()V;J"
        "unexpected abrupt ending of method descriptor \"([[L()V;J\"" ∧
      ¬ IsReturnText "[[L()V;J".toList := by
  intro t
  obtain ⟨hreads, hfree, hreports⟩ := reading_ends_with_descriptor
  have ht : t.WellFormed := ⟨by decide, rfl, by decide, by decide⟩
  have hname : IsFieldText "[[L()V;".toList :=
    .mk (by decide : 2 ≤ 255) (.object (by simp : ['(', ')', 'V'] ≠ []) (by simp))
  have hlong : IsFieldText ['J'] := .mk (Nat.zero_le 255) (.base (by simp))
  have hmethod : IsMethodText "([[L()V;)V".toList :=
    .mk (List.forall_mem_singleton.2 hname) .void
  have htrailing := ((hreports "([[L()V;)VJ").trailing "J").2
    ⟨by decide, "([[L()V;)V", hmethod, by decide⟩
  have hunclosed := (hreports "([[L()V;J").unclosed.2
    ⟨["[[L()V;".toList, ['J']],
      List.forall_mem_cons.2 ⟨hname, List.forall_mem_singleton.2 hlong⟩, by decide⟩
  rw [quoted_of_plain (by simp [IsPlain]), quoted_of_plain (by simp [IsPlain])] at htrailing
  rw [quoted_of_plain (by simp [IsPlain])] at hunclosed
  refine ⟨ht, hreads t ht "J)V", htrailing, hunclosed, ?_⟩
  intro hlonger
  exact List.cons_ne_nil _ _ (hfree "[[L()V;".toList ['J'] (.inl (.field hname)) (.inl hlonger))

end SymbolMap
