import SymbolMap.Format.Lines
import SymbolMap.Proofs.Draft.Regrouping

/-!
# What a file of lines says

A line declares a name, or something is noted about it, or neither. So a file says two
things: the declarations of its lines (`declared`), and what is noted about the lines
that declare nothing (`noted`). They have nothing to do with each other. Following one
line keeps both apart (`exists_follow`), and so does following all of them
(`exists_followAll`).

Behind the header nothing goes wrong (`document_of_header`): the set is the one that
the declarations give by themselves, and what is noted about the other lines stands
in front of what building reports.
-/

namespace SymbolMap.Format.Lines

/-! ## Lines by what they say -/

namespace Statement

/-- The declaration that a line of the given number makes, if it makes one. -/
def declaration? (number : Nat) : Statement → Option Declaration
  | declares subject name => some ⟨some (.base number), 1, subject, name, true⟩
  | _ => none

/-- What is noted about a line. -/
def notes (number : Nat) (line : String) : Statement → Report
  | invalidDescriptor cause =>
    ⟨[⟨"invalid descriptor: " ++ cause.headline, some (.base number 4)⟩], []⟩
  | unknown => ⟨[], [⟨"unknown line " ++ Text.quoted line, some (.base number 1)⟩]⟩
  | _ => .empty

end Statement

/-- The declarations of lines that are numbered from the given number on. -/
def declared (number : Nat) : List String → List Declaration
  | [] => []
  | line :: rest =>
    ((Statement.ofLine line).declaration? number).toList ++ declared (number + 1) rest

/-- What is noted about lines that are numbered from the given number on. -/
def noted (number : Nat) : List String → Report
  | [] => .empty
  | line :: rest =>
    ((Statement.ofLine line).notes number line).followedBy (noted (number + 1) rest)

/-! ## Following lines -/

section Following

variable {start d : MappingDraft} {cs : List Declaration}

open MappingDraft (Declares)

/-- What is reported does not tell which classes there are. -/
theorem declares_withReport (h : Declares start cs d) (r : Report) :
    Declares { start with report := r } cs { d with report := r } :=
  ⟨h.recalls, by rw [h.eq_with]⟩

/-- What a line declares is added to the declarations, and what is noted about it to the
report. -/
theorem exists_follow (h : Declares start cs d) (hns : 1 < start.namespaces.length)
    (number : Nat) (line : String) :
    ∃ e, follow d number line = .ok e ∧
      Declares
        { start with report :=
            start.report.followedBy ((Statement.ofLine line).notes number line) }
        (cs ++ ((Statement.ofLine line).declaration? number).toList) e := by
  have hreport : d.report = start.report := by rw [h.eq_with]
  unfold follow
  cases Statement.ofLine line with
  | nothing =>
    refine ⟨d, rfl, ?_⟩
    show Declares { start with report := start.report.followedBy .empty } (cs ++ []) d
    rw [Report.followedBy_empty, List.append_nil]
    exact h
  | declares subject name =>
    obtain ⟨e, he, hdeclares⟩ := h.apply hns ⟨some (.base number), 1, subject, name, true⟩
    refine ⟨e, he, ?_⟩
    show Declares { start with report := start.report.followedBy .empty } _ e
    rw [Report.followedBy_empty]
    exact hdeclares
  | invalidDescriptor cause =>
    refine ⟨_, rfl, ?_⟩
    rw [MappingDraft.error, Report.error_eq_followedBy, hreport]
    show Declares _ (cs ++ []) _
    rw [List.append_nil]
    exact declares_withReport h _
  | unknown =>
    refine ⟨_, rfl, ?_⟩
    rw [MappingDraft.warn, Report.warn_eq_followedBy, hreport]
    show Declares _ (cs ++ []) _
    rw [List.append_nil]
    exact declares_withReport h _

/-- So do all lines, one after the other. -/
theorem exists_followAll (lines : List String) (h : Declares start cs d)
    (hns : 1 < start.namespaces.length) (number : Nat) :
    ∃ e, followAll d number lines = .ok e ∧
      Declares { start with report := start.report.followedBy (noted number lines) }
        (cs ++ declared number lines) e := by
  induction lines generalizing number start cs d with
  | nil =>
    refine ⟨d, rfl, ?_⟩
    show Declares { start with report := start.report.followedBy .empty } (cs ++ []) d
    rw [Report.followedBy_empty, List.append_nil]
    exact h
  | cons line rest ih =>
    obtain ⟨next, hnext, hdeclares⟩ := exists_follow h hns number line
    obtain ⟨e, he, hrest⟩ := ih hdeclares hns (number + 1)
    refine ⟨e, ?_, ?_⟩
    · show (follow d number line >>= fun d => followAll d (number + 1) rest) = _
      rw [hnext]
      exact he
    · rw [List.append_assoc, Report.followedBy_assoc] at hrest
      exact hrest

end Following

/-! ## Files -/

section Files

variable {header format fileName text : String} {bytes : ByteArray} {id : SetId}
  {rest : List String}

/-- A draft is built to the same set whatever is noted in it and whatever it remembers, and
what is noted stands in front of what building reports. -/
theorem build_withReport {d : MappingDraft} (hd : d.WellFormed) (r : Report)
    (recent : Option (Recent (Spelled ClassName))) (id : SetId) :
    DocumentDraft.build ⟨{ d with report := r, recent }, format, fileName⟩ id =
      .ok ⟨d.declared id, ⟨fileName, format, r.errors ++ d.problems.errors,
        r.warnings ++ d.problems.warnings⟩⟩ := by
  have hwell : MappingDraft.WellFormed { d with report := r, recent } :=
    ⟨hd.valid, hd.packages, hd.classes⟩
  unfold DocumentDraft.build
  rw [MappingDraft.build_eq hwell]
  rfl

/-- A text that starts with the header is read, whatever stands behind it. The set is the one that
the declarations give by themselves, and the report has what is noted about the lines that declare
nothing, and then what is found when the set is built. -/
theorem document_of_header (htext : String.fromUTF8? bytes = some text)
    (hlines : (text.toList.splitOn '\n').map String.ofList = header :: rest) :
    ∃ start d s report, MappingDraft.create [] = .ok start ∧
      (declared 2 rest).foldlM MappingDraft.apply start = .ok d ∧
      d.build id = .ok (s, report) ∧
      document header format id fileName bytes = some ⟨s, ⟨fileName, format,
        (noted 2 rest).errors ++ report.errors, (noted 2 rest).warnings ++ report.warnings⟩⟩ := by
  obtain ⟨start, hstart⟩ : ∃ start, MappingDraft.create [] = .ok start := ⟨_, rfl⟩
  obtain ⟨namespaces, hvalid, hnew⟩ := MappingDraft.create_eq_ok hstart
  have hns : 1 < start.namespaces.length := by
    rw [hnew]
    exact Namespace.one_lt_length_of_validNames hvalid
  obtain ⟨d, hrun, hd⟩ := MappingDraft.exists_declares hstart (declared 2 rest)
  obtain ⟨e, hread, he⟩ := exists_followAll rest (MappingDraft.declares_nil hstart) hns 2
  -- what is read differs from what is declared in the report and in what it remembers
  have hsame : e = { d with report := noted 2 rest, recent := e.recent } := by
    rw [he.eq_with, hd.eq_with, hnew]
    rfl
  have hwell := hd.wellFormed hstart
  have hreport : d.report = .empty := by rw [hd.eq_with, hnew]
  have hcreate : DocumentDraft.create format fileName [] = .ok ⟨start, format, fileName⟩ := by
    unfold DocumentDraft.create
    rw [hstart]
    rfl
  refine ⟨start, d, d.declared id, d.problems, hstart, hrun, ?_, ?_⟩
  · rw [MappingDraft.build_eq hwell id, hreport]
    rfl
  · unfold document
    rw [htext, Option.bind_eq_bind, Option.bind_some, hlines]
    simp only [if_true]
    rw [hcreate]
    show ((followAll start 2 rest >>= _) : Except MappingError Document).toOption = _
    rw [hread]
    show (DocumentDraft.build ⟨e, format, fileName⟩ id).toOption = _
    rw [hsame, build_withReport hwell]
    rfl

/-- A file is read if it is a text that starts with the header, and in no other case. -/
theorem document_isSome_iff :
    (document header format id fileName bytes).isSome ↔
      ∃ text rest, String.fromUTF8? bytes = some text ∧
        (text.toList.splitOn '\n').map String.ofList = header :: rest := by
  constructor
  · intro h
    unfold document at h
    cases htext : String.fromUTF8? bytes with
    | none =>
      rw [htext] at h
      cases h
    | some text =>
      rw [htext, Option.bind_eq_bind, Option.bind_some] at h
      refine ⟨text, ?_⟩
      split at h
      · rename_i first rest hlines
        split at h
        · rename_i hfirst
          exact ⟨rest, rfl, hfirst ▸ hlines⟩
        · cases h
      · cases h
  · rintro ⟨text, rest, htext, hlines⟩
    obtain ⟨_, _, _, _, _, _, _, hdocument⟩ := document_of_header htext hlines
    rw [hdocument]
    rfl

end Files

end SymbolMap.Format.Lines
