import SymbolMap.Draft.Build
import SymbolMap.Proofs.Draft.Forest

/-!
# What is wrong with a draft

The problems that building notes are a matter of the drafts alone: they do not
depend on the set that is built, nor on what was noted before. Each draft has its
`problems`, and building puts those of the drafts that it walks over behind the
ones that are noted already.

* `Heading.conclude_eq`: the names and the problems of a heading;
* `MethodDraft.problems`: a method without a descriptor hides those of its
  variables;
* `ClassDraft.problems`: a class is followed by its fields, its methods, and the
  classes nested in it.
-/

namespace SymbolMap

/-! ## Reports in a row -/

namespace Report

/-- What one report notes and behind that what another one notes. -/
def followedBy (r later : Report) : Report :=
  ⟨r.errors ++ later.errors, r.warnings ++ later.warnings⟩

/-- What some reports note, one behind the other. -/
def inOrder (reports : List Report) : Report :=
  ⟨reports.flatMap errors, reports.flatMap warnings⟩

@[simp] theorem followedBy_empty (r : Report) : r.followedBy .empty = r := by
  show Report.mk (r.errors ++ []) (r.warnings ++ []) = r
  rw [List.append_nil, List.append_nil]

@[simp] theorem followedBy_assoc (r s t : Report) :
    (r.followedBy s).followedBy t = r.followedBy (s.followedBy t) := by
  simp only [followedBy, List.append_assoc]

@[simp] theorem inOrder_cons (r : Report) (rest : List Report) :
    inOrder (r :: rest) = r.followedBy (inOrder rest) := rfl

theorem inOrder_append (xs ys : List Report) :
    inOrder (xs ++ ys) = (inOrder xs).followedBy (inOrder ys) := by
  simp only [inOrder, followedBy, List.flatMap_append]

theorem error_eq_followedBy (r : Report) (message : String) (coords : Option Coords) :
    r.error message coords = r.followedBy ⟨[⟨message, coords⟩], []⟩ := by
  show Report.mk _ r.warnings = Report.mk _ (r.warnings ++ [])
  rw [List.append_nil]

theorem warn_eq_followedBy (r : Report) (message : String) (coords : Option Coords) :
    r.warn message coords = r.followedBy ⟨[], [⟨message, coords⟩]⟩ := by
  show Report.mk r.errors _ = Report.mk (r.errors ++ []) _
  rw [List.append_nil]

/-- A warning that is given again and again. -/
theorem repeat_warn_eq_followedBy (r : Report) (message : String) (coords : Option Coords)
    (count : Nat) :
    Nat.repeat (fun r => r.warn message coords) count r =
      r.followedBy ⟨[], List.replicate count ⟨message, coords⟩⟩ := by
  induction count with
  | zero => exact (followedBy_empty r).symm
  | succ n ih =>
    show (Nat.repeat (fun r => r.warn message coords) n r).warn message coords = _
    rw [ih, warn_eq_followedBy, followedBy_assoc, List.replicate_succ']
    rfl

end Report

/-! ## Headings -/

/-- A warning for each empty slot, where missing names are worth one, and an error
if all slots are empty or blank. -/
def Heading.problems (h : Heading) (kind : SymbolKind) : Report where
  errors :=
    if h.names.clearBlanks.isVacant then
      [⟨kind.title ++ " mapping found with no target names", some h.coords⟩]
    else []
  warnings :=
    if kind.wantsNames then
      List.replicate h.names.vacancies
        ⟨kind.title ++ " mapping found without target name", some h.coords⟩
    else []

theorem Heading.conclude_eq (h : Heading) (kind : SymbolKind) (report : Report) :
    h.conclude kind report = (h.names.clearBlanks, report.followedBy (h.problems kind)) := by
  have hwarn : h.warnOfVacancies kind report =
      report.followedBy ⟨[], (h.problems kind).warnings⟩ := by
    unfold warnOfVacancies problems
    by_cases hkind : kind.wantsNames = true
    · simp only [if_pos hkind]
      exact report.repeat_warn_eq_followedBy _ _ _
    · simp only [if_neg hkind]
      exact report.followedBy_empty.symm
  unfold conclude
  simp only [hwarn]
  by_cases hvacant : h.names.clearBlanks.isVacant = true
  · rw [if_pos hvacant, Report.error_eq_followedBy, Report.followedBy_assoc]
    simp [Report.followedBy, problems, hvacant]
  · rw [if_neg hvacant]
    simp [Report.followedBy, problems, hvacant]

/-! ## Members and classes -/

def PackageDraft.problems (p : PackageDraft) : Report := p.toHeading.problems .packages

def FieldDraft.problems (f : FieldDraft) : Report := f.toHeading.problems .fields

def ParamDraft.problems (p : ParamDraft) : Report := p.toHeading.problems .params

/-- Of a local variable without any index nothing else is looked at. -/
def LocalDraft.problems (v : LocalDraft) : Report :=
  if v.index.isKnown then v.toHeading.problems .locals
  else ⟨[⟨"Method local var mapping found without any known indices", some v.coords⟩], []⟩

/-- The problems of all parameters and then of all local variables. -/
def MethodDraft.variableProblems (m : MethodDraft) : Report :=
  (Report.inOrder (m.params.map ParamDraft.problems)).followedBy
    (Report.inOrder (m.locals.map LocalDraft.problems))

/-- Without a descriptor the method is left out, and nothing in it is looked at. -/
def MethodDraft.problems (m : MethodDraft) : Report :=
  (m.toHeading.problems .methods).followedBy
    (match m.descriptor with
    | none => ⟨[⟨"Method mappings must have a descriptor", some m.coords⟩], []⟩
    | some _ => m.variableProblems)

/-- The problems of a class apart from those of the classes nested in it. -/
def ClassDraft.ownProblems (c : ClassDraft) : Report :=
  (c.toHeading.problems .classes).followedBy
    ((Report.inOrder (c.fields.map FieldDraft.problems)).followedBy
      (Report.inOrder (c.methods.map MethodDraft.problems)))

/-- The problems of the packages and then of all classes. -/
def MappingDraft.problems (d : MappingDraft) : Report :=
  (Report.inOrder (d.packages.map PackageDraft.problems)).followedBy
    (Report.inOrder ((ClassDraft.preorder d.classes).map ClassDraft.ownProblems))

end SymbolMap
