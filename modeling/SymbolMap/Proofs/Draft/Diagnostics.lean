import SymbolMap.Proofs.Draft.Building

/-!
# All that building reports

What building has to say is told by the drafts alone. A draft is a `Site`; the
sites of a draft of a set are listed in the order in which a reader meets them,
and each of them has its own errors and warnings. Building reports those, one
site after the other, and nothing else (`build_reports_sites`).

A method without a descriptor is a site, but what is declared in it is not.
-/

namespace SymbolMap

/-! ## What a heading lacks -/

namespace Heading

/-- No slot holds more than white space. -/
def Nameless (h : Heading) : Prop :=
  ∀ slot ∈ h.names.slots, ∀ name ∈ slot, Text.allBlank name = true

instance (h : Heading) : Decidable h.Nameless :=
  inferInstanceAs (Decidable (∀ slot ∈ h.names.slots, ∀ name ∈ slot, Text.allBlank name = true))

/-- The one error of a heading without names. -/
def namelessErrors (h : Heading) (kind : SymbolKind) : List Problem :=
  if h.Nameless then [⟨kind.title ++ " mapping found with no target names", some h.coords⟩] else []

/-- A warning for each empty slot. A slot that holds a blank name is not empty. -/
def vacancyWarnings (h : Heading) (kind : SymbolKind) : List Problem :=
  (h.names.slots.filter Option.isNone).map fun _ =>
    ⟨kind.title ++ " mapping found without target name", some h.coords⟩

theorem isVacant_clearBlanks_iff (h : Heading) :
    h.names.clearBlanks.isVacant = true ↔ h.Nameless := by
  have hslot : ∀ slot : Option String,
      (slot.filter fun name => !Text.allBlank name).isNone = true ↔
        ∀ name ∈ slot, Text.allBlank name = true := by
    intro slot
    cases slot with
    | none => simp
    | some name => simp
  simp only [NameRow.isVacant, NameRow.clearBlanks, Nameless, List.all_map, List.all_eq_true,
    Function.comp_apply, hslot]

/-- Warnings that are told by counting the empty slots are told slot by slot. -/
theorem problems_eq (h : Heading) (kind : SymbolKind) :
    h.problems kind =
      ⟨h.namelessErrors kind, if kind.wantsNames then h.vacancyWarnings kind else []⟩ := by
  have hcount : List.replicate h.names.vacancies
      (⟨kind.title ++ " mapping found without target name", some h.coords⟩ : Problem) =
        h.vacancyWarnings kind := by
    unfold vacancyWarnings NameRow.vacancies
    rw [List.map_const', List.countP_eq_length_filter]
  unfold problems namelessErrors
  simp only [hcount, isVacant_clearBlanks_iff]

end Heading

/-! ## Sites -/

/-- A draft that building looks at. -/
inductive Site where
  | ofPackage (p : PackageDraft)
  | ofClass (c : ClassDraft)
  | ofField (f : FieldDraft)
  | ofMethod (m : MethodDraft)
  | ofParam (p : ParamDraft)
  | ofLocal (v : LocalDraft)

namespace Site

/-- The errors of one draft, apart from those of the drafts inside of it. -/
def errors : Site → List Problem
  | ofPackage p => p.namelessErrors .packages
  | ofClass c => c.namelessErrors .classes
  | ofField f => f.namelessErrors .fields
  | ofMethod m =>
    m.namelessErrors .methods ++
      match m.descriptor with
      | none => [⟨"Method mappings must have a descriptor", some m.coords⟩]
      | some _ => []
  | ofParam p => p.namelessErrors .params
  | ofLocal v =>
    if v.index.isKnown then v.namelessErrors .locals
    else [⟨"Method local var mapping found without any known indices", some v.coords⟩]

/-- The warnings of one draft, apart from those of the drafts inside of it.
Variables need no names. -/
def warnings : Site → List Problem
  | ofPackage p => p.vacancyWarnings .packages
  | ofClass c => c.vacancyWarnings .classes
  | ofField f => f.vacancyWarnings .fields
  | ofMethod m => m.vacancyWarnings .methods
  | ofParam _ | ofLocal _ => []

/-- What some sites have to say, one behind the other. -/
def report (sites : List Site) : Report := ⟨sites.flatMap errors, sites.flatMap warnings⟩

theorem report_cons (x : Site) (rest : List Site) :
    report (x :: rest) = Report.followedBy ⟨x.errors, x.warnings⟩ (report rest) := rfl

theorem report_append (xs ys : List Site) :
    report (xs ++ ys) = (report xs).followedBy (report ys) := by
  simp only [report, Report.followedBy, List.flatMap_append]

/-- Drafts beside each other, each a single site. -/
theorem report_map {δ : Type} {site : δ → Site} {problems : δ → Report}
    (h : ∀ d, problems d = ⟨(site d).errors, (site d).warnings⟩) (drafts : List δ) :
    report (drafts.map site) = .inOrder (drafts.map problems) := by
  induction drafts with
  | nil => rfl
  | cons d rest ih => rw [List.map_cons, report_cons, ih, ← h, List.map_cons, Report.inOrder_cons]

/-- Drafts beside each other, each with sites of its own. -/
theorem report_flatMap {δ : Type} {sites : δ → List Site} {problems : δ → Report}
    (h : ∀ d, problems d = report (sites d)) (drafts : List δ) :
    report (drafts.flatMap sites) = .inOrder (drafts.map problems) := by
  induction drafts with
  | nil => rfl
  | cons d rest ih =>
    rw [List.flatMap_cons, report_append, ih, ← h, List.map_cons, Report.inOrder_cons]

end Site

/-! ## The walk over a draft -/

/-- A method in front of its parameters, and those in front of its local variables.
Without a descriptor it hides them. -/
def MethodDraft.sites (m : MethodDraft) : List Site :=
  .ofMethod m ::
    match m.descriptor with
    | none => []
    | some _ => m.params.map .ofParam ++ m.locals.map .ofLocal

mutual

/-- A class in front of its fields, those in front of its methods, and those in
front of its inner classes. -/
def ClassDraft.sites : ClassDraft → List Site
  | ⟨heading, fields, methods, inner, recent⟩ =>
    .ofClass ⟨heading, fields, methods, inner, recent⟩ ::
      (fields.map .ofField ++ (methods.flatMap MethodDraft.sites ++ ClassDraft.allSites inner))

/-- Classes beside each other, each with all that is inside of it. -/
def ClassDraft.allSites : List ClassDraft → List Site
  | [] => []
  | c :: rest => c.sites ++ allSites rest

end

/-- The packages and then the classes. -/
def MappingDraft.sites (d : MappingDraft) : List Site :=
  d.packages.map .ofPackage ++ ClassDraft.allSites d.classes

theorem ClassDraft.sites_eq (c : ClassDraft) :
    c.sites = .ofClass c ::
      (c.fields.map .ofField ++ (c.methods.flatMap MethodDraft.sites ++ allSites c.inner)) := by
  cases c
  rfl

/-! ## The problems of a draft are those of its sites -/

theorem LocalDraft.problems_eq (v : LocalDraft) :
    v.problems = ⟨(Site.ofLocal v).errors, (Site.ofLocal v).warnings⟩ := by
  by_cases hknown : v.index.isKnown = true
  · simp [problems, Site.errors, Site.warnings, hknown, Heading.problems_eq, SymbolKind.wantsNames]
  · simp [problems, Site.errors, Site.warnings, hknown]

theorem MethodDraft.problems_eq (m : MethodDraft) : m.problems = Site.report m.sites := by
  have hheading : m.toHeading.problems .methods =
      ⟨m.namelessErrors .methods, m.vacancyWarnings .methods⟩ := m.toHeading.problems_eq .methods
  unfold problems sites
  rw [hheading, Site.report_cons]
  cases hdescriptor : m.descriptor with
  | none => simp [Site.errors, Site.warnings, Site.report, Report.followedBy, hdescriptor]
  | some descriptor =>
    have hparams : Site.report (m.params.map .ofParam) =
        .inOrder (m.params.map ParamDraft.problems) :=
      Site.report_map (fun p => p.toHeading.problems_eq .params) m.params
    have hlocals : Site.report (m.locals.map .ofLocal) =
        .inOrder (m.locals.map LocalDraft.problems) :=
      Site.report_map LocalDraft.problems_eq m.locals
    simp only [Site.errors, Site.warnings, hdescriptor, List.append_nil, Site.report_append,
      hparams, hlocals]
    rfl

/-- A walk over the classes alone, with the members of each class looked at on
the way, meets all sites in order. -/
theorem ClassDraft.problems_eq (forest : List ClassDraft) :
    .inOrder ((preorder forest).map ownProblems) = Site.report (allSites forest) := by
  induction forest using forest_induction with
  | nil => rfl
  | cons c rest ihinner ihrest =>
    have hheading : c.toHeading.problems .classes =
        ⟨c.namelessErrors .classes, c.vacancyWarnings .classes⟩ := c.toHeading.problems_eq .classes
    have hfields : Site.report (c.fields.map .ofField) =
        .inOrder (c.fields.map FieldDraft.problems) :=
      Site.report_map (fun f => f.toHeading.problems_eq .fields) c.fields
    have hmethods : Site.report (c.methods.flatMap MethodDraft.sites) =
        .inOrder (c.methods.map MethodDraft.problems) :=
      Site.report_flatMap MethodDraft.problems_eq c.methods
    have hall : allSites (c :: rest) = c.sites ++ allSites rest := rfl
    rw [preorder_cons, List.map_cons, List.map_append, Report.inOrder_cons, Report.inOrder_append,
      ihinner, ihrest, hall, sites_eq, Site.report_append, Site.report_cons, Site.report_append,
      Site.report_append, hfields, hmethods]
    simp only [ownProblems, hheading, Report.followedBy_assoc]
    rfl

theorem MappingDraft.problems_eq (d : MappingDraft) : d.problems = Site.report d.sites := by
  have hpackages : Site.report (d.packages.map .ofPackage) =
      .inOrder (d.packages.map PackageDraft.problems) :=
    Site.report_map (fun p => p.toHeading.problems_eq .packages) d.packages
  unfold problems sites
  rw [Site.report_append, hpackages, ClassDraft.problems_eq]

end SymbolMap
