import SymbolMap.Proofs.Draft.DeclaredNames
import SymbolMap.Proofs.MappingSet.Growth

/-!
# Which name gets into a set

Building a draft puts an element behind those of its kind that are there already, or leaves
it out: a method without a descriptor, a local variable without an index, or a variable that
does not prevail over one in its place. What is put there has the names of the draft but for
the blank ones.

So the names of an element are told by the names that were given to its draft
(`declared_names_prevail`). A blank name takes part in this like any other one: it keeps
later names out of its slot that may not overwrite it, and only then is gone.
-/

namespace SymbolMap

/-! ## What building stores -/

/-- Building the package has put the element behind the packages that were there. -/
def PackageDraft.Stored (p : PackageDraft) (e : Element) : Prop :=
  ∃ (b c : Build) (x : Package), p.build b = .ok c ∧
    c.set.packages.get? b.set.packages.size = some x ∧ x.toElement = e

/-- Building the class has put the element behind the classes that were there. -/
def ClassDraft.Stored (d : ClassDraft) (e : Element) : Prop :=
  ∃ (parent : Option ClassId) (b c : Build) (x : Class), ClassDraft.build parent b d = .ok c ∧
    c.set.classes.get? b.set.classes.size = some x ∧ x.toElement = e

/-- Building the field has put the element behind the fields that its class had. -/
def FieldDraft.Stored (f : FieldDraft) (e : Element) : Prop :=
  ∃ (owner : ClassId) (b c : Build) (before after : Class) (x : Field), f.build owner b = .ok c ∧
    b.set.class? owner = some before ∧ c.set.class? owner = some after ∧
    after.fields[before.fields.length]? = some x ∧ x.toElement = e

/-- Building the method has put the element behind the methods that its class had. -/
def MethodDraft.Stored (m : MethodDraft) (e : Element) : Prop :=
  ∃ (owner : ClassId) (b c : Build) (before after : Class) (x : Method),
    m.build owner b = .ok c ∧
    b.set.class? owner = some before ∧ c.set.class? owner = some after ∧
    after.methods[before.methods.length]? = some x ∧ x.toElement = e

/-- Building the parameter has given its method the element. -/
def ParamDraft.Stored (p : ParamDraft) (e : Element) : Prop :=
  ∃ (b c : MethodBuild) (x : Param), p.build b = .ok c ∧
    x ∈ c.method.params ∧ x ∉ b.method.params ∧ x.toElement = e

/-- Building the local variable has given its method the element. -/
def LocalDraft.Stored (v : LocalDraft) (e : Element) : Prop :=
  ∃ (b c : MethodBuild) (x : LocalVar), v.build b = .ok c ∧
    x ∈ c.method.locals ∧ x ∉ b.method.locals ∧ x.toElement = e

section Stored

variable {e : Element}

theorem PackageDraft.names_of_stored {p : PackageDraft} (h : p.Stored e) :
    e.names = p.names.clearBlanks := by
  obtain ⟨b, c, x, hbuild, hat, rfl⟩ := h
  unfold PackageDraft.build at hbuild
  rw [Heading.conclude_eq] at hbuild
  obtain ⟨⟨_, set⟩, hadd, hc⟩ := exists_of_bind_eq_ok hbuild
  cases hc
  obtain ⟨rfl, _⟩ := MappingSet.addPackage_eq_ok hadd
  rw [Table.get?_push, if_pos rfl] at hat
  cases hat
  rfl

/-- What is built behind the class itself leaves its names. -/
theorem ClassDraft.names_of_stored {d : ClassDraft} (h : d.Stored e) :
    e.names = d.names.clearBlanks := by
  obtain ⟨parent, b, c, x, hbuild, hat, rfl⟩ := h
  obtain ⟨id, set, withMembers, hadd, hgrows, hinner⟩ := ClassDraft.exists_of_build hbuild
  rw [Heading.conclude_eq] at hadd
  have hextends : set.Extends c.set :=
    (ClassDraft.grows_of_buildAll d.inner (some id) withMembers c hgrows hinner).extends
  obtain ⟨rfl, _⟩ := MappingSet.addClass_eq_ok hadd
  obtain ⟨y, hy, hremains⟩ := hextends.classes b.set.classes.size _
    ((Table.get?_push _ _ _).trans (if_pos rfl))
  cases hat.symm.trans hy
  exact hremains.names

theorem FieldDraft.names_of_stored {f : FieldDraft} (h : f.Stored e) :
    e.names = f.names.clearBlanks := by
  obtain ⟨owner, b, c, before, after, x, hbuild, hbefore, hafter, hat, rfl⟩ := h
  unfold FieldDraft.build at hbuild
  rw [Heading.conclude_eq] at hbuild
  obtain ⟨⟨_, set⟩, hadd, hc⟩ := exists_of_bind_eq_ok hbuild
  cases hc
  obtain ⟨own, edited, hown, hedit, rfl⟩ := MappingSet.addField_eq_ok hadd
  cases hbefore.symm.trans hown
  obtain ⟨_, hnames, _, rfl⟩ := Class.insertField_eq_ok hedit
  cases hafter.symm.trans (MappingSet.class?_withClass hown _)
  rw [List.getElem?_concat_length] at hat
  cases hat
  exact hnames

/-- A method that has no descriptor is not stored. -/
theorem MethodDraft.names_of_stored {m : MethodDraft} (h : m.Stored e) :
    e.names = m.names.clearBlanks := by
  obtain ⟨owner, b, c, before, after, x, hbuild, hbefore, hafter, hat, rfl⟩ := h
  rcases MethodDraft.cases_of_build hbuild with ⟨_, hset⟩ | ⟨descriptor, fill, hfill, hadd⟩
  · rw [hset] at hafter
    cases hbefore.symm.trans hafter
    simp at hat
  · rw [Heading.conclude_eq] at hadd
    obtain ⟨own, edited, hown, hedit, hset⟩ := MappingSet.addMethod_eq_ok hadd
    cases hbefore.symm.trans hown
    obtain ⟨_, new, filled, _, hnames, _, hgrows, rfl⟩ :=
      Class.insertMethod_eq_ok (Method.grows_ofResult hfill) hedit
    rw [hset, MappingSet.class?_withClass hown] at hafter
    cases hafter
    rw [List.getElem?_concat_length] at hat
    cases hat
    rw [hgrows.eq_with]
    exact hnames

theorem ParamDraft.names_of_stored {p : ParamDraft} (h : p.Stored e) :
    e.names = p.names.clearBlanks := by
  obtain ⟨b, c, x, hbuild, hafter, hbefore, rfl⟩ := h
  unfold ParamDraft.build at hbuild
  rw [Heading.conclude_eq] at hbuild
  obtain ⟨⟨_, method⟩, hadd, hc⟩ := exists_of_bind_eq_ok hbuild
  cases hc
  obtain ⟨_, _, new, hnames, _, hsettle⟩ := Method.addParam_eq_ok hadd
  have hparams : method.params = (settle (·.index == p.index) new b.method.params).2 := by
    rw [hsettle]
  rcases mem_of_mem_settle (hparams ▸ hafter) with hold | rfl
  · exact absurd hold hbefore
  · exact hnames

theorem LocalDraft.names_of_stored {v : LocalDraft} (h : v.Stored e) :
    e.names = v.names.clearBlanks := by
  obtain ⟨b, c, x, hbuild, hafter, hbefore, rfl⟩ := h
  unfold LocalDraft.build at hbuild
  split at hbuild
  · rw [Heading.conclude_eq] at hbuild
    obtain ⟨⟨_, method⟩, hadd, hc⟩ := exists_of_bind_eq_ok hbuild
    cases hc
    obtain ⟨_, _, _, new, hnames, _, _, hsettle⟩ := Method.addLocal_eq_ok hadd
    have hlocals : method.locals = (settle (·.fits new.index) new b.method.locals).2 := by
      rw [hsettle]
    rcases mem_of_mem_settle (hlocals ▸ hafter) with hold | rfl
    · exact absurd hold hbefore
    · exact hnames
  · cases hbuild
    exact absurd hafter hbefore

end Stored

/-! ## From the first command to the set -/

/-- What is true of a draft after some commands: which names it refuses, that a refused
command changes nothing, that the name of a namespace stands for its position, which names
the slots hold, and which of them an element has that is stored for it. -/
structure NamesAsDeclared {δ : Type} [Draft δ] (namespaces : List String)
    (Stored : δ → Element → Prop) (commands : List HeadingCommand) (d : δ) : Prop where
  assign : ∀ ns name overwrite,
    (∃ e, Draft.assign d ns name overwrite = .error e) ↔ namespaces.length ≤ ns
  assignBy : ∀ space name overwrite,
    (∃ e, Draft.assignBy d space name overwrite = .error e) ↔ space ∉ namespaces
  refused : ∀ command : HeadingCommand, command.Refused namespaces → command.run d = d
  position : ∀ i space name overwrite, namespaces[i]? = some space →
    Draft.assignBy d space name overwrite = Draft.assign d i name overwrite
  slots : ∀ ns, Draft.name? d ns = declaredName namespaces commands ns
  stored : ∀ e, Stored d e → ∀ ns,
    e.name? ns = (declaredName namespaces commands ns).filter fun name => !Text.allBlank name

/-- Drafts of one kind that start with empty slots have the names that are declared, whatever
the commands are. -/
def AlwaysNamesAsDeclared {δ : Type} [Draft δ] (namespaces : List String)
    (Stored : δ → Element → Prop) : Prop :=
  ∀ (start : δ) (coords : Coords) (commands : List HeadingCommand),
    Draft.heading start = .blank namespaces coords →
      NamesAsDeclared namespaces Stored commands (commands.foldl HeadingCommand.run start)

/-- All but what is stored is told by the heading, whichever kind of draft it is. -/
theorem alwaysNamesAsDeclared_of_stored {δ : Type} [Draft δ] {namespaces : List String}
    {Stored : δ → Element → Prop} (hnodup : namespaces.Nodup)
    (hstored : ∀ d e, Stored d e → e.names = (Draft.heading d).names.clearBlanks) :
    AlwaysNamesAsDeclared namespaces Stored := by
  intro start coords commands hstart
  have hslots := Draft.name?_runAll hstart hnodup commands
  have haligned := Draft.aligned_runAll (hstart ▸ Heading.aligned_blank _ _) commands
  generalize commands.foldl HeadingCommand.run start = d at hslots haligned
  have hspaces : (Draft.heading d).namespaces = namespaces := haligned.spaces
  have hassign : ∀ ns name overwrite,
      (∃ e, Draft.assign d ns name overwrite = .error e) ↔ namespaces.length ≤ ns := by
    intro ns name overwrite
    rw [Draft.exists_error_assign_iff, haligned.size]
  have hposition : ∀ i space name overwrite, namespaces[i]? = some space →
      Draft.assignBy d space name overwrite = Draft.assign d i name overwrite := by
    intro i space name overwrite hi
    exact Draft.assignBy_of_getElem? (hspaces ▸ hnodup) (hspaces ▸ hi) name overwrite
  refine ⟨hassign, ?_, fun _ => HeadingCommand.run_of_refused haligned, hposition, hslots, ?_⟩
  · intro space name overwrite
    constructor
    · -- the name of a namespace is at some position, where no name is refused
      intro herror hmem
      obtain ⟨i, hi⟩ := List.getElem?_of_mem hmem
      rw [hposition i space name overwrite hi, hassign] at herror
      exact Nat.not_lt_of_le herror (List.getElem?_eq_some_iff.1 hi).1
    · intro hnot
      exact Draft.exists_error_assignBy_of_not_mem (hspaces ▸ hnot)
  · intro e he ns
    unfold Element.name?
    rw [hstored d e he, NameRow.get?_clearBlanks, ← hslots ns]
    rfl

/-- **Which declared name prevails.** Over namespaces that differ, a draft of any kind that
starts with empty slots ends up with the last name that was given for a namespace to
overwrite others, or else with the first one that was given for it. What is stored for the
draft has this name, unless it is blank. -/
theorem declared_names_prevail {namespaces : List String} (h : namespaces.Nodup) :
    AlwaysNamesAsDeclared namespaces PackageDraft.Stored ∧
      AlwaysNamesAsDeclared namespaces ClassDraft.Stored ∧
      AlwaysNamesAsDeclared namespaces FieldDraft.Stored ∧
      AlwaysNamesAsDeclared namespaces MethodDraft.Stored ∧
      AlwaysNamesAsDeclared namespaces ParamDraft.Stored ∧
      AlwaysNamesAsDeclared namespaces LocalDraft.Stored :=
  ⟨alwaysNamesAsDeclared_of_stored h fun _ _ => PackageDraft.names_of_stored,
    alwaysNamesAsDeclared_of_stored h fun _ _ => ClassDraft.names_of_stored,
    alwaysNamesAsDeclared_of_stored h fun _ _ => FieldDraft.names_of_stored,
    alwaysNamesAsDeclared_of_stored h fun _ _ => MethodDraft.names_of_stored,
    alwaysNamesAsDeclared_of_stored h fun _ _ => ParamDraft.names_of_stored,
    alwaysNamesAsDeclared_of_stored h fun _ _ => LocalDraft.names_of_stored⟩

/-- A parameter of two namespaces. In the first one, a blank name keeps a later one out, so
the parameter that is stored has no name there. -/
theorem declared_names_prevail_param :
    let coords : Coords := ⟨some 1, 1, .base⟩
    let start := ParamDraft.blank ["a", "b"] coords 0
    let commands : List HeadingCommand :=
      [.assign 0 " " false, .assignBy "b" "y" true, .assign 2 "w" true, .assignBy "a" "x" false,
        .assign 1 "z" false, .assignBy "c" "w" true]
    let method : Method :=
      ⟨⟨.vacant 2, .unknown⟩, .none, ⟨⟨⟨0⟩, 0⟩, 0⟩, ⟨[], .void⟩, .unknown⟩
    let p := commands.foldl HeadingCommand.run start
    ["a", "b"].Nodup ∧ Draft.heading start = .blank ["a", "b"] coords ∧
      (∃ e, Draft.assign p 2 "w" true = .error e) ∧
      (∃ e, Draft.assignBy p "c" "w" true = .error e) ∧
      Draft.name? p 0 = some " " ∧ Draft.name? p 1 = some "y" ∧
      ∃ (c : MethodBuild) (x : Param), p.build ⟨method, .empty⟩ = .ok c ∧
        c.method.params = [x] ∧ x.name? 0 = none ∧ x.name? 1 = some "y" := by
  intro coords start commands method p
  have hnodup : ["a", "b"].Nodup := by decide
  obtain ⟨-, -, -, -, hparams, -⟩ := declared_names_prevail hnodup
  have hp : NamesAsDeclared ["a", "b"] ParamDraft.Stored commands p :=
    hparams start coords commands rfl
  let x : Param := p.element method.id
  have hparam : (p.build ⟨method, .empty⟩).toOption.map (·.method.params) = some [x] := by
    decide +kernel
  obtain ⟨c, hbuild, hafter⟩ : ∃ c, p.build ⟨method, .empty⟩ = .ok c ∧ c.method.params = [x] := by
    cases hbuild : p.build ⟨method, .empty⟩ with
    | error e =>
      rw [hbuild] at hparam
      cases hparam
    | ok c =>
      rw [hbuild] at hparam
      exact ⟨c, rfl, Option.some.inj hparam⟩
  have hstored : ParamDraft.Stored p x.toElement := by
    refine ⟨_, c, x, hbuild, ?_, List.not_mem_nil, rfl⟩
    rw [hafter]
    exact List.mem_singleton_self x
  have hnames := hp.stored x.toElement hstored
  exact ⟨hnodup, rfl, (hp.assign 2 "w" true).2 (Nat.le_refl 2),
    (hp.assignBy "c" "w" true).2 (by decide), (hp.slots 0).trans (by decide +kernel),
    (hp.slots 1).trans (by decide +kernel), c, x, hbuild, hafter,
    (hnames 0).trans (by decide +kernel), (hnames 1).trans (by decide +kernel)⟩

end SymbolMap
