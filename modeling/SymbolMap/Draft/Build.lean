import SymbolMap.Draft.Mapping
import SymbolMap.MappingSet.Basic

/-!
# From drafts to sets

Building adds the packages to a new set and then the classes, each with its members and after those
its inner classes, all in the order of their declaration. Blank names do not get into the set. What
is incomplete is reported and kept if the set can hold it: a method needs a descriptor, and a local
variable needs an index.
-/

namespace SymbolMap

/-! ## Names -/

/-- What a draft is called in reports. -/
def SymbolKind.title : SymbolKind → String
  | packages => "Package"
  | classes => "Class"
  | fields => "Field"
  | methods => "Method"
  | params => "Method parameter"
  | locals => "Method local var"

/-- Whether each missing name is worth a warning. Variables often go without names. -/
def SymbolKind.wantsNames : SymbolKind → Bool
  | params | locals => false
  | _ => true

/-- Warns of each empty slot of a draft. A slot that holds a blank name is not empty. -/
def Heading.warnOfVacancies (h : Heading) (kind : SymbolKind) (report : Report) : Report :=
  if kind.wantsNames then
    Nat.repeat
      (fun r => r.warn (kind.title ++ " mapping found without target name") (some h.coords))
      h.names.vacancies report
  else report

/-- The names that the element of a draft gets, and the report with what is wrong with them. A draft
whose slots are all empty or blank is an error. -/
def Heading.conclude (h : Heading) (kind : SymbolKind) (report : Report) : NameRow × Report :=
  let report := h.warnOfVacancies kind report
  if h.names.clearBlanks.isVacant then
    (h.names.clearBlanks,
      report.error (kind.title ++ " mapping found with no target names") (some h.coords))
  else (h.names.clearBlanks, report)

/-! ## Elements -/

/-- The set as far as it is built, and the problems noted so far. -/
structure Build where
  set : MappingSet
  report : Report

/-- A method as far as it is filled, and the problems noted so far. -/
structure MethodBuild where
  method : Method
  report : Report

/-- Adds a parameter to its method. -/
def ParamDraft.build (p : ParamDraft) (b : MethodBuild) : Except MappingError MethodBuild := do
  let (names, report) := p.conclude .params b.report
  let (_, method) ← b.method.addParam names (.file p.coords) p.index p.table p.type
  return ⟨method, report⟩

/-- Adds a local variable to its method. One without any index is reported and left out. -/
def LocalDraft.build (v : LocalDraft) (b : MethodBuild) : Except MappingError MethodBuild :=
  if v.index.isKnown then do
    let (names, report) := v.conclude .locals b.report
    let (_, method) ← b.method.addLocal names (.file v.coords) v.index v.type
    return ⟨method, report⟩
  else
    .ok ⟨b.method, b.report.error "Method local var mapping found without any known indices"
      (some v.coords)⟩

/-- Adds the parameters and then the local variables of a draft to its method. -/
def MethodDraft.fill (m : MethodDraft) (b : MethodBuild) : Except MappingError MethodBuild := do
  let b ← m.params.foldlM (fun b p => p.build b) b
  m.locals.foldlM (fun b v => v.build b) b

/-- Adds a method to its class. One without a descriptor is reported and left out together with all
that it holds. -/
def MethodDraft.build (m : MethodDraft) (owner : ClassId) (b : Build) :
    Except MappingError Build := do
  let (names, report) := m.conclude .methods b.report
  match m.descriptor with
  | none =>
    return ⟨b.set, report.error "Method mappings must have a descriptor" (some m.coords)⟩
  | some descriptor =>
    let (report, set) ← b.set.addMethod owner names (.file m.coords) descriptor m.flags
      fun method => do
        let filled ← m.fill ⟨method, report⟩
        return (filled.report, filled.method)
    return ⟨set, report⟩

/-- Adds a field to its class. -/
def FieldDraft.build (f : FieldDraft) (owner : ClassId) (b : Build) :
    Except MappingError Build := do
  let (names, report) := f.conclude .fields b.report
  let (_, set) ← b.set.addField owner names (.file f.coords) f.type f.flags
  return ⟨set, report⟩

/-- Adds a package. -/
def PackageDraft.build (p : PackageDraft) (b : Build) : Except MappingError Build := do
  let (names, report) := p.conclude .packages b.report
  let (_, set) ← b.set.addPackage names (.file p.coords)
  return ⟨set, report⟩

mutual

/-- Adds a class, then its members, then its inner classes. -/
def ClassDraft.build (parent : Option ClassId) (b : Build) :
    ClassDraft → Except MappingError Build
  | ⟨heading, fields, methods, inner, _⟩ => do
    let (names, report) := heading.conclude .classes b.report
    let (id, set) ← b.set.addClass names (.file heading.coords) parent
    let b ← fields.foldlM (fun b f => f.build id b) ⟨set, report⟩
    let b ← methods.foldlM (fun b m => m.build id b) b
    ClassDraft.buildAll (some id) b inner

/-- Adds classes of one parent in order. -/
def ClassDraft.buildAll (parent : Option ClassId) (b : Build) :
    List ClassDraft → Except MappingError Build
  | [] => .ok b
  | c :: rest => do
    let b ← ClassDraft.build parent b c
    ClassDraft.buildAll parent b rest

end

/-! ## Sets -/

/-- The set of the given id that the draft declares, and all problems found on the way. -/
def MappingDraft.build (d : MappingDraft) (id : SetId) :
    Except MappingError (MappingSet × Report) := do
  let set ← MappingSet.create id d.namespaces
  let b ← d.packages.foldlM (fun b p => p.build b) ⟨set, d.report⟩
  let b ← ClassDraft.buildAll none b d.classes
  return (b.set, b.report)

end SymbolMap
