import SymbolMap.Proofs.Draft.Problems
import SymbolMap.Proofs.Draft.Reachable

/-!
# What drafts become

Each draft stands for one element, which can be told without building anything:
`PackageDraft.element`, `FieldDraft.element`, `ParamDraft.element`,
`LocalDraft.element`, `MethodDraft.element` and `ClassDraft.element`. Blank names
are gone from it, and where something is incomplete the incomplete part is.

Building adds exactly these elements. For all that stands inside of a class this
is shown here: the class is the last one of its set as long as members are added
to it (`MappingSet.add`), so that an addition to it is an addition of another
class in its stead.

* `MethodDraft.fill_eq`: the variables of a method;
* `FieldDraft.build_eq`, `MethodDraft.build_eq`: one member of a class;
* `ClassDraft.buildMembers_eq`: all members of a class.
-/

namespace SymbolMap

/-! ## Elements -/

/-- The names that are not blank, and the position of the draft. -/
def Heading.element (h : Heading) : Element := ⟨h.names.clearBlanks, .file h.coords⟩

def PackageDraft.element (p : PackageDraft) : Package := ⟨p.toHeading.element⟩

def FieldDraft.element (f : FieldDraft) (owner : ClassId) : Field :=
  { f.toHeading.element with owner, type := f.type, flags := f.flags }

def ParamDraft.element (p : ParamDraft) (method : MethodId) : Param :=
  { p.toHeading.element with method, index := p.index, table := p.table, type := p.type }

def LocalDraft.element (v : LocalDraft) (method : MethodId) : LocalVar :=
  { v.toHeading.element with method, index := v.index, type := v.type }

/-- Local variables after one more is declared, which may contend with one of
them. -/
def LocalDraft.settleInto (method : MethodId) (locals : List LocalVar) (v : LocalDraft) :
    List LocalVar :=
  (settle (·.fits v.index) (v.element method) locals).2

namespace MethodDraft

/-- The local variables that can be placed, settled in the order of their
declaration. -/
def localElements (m : MethodDraft) (id : MethodId) : List LocalVar :=
  (m.locals.filter (·.index.isKnown)).foldl (LocalDraft.settleInto id) []

/-- The method of the given descriptor. -/
def element (m : MethodDraft) (id : MethodId) (descriptor : MethodDescriptor) : Method :=
  { m.toHeading.element with
    params := m.params.map (·.element id)
    locals := m.localElements id
    id, descriptor, flags := m.flags }

/-- The methods that have a descriptor, together with it. -/
def described (methods : List MethodDraft) : List (MethodDraft × MethodDescriptor) :=
  methods.filterMap fun m => m.descriptor.map (m, ·)

/-- The methods that have a descriptor, at the positions that they get from
`start` on. -/
def elements (owner : ClassId) (start : Nat) (methods : List MethodDraft) : List Method :=
  (described methods).mapIdx fun i (m, descriptor) => m.element ⟨owner, start + i⟩ descriptor

theorem elements_cons_of_none {owner : ClassId} {start : Nat} {m : MethodDraft}
    {rest : List MethodDraft} (h : m.descriptor = none) :
    elements owner start (m :: rest) = elements owner start rest := by
  simp [elements, described, h]

theorem elements_cons_of_some {owner : ClassId} {start : Nat} {m : MethodDraft}
    {rest : List MethodDraft} {descriptor : MethodDescriptor}
    (h : m.descriptor = some descriptor) :
    elements owner start (m :: rest) =
      m.element ⟨owner, start⟩ descriptor :: elements owner (start + 1) rest := by
  simp [elements, described, h, List.mapIdx_cons, Nat.add_assoc, Nat.add_comm 1]

theorem length_elements (owner : ClassId) (start : Nat) (methods : List MethodDraft) :
    (elements owner start methods).length = (described methods).length :=
  List.length_mapIdx

/-- Further methods start where those in front of them end. -/
theorem elements_append (owner : ClassId) (start : Nat) (xs ys : List MethodDraft) :
    elements owner start (xs ++ ys) =
      elements owner start xs ++ elements owner (start + (described xs).length) ys := by
  have hdescribed : described (xs ++ ys) = described xs ++ described ys := List.filterMap_append
  unfold elements
  rw [hdescribed, List.mapIdx_append]
  simp only [Nat.add_assoc, Nat.add_comm (described xs).length]

/-- The methods behind the first one start where that one ends, which may be where
it starts. -/
theorem elements_cons (owner : ClassId) (start : Nat) (m : MethodDraft)
    (rest : List MethodDraft) :
    elements owner start (m :: rest) =
      elements owner start [m] ++
        elements owner (start + (elements owner start [m]).length) rest := by
  rw [length_elements]
  exact elements_append owner start [m] rest

/-- Each method of a class is that of a draft with a descriptor. -/
theorem exists_of_mem_elements {owner : ClassId} {start : Nat} {methods : List MethodDraft}
    {x : Method} (h : x ∈ elements owner start methods) :
    ∃ m ∈ methods, ∃ id descriptor, m.descriptor = some descriptor ∧
      x = m.element id descriptor := by
  unfold elements described at h
  obtain ⟨i, hi, rfl⟩ := List.mem_mapIdx.1 h
  obtain ⟨m, hm, hpair⟩ := List.mem_filterMap.1 (List.getElem_mem hi)
  obtain ⟨descriptor, hdescriptor, hpair⟩ := Option.map_eq_some_iff.1 hpair
  rw [← hpair]
  exact ⟨m, hm, _, descriptor, hdescriptor, rfl⟩

end MethodDraft

/-- The class of the given id, inside of the given class. -/
def ClassDraft.element (c : ClassDraft) (id : ClassId) (parent : Option ClassId) : Class :=
  { c.toHeading.element with
    fields := c.fields.map (·.element id)
    methods := MethodDraft.elements id 0 c.methods
    id, parent }

/-! ## Variables -/

section Variables

variable {namespaces : List String}

/-- The names of an aligned heading are as many as the namespaces. -/
theorem Heading.Aligned.size_clearBlanks {h : Heading} (ha : h.Aligned namespaces) :
    h.names.clearBlanks.size = namespaces.length :=
  (NameRow.size_clearBlanks _).trans ha.size

/-- A parameter whose index is not taken goes to the end. -/
theorem ParamDraft.build_eq {p : ParamDraft} (hp : p.toHeading.Aligned namespaces) {x : Method}
    (hx : x.names.size = namespaces.length) (hindex : ∀ q ∈ x.params, q.index ≠ p.index)
    (r : Report) :
    p.build ⟨x, r⟩ =
      .ok ⟨{ x with params := x.params ++ [p.element x.id] }, r.followedBy p.problems⟩ := by
  have hsize := hp.size_clearBlanks.trans hx.symm
  have hsettle : settle (·.index == p.index) (p.element x.id) x.params =
      (p.element x.id, x.params ++ [p.element x.id]) :=
    settle_of_forall_not fun q hq => beq_eq_false_iff_ne.2 (hindex q hq)
  have hadd : x.addParam p.names.clearBlanks (.file p.coords) p.index p.table p.type =
      .ok (p.element x.id, { x with params := x.params ++ [p.element x.id] }) :=
    Method.addParam_eq_ok_iff.2 ⟨hsize, (congrArg Prod.fst hsettle).symm,
      congrArg (fun settled => { x with params := settled.2 }) hsettle.symm⟩
  unfold ParamDraft.build
  rw [Heading.conclude_eq]
  show (x.addParam _ _ _ _ _ >>= _) = _
  rw [hadd]
  rfl

/-- A local variable that can be placed is settled. -/
theorem LocalDraft.addLocal_eq {v : LocalDraft} (hv : v.toHeading.Aligned namespaces)
    (hknown : v.index.isKnown = true) {x : Method} (hx : x.names.size = namespaces.length) :
    x.addLocal v.names.clearBlanks (.file v.coords) v.index v.type =
      .ok ((settle (·.fits v.index) (v.element x.id) x.locals).1,
        { x with locals := v.settleInto x.id x.locals }) :=
  Method.addLocal_eq_ok_iff.2 ⟨⟨hv.size_clearBlanks.trans hx.symm, hknown⟩, rfl, rfl⟩

/-- A local variable that can be placed is settled, and any other is left out. -/
theorem LocalDraft.build_eq {v : LocalDraft} (hv : v.toHeading.Aligned namespaces) {x : Method}
    (hx : x.names.size = namespaces.length) (r : Report) :
    v.build ⟨x, r⟩ =
      .ok ⟨if v.index.isKnown then { x with locals := v.settleInto x.id x.locals } else x,
        r.followedBy v.problems⟩ := by
  unfold LocalDraft.build LocalDraft.problems
  by_cases hknown : v.index.isKnown = true
  · rw [Heading.conclude_eq]
    simp only [if_pos hknown]
    show (x.addLocal _ _ _ _ >>= _) = _
    rw [LocalDraft.addLocal_eq hv hknown hx]
    rfl
  · simp only [if_neg hknown, Report.error_eq_followedBy]

theorem ParamDraft.buildAll_eq {params : List ParamDraft}
    (hparams : ∀ p ∈ params, p.toHeading.Aligned namespaces)
    (hnodup : (params.map ParamDraft.index).Nodup) {x : Method}
    (hx : x.names.size = namespaces.length)
    (hindex : ∀ q ∈ x.params, ∀ p ∈ params, q.index ≠ p.index) (r : Report) :
    params.foldlM (fun b p => p.build b) ⟨x, r⟩ =
      Except.ok (ε := MappingError)
        ⟨{ x with params := x.params ++ params.map (·.element x.id) },
          r.followedBy (.inOrder (params.map ParamDraft.problems))⟩ := by
  induction params generalizing x r with
  | nil =>
    show Except.ok (MethodBuild.mk x r) =
      .ok ⟨{ x with params := x.params ++ [] }, r.followedBy .empty⟩
    rw [List.append_nil, Report.followedBy_empty]
  | cons p rest ih =>
    -- the index of `p` stays out of the way of those behind it
    rw [List.map_cons, List.nodup_cons] at hnodup
    have hp := hparams p List.mem_cons_self
    have hrest := ih (fun q hq => hparams q (List.mem_cons_of_mem _ hq)) hnodup.2
      (x := { x with params := x.params ++ [p.element x.id] }) hx ?_ (r.followedBy p.problems)
    · rw [List.foldlM_cons, ParamDraft.build_eq hp hx
        (fun q hq => hindex q hq p List.mem_cons_self)]
      refine hrest.trans ?_
      rw [Report.followedBy_assoc, List.append_assoc]
      rfl
    · intro q hq other hother
      rcases List.mem_append.1 hq with hq | hq
      · exact hindex q hq other (List.mem_cons_of_mem _ hother)
      · cases List.mem_singleton.1 hq
        intro heq
        exact hnodup.1 (List.mem_map.2 ⟨other, hother, heq.symm⟩)

theorem LocalDraft.buildAll_eq {locals : List LocalDraft}
    (hlocals : ∀ v ∈ locals, v.toHeading.Aligned namespaces) {x : Method}
    (hx : x.names.size = namespaces.length) (r : Report) :
    locals.foldlM (fun b v => v.build b) ⟨x, r⟩ =
      Except.ok (ε := MappingError)
        ⟨{ x with locals :=
            (locals.filter (·.index.isKnown)).foldl (settleInto x.id) x.locals },
          r.followedBy (.inOrder (locals.map LocalDraft.problems))⟩ := by
  induction locals generalizing x r with
  | nil =>
    show Except.ok (MethodBuild.mk x r) = .ok ⟨x, r.followedBy .empty⟩
    rw [Report.followedBy_empty]
  | cons v rest ih =>
    have hrest := fun q hq => hlocals q (List.mem_cons_of_mem _ hq)
    rw [List.foldlM_cons, LocalDraft.build_eq (hlocals v List.mem_cons_self) hx]
    by_cases hknown : v.index.isKnown = true
    · rw [if_pos hknown,
        List.filter_cons_of_pos (p := fun v : LocalDraft => v.index.isKnown) hknown,
        List.foldl_cons]
      refine (ih hrest (x := { x with locals := v.settleInto x.id x.locals }) hx _).trans ?_
      rw [Report.followedBy_assoc]
      rfl
    · rw [if_neg hknown,
        List.filter_cons_of_neg (p := fun v : LocalDraft => v.index.isKnown) hknown]
      refine (ih hrest hx _).trans ?_
      rw [Report.followedBy_assoc]
      rfl

/-- Filling a method that holds nothing yet gives it the variables of the
draft. -/
theorem MethodDraft.fill_eq {m : MethodDraft} (hm : m.WellFormed namespaces) {x : Method}
    (hx : x.names.size = namespaces.length) (hnew : x.toVariables = .none) (r : Report) :
    m.fill ⟨x, r⟩ =
      .ok ⟨{ x with params := m.params.map (·.element x.id), locals := m.localElements x.id },
        r.followedBy m.variableProblems⟩ := by
  have hparams : x.params = [] := congrArg Variables.params hnew
  have hlocals : x.locals = [] := congrArg Variables.locals hnew
  unfold MethodDraft.fill
  rw [ParamDraft.buildAll_eq hm.params hm.indices hx (by simp [hparams])]
  show m.locals.foldlM (fun b v => v.build b) _ = _
  rw [LocalDraft.buildAll_eq hm.locals (by exact hx)]
  simp only [hparams, hlocals, List.nil_append, Report.followedBy_assoc]
  rfl

end Variables

/-! ## The last class of a set -/

/-- Replacing the element that was put last by one of the same names is putting
that one last. -/
theorem Table.replace_push {α : Type} [IsElement α] (t : Table α) {x y : α}
    (h : (IsElement.element x).names = (IsElement.element y).names) :
    (t.push x).replace t.size y = t.push y := by
  unfold replace push size
  simp only [h, Array.setIfInBounds_def, Array.size_push, Nat.lt_succ_self, dite_true,
    Array.set_push, Nat.lt_irrefl, dite_false]

namespace MappingSet

variable {s : MappingSet} {c : Class} {α : Type}

/-- The set with a class at the end. -/
def add (s : MappingSet) (c : Class) : MappingSet := { s with classes := s.classes.push c }

/-- The id of the next class. -/
def nextId (s : MappingSet) : ClassId := ⟨s.id, s.classes.size⟩

theorem class?_nextId (s : MappingSet) (c : Class) : (s.add c).class? s.nextId = some c := by
  show (if s.id = s.id then some s.classes.size else none).bind (s.classes.push c).get? = some c
  rw [if_pos rfl, Option.bind_some, Table.get?_push, if_pos rfl]

/-- An update of the last class leaves that class last, as long as it keeps its names. -/
theorem run_modifyClass_add {edit : Update Class α} {a : α} {edited : Class}
    (h : edit.run c = .ok a edited) (hnames : edited.names = c.names) :
    (modifyClass s.nextId edit).run (s.add c) = .ok a (s.add edited) := by
  have hlast : (s.add c).withClass s.classes.size edited = s.add edited := by
    unfold withClass add
    rw [Table.replace_push _ hnames.symm]
  rw [run_modifyClass_of_some (class?_nextId s c), h]
  exact congrArg (EStateM.Result.ok a) hlast

section Additions

variable {names : NameRow} {origin : Origin} {flags : MemberFlags}

theorem addField_add {type : Option FieldType} (hsize : names.size = c.names.size) :
    let field : Field := ⟨⟨names, origin⟩, c.id, type, flags⟩
    (s.add c).addField s.nextId names origin type flags =
      .ok (field, s.add { c with fields := c.fields ++ [field] }) := by
  intro field
  have hinsert : (Class.insertField names origin type flags).run c =
      .ok field { c with fields := c.fields ++ [field] } := by
    rw [Class.run_insertField, if_pos hsize]
  exact Update.result_eq_ok_iff.2 (run_modifyClass_add hinsert rfl)

/-- A method is put into the last class as what filling it gives. -/
theorem addMethod_add {descriptor : MethodDescriptor} {a : α} {m : Method}
    {fill : Method → Except MappingError (α × Method)} (hsize : names.size = c.names.size)
    (hfill : fill ⟨⟨names, origin⟩, .none, ⟨c.id, c.methods.length⟩, descriptor, flags⟩ =
      .ok (a, m)) :
    (s.add c).addMethod s.nextId names origin descriptor flags fill =
      .ok (a, s.add { c with methods := c.methods ++ [m] }) := by
  have hinsert : (Class.insertMethod names origin descriptor flags (.ofResult fill)).run c =
      .ok a { c with methods := c.methods ++ [m] } := by
    rw [Class.run_insertMethod, if_pos hsize, Update.putBack_eq_ok_iff]
    exact ⟨m, Update.run_ofResult_eq_ok_iff.2 hfill, rfl⟩
  exact Update.result_eq_ok_iff.2 (run_modifyClass_add hinsert rfl)

end Additions

end MappingSet

/-! ## Members -/

section Members

variable {namespaces : List String} {s : MappingSet} {c : Class}

/-- A field goes to the end of the fields of the last class. -/
theorem FieldDraft.build_eq {f : FieldDraft} (hf : f.toHeading.Aligned namespaces)
    (hid : c.id = s.nextId) (hc : c.names.size = namespaces.length) (r : Report) :
    f.build s.nextId ⟨s.add c, r⟩ =
      .ok ⟨s.add { c with fields := c.fields ++ [f.element s.nextId] },
        r.followedBy f.problems⟩ := by
  have hsize : f.names.clearBlanks.size = c.names.size := hf.size_clearBlanks.trans hc.symm
  unfold FieldDraft.build
  rw [Heading.conclude_eq]
  show ((s.add c).addField s.nextId f.names.clearBlanks (.file f.coords) _ _ >>= _) = _
  rw [MappingSet.addField_add hsize, hid]
  rfl

theorem FieldDraft.buildAll_eq {fields : List FieldDraft}
    (hfields : ∀ f ∈ fields, f.toHeading.Aligned namespaces)
    (hid : c.id = s.nextId) (hc : c.names.size = namespaces.length) (r : Report) :
    fields.foldlM (fun b f => f.build s.nextId b) ⟨s.add c, r⟩ =
      Except.ok (ε := MappingError)
        ⟨s.add { c with fields := c.fields ++ fields.map (·.element s.nextId) },
          r.followedBy (.inOrder (fields.map FieldDraft.problems))⟩ := by
  induction fields generalizing c r with
  | nil =>
    show Except.ok (Build.mk (s.add c) r) =
      .ok ⟨s.add { c with fields := c.fields ++ [] }, r.followedBy .empty⟩
    rw [List.append_nil, Report.followedBy_empty]
  | cons f rest ih =>
    rw [List.foldlM_cons, FieldDraft.build_eq (hfields f List.mem_cons_self) hid hc]
    refine (ih (c := { c with fields := c.fields ++ [f.element s.nextId] })
      (fun g hg => hfields g (List.mem_cons_of_mem _ hg)) hid hc _).trans ?_
    rw [Report.followedBy_assoc, List.append_assoc]
    rfl

/-- A method that has a descriptor goes to the end of the methods of the last
class, and any other is left out. -/
theorem MethodDraft.build_eq {m : MethodDraft} (hm : m.WellFormed namespaces)
    (hid : c.id = s.nextId) (hc : c.names.size = namespaces.length) (r : Report) :
    m.build s.nextId ⟨s.add c, r⟩ =
      .ok ⟨s.add { c with methods :=
          c.methods ++ MethodDraft.elements s.nextId c.methods.length [m] },
        r.followedBy m.problems⟩ := by
  unfold MethodDraft.build MethodDraft.problems
  rw [Heading.conclude_eq]
  cases hdescriptor : m.descriptor with
  | none =>
    rw [elements_cons_of_none hdescriptor]
    show Except.ok (Build.mk (s.add c) _) =
      .ok ⟨s.add { c with methods := c.methods ++ [] }, _⟩
    rw [List.append_nil, Report.error_eq_followedBy, Report.followedBy_assoc]
  | some descriptor =>
    have hsize : m.names.clearBlanks.size = c.names.size :=
      hm.heading.size_clearBlanks.trans hc.symm
    let concluded : Report := r.followedBy (m.toHeading.problems .methods)
    let fill (method : Method) : Except MappingError (Report × Method) := do
      let filled ← m.fill ⟨method, concluded⟩
      return (filled.report, filled.method)
    -- the variables go into a method that holds nothing yet
    have hfill : fill ⟨m.toHeading.element, .none, ⟨c.id, c.methods.length⟩, descriptor, m.flags⟩ =
        .ok (concluded.followedBy m.variableProblems,
          m.element ⟨c.id, c.methods.length⟩ descriptor) := by
      show (m.fill ⟨_, concluded⟩ >>= _) = _
      rw [m.fill_eq hm (by exact hm.heading.size_clearBlanks) rfl]
      rfl
    rw [elements_cons_of_some hdescriptor]
    show ((s.add c).addMethod s.nextId m.names.clearBlanks (.file m.coords) descriptor m.flags
      fill >>= _) = _
    rw [MappingSet.addMethod_add hsize hfill, hid]
    exact congrArg (fun report => Except.ok (Build.mk _ report)) (Report.followedBy_assoc ..)

theorem MethodDraft.buildAll_eq {methods : List MethodDraft}
    (hmethods : ∀ m ∈ methods, m.WellFormed namespaces)
    (hid : c.id = s.nextId) (hc : c.names.size = namespaces.length) (r : Report) :
    methods.foldlM (fun b m => m.build s.nextId b) ⟨s.add c, r⟩ =
      Except.ok (ε := MappingError)
        ⟨s.add { c with methods :=
            c.methods ++ MethodDraft.elements s.nextId c.methods.length methods },
          r.followedBy (.inOrder (methods.map MethodDraft.problems))⟩ := by
  induction methods generalizing c r with
  | nil =>
    show Except.ok (Build.mk (s.add c) r) =
      .ok ⟨s.add { c with methods := c.methods ++ [] }, r.followedBy .empty⟩
    rw [List.append_nil, Report.followedBy_empty]
  | cons m rest ih =>
    rw [List.foldlM_cons, MethodDraft.build_eq (hmethods m List.mem_cons_self) hid hc,
      MethodDraft.elements_cons _ _ m rest]
    refine (ih (c := { c with methods :=
        c.methods ++ MethodDraft.elements s.nextId c.methods.length [m] })
      (fun n hn => hmethods n (List.mem_cons_of_mem _ hn)) hid hc _).trans ?_
    rw [Report.followedBy_assoc, List.append_assoc, List.length_append]
    rfl

/-- A bare class at the end of a set becomes the element of its draft when the
members of the draft are built. -/
theorem ClassDraft.buildMembers_eq {d : ClassDraft} (hd : d.WellFormed namespaces)
    (s : MappingSet) (parent : Option ClassId) (r : Report) :
    (do
      let b ← d.fields.foldlM (fun b f => f.build s.nextId b)
        ⟨s.add (.bare s.nextId d.names.clearBlanks (.file d.coords) parent), r⟩
      d.methods.foldlM (fun b m => m.build s.nextId b) b) =
      Except.ok (ε := MappingError)
        ⟨s.add (d.element s.nextId parent),
          (r.followedBy (.inOrder (d.fields.map FieldDraft.problems))).followedBy
            (.inOrder (d.methods.map MethodDraft.problems))⟩ := by
  obtain ⟨heading, fields, methods, _⟩ := hd
  rw [FieldDraft.buildAll_eq fields rfl heading.size_clearBlanks]
  exact MethodDraft.buildAll_eq methods
    (c := { Class.bare s.nextId d.names.clearBlanks (.file d.coords) parent with
      fields := d.fields.map (·.element s.nextId) })
    rfl heading.size_clearBlanks _

end Members

end SymbolMap
