import SymbolMap.Proofs.Element.LocalVariables
import SymbolMap.Proofs.MappingSet.Respelling

/-!
# What holds what

Classes stand in a set at their positions, methods in a class at theirs, and both
carry an id that tells where. All that is held carries the id of what holds it, and
has one name slot for each namespace. So it can be asked of each element what holds
it, and the answer is exactly that (`MappingSet.WellStructured`).

Each addition keeps this, taken or refused:

* `Method.Structured.addParam`, `.addLocal`: also where the new variable takes the
  place of another one;
* `Members.Structured.insertField`, `.insertMethod`, `.setMethod`;
* `MappingSet.Structured.withClass`, `.push`, and from them
  `MappingSet.Reachable.structured` for all sets that additions lead to.

That the parents of a class stand in front of it comes from `MappingSet.Sound`.
-/

namespace SymbolMap

/-! ## Methods -/

/-- The variables of a method carry its id, and they and the method have the given
number of name slots. -/
structure Method.Structured (m : Method) (width : Nat) : Prop where
  names : m.names.size = width
  params : ∀ p ∈ m.params, p.method = m.id ∧ p.names.size = width
  locals : ∀ v ∈ m.locals, v.method = m.id ∧ v.names.size = width

namespace Method.Structured

variable {m n : Method} {width : Nat} {names : NameRow} {origin : Origin}

theorem addParam {index : Nat} {table : Option Nat} {type : Option FieldType} {p : Param}
    (hm : m.Structured width) (h : m.addParam names origin index table type = .ok (p, n)) :
    n.Structured width := by
  obtain ⟨hsize, hn, new, rfl, hmethod, hsettle⟩ := Method.addParam_eq_ok h
  have hparams : ∀ q ∈ n.params, q.method = m.id ∧ q.names.size = width := by
    have heq : n.params = (settle (·.index == index) new m.params).2 := by rw [hsettle]
    intro q hq
    rcases mem_of_mem_settle (heq ▸ hq) with hq | rfl
    · exact hm.params q hq
    · exact ⟨hmethod, hsize.trans hm.names⟩
  rw [hn]
  exact ⟨hm.names, hparams, hm.locals⟩

theorem addLocal {index : LocalIndex} {type : Option FieldType} {v : LocalVar}
    (hm : m.Structured width) (h : m.addLocal names origin index type = .ok (v, n)) :
    n.Structured width := by
  obtain ⟨hsize, _, hn, new, rfl, hmethod, rfl, hsettle⟩ := Method.addLocal_eq_ok h
  have hlocals : ∀ w ∈ n.locals, w.method = m.id ∧ w.names.size = width := by
    have heq : n.locals = (settle (·.fits new.index) new m.locals).2 := by rw [hsettle]
    intro w hw
    rcases mem_of_mem_settle (heq ▸ hw) with hw | rfl
    · exact hm.locals w hw
    · exact ⟨hmethod, hsize.trans hm.names⟩
  rw [hn]
  exact ⟨hm.names, hm.params, hlocals⟩

theorem grows (hm : m.Structured width) (h : m.Grows n) : n.Structured width := by
  induction h with
  | refl => exact hm
  | addParam _ hadd ih => exact ih.addParam hadd
  | addLocal _ hadd ih => exact ih.addLocal hadd

end Method.Structured

/-- The id of a method stays what it is. -/
theorem Method.Grows.id_eq {m n : Method} (h : m.Grows n) : n.id = m.id := by
  rw [h.eq_with]

/-! ## Members -/

/-- Fields carry the id of their class, methods that and their position. All of them
have the given number of name slots. -/
structure Members.Structured (held : Members) (owner : ClassId) (width : Nat) : Prop where
  fields : ∀ f ∈ held.fields, f.owner = owner ∧ f.names.size = width
  methods : ∀ (i : Nat) (m : Method), held.methods[i]? = some m →
    m.id = ⟨owner, i⟩ ∧ m.Structured width

namespace Members.Structured

variable {width : Nat}

theorem none (owner : ClassId) (width : Nat) : Members.none.Structured owner width := by
  refine ⟨fun f hf => ?_, fun i m hm => ?_⟩
  · cases hf
  · cases hm

theorem insertField {c d : Class} {names : NameRow} {origin : Origin} {type : Option FieldType}
    {flags : MemberFlags} {f : Field} (hc : c.toMembers.Structured c.id width)
    (hnames : c.names.size = width)
    (h : (Class.insertField names origin type flags).run c = .ok f d) :
    d.toMembers.Structured c.id width := by
  obtain ⟨hsize, rfl, howner, rfl⟩ := Class.insertField_eq_ok h
  refine ⟨List.forall_mem_append.2 ⟨hc.fields, List.forall_mem_singleton.2 ?_⟩, hc.methods⟩
  exact ⟨howner, hsize.trans hnames⟩

theorem insertMethod {c d : Class} {names : NameRow} {origin : Origin}
    {descriptor : MethodDescriptor} {flags : MemberFlags} {α : Type} {fill : Update Method α}
    {a : α} (hc : c.toMembers.Structured c.id width) (hnames : c.names.size = width)
    (hfill : ∀ m a n, fill.run m = .ok a n → m.Grows n)
    (h : (Class.insertMethod names origin descriptor flags fill).run c = .ok a d) :
    d.toMembers.Structured c.id width := by
  obtain ⟨hsize, new, filled, hnew, rfl, hid, hgrows, rfl⟩ := Class.insertMethod_eq_ok hfill h
  refine ⟨hc.fields, fun i m hm => ?_⟩
  by_cases hi : i < c.methods.length
  · rw [List.getElem?_append_left hi] at hm
    exact hc.methods i m hm
  · -- the new method stands at the end, at the position that its id tells
    have hlast : i = c.methods.length := by
      have := (List.getElem?_eq_some_iff.1 hm).1
      rw [List.length_append, List.length_singleton] at this
      omega
    subst hlast
    rw [List.getElem?_concat_length] at hm
    cases hm
    have hparams : new.params = [] := congrArg Variables.params hnew
    have hlocals : new.locals = [] := congrArg Variables.locals hnew
    refine ⟨hgrows.id_eq.trans hid, Method.Structured.grows ⟨hsize.trans hnames, ?_, ?_⟩ hgrows⟩
    · simp [hparams]
    · simp [hlocals]

theorem setMethod {held : Members} {owner : ClassId} {position : Nat} {m n : Method}
    (hc : held.Structured owner width) (hm : held.methods[position]? = some m) (h : m.Grows n) :
    ({ held with methods := held.methods.set position n } : Members).Structured owner width := by
  refine ⟨hc.fields, fun i x hx => ?_⟩
  rw [List.getElem?_set] at hx
  split at hx
  · rename_i hi
    subst hi
    obtain ⟨hid, hstructured⟩ := hc.methods position m hm
    split at hx
    · cases hx
      exact ⟨h.id_eq.trans hid, hstructured.grows h⟩
    · cases hx
  · exact hc.methods i x hx

end Members.Structured

/-! ## Sets -/

namespace MappingSet

/-- All elements of a set have one name slot for each namespace, and the members of
its classes carry the ids that they should. -/
structure Structured (s : MappingSet) : Prop where
  packages : ∀ p ∈ s.packages.elements.toList, p.names.size = s.width
  names : ∀ i c, s.classes.get? i = some c → c.names.size = s.width
  members : ∀ i c, s.classes.get? i = some c → c.toMembers.Structured c.id s.width

variable {s t : MappingSet}

theorem Structured.push (hs : s.Structured) {c : Class} (hnames : c.names.size = s.width)
    (hmembers : c.toMembers.Structured c.id s.width) :
    Structured { s with classes := s.classes.push c } := by
  refine ⟨hs.packages, fun i d hd => ?_, fun i d hd => ?_⟩
  · rw [Table.get?_push] at hd
    split at hd
    · cases hd
      exact hnames
    · exact hs.names i d hd
  · rw [Table.get?_push] at hd
    split at hd
    · cases hd
      exact hmembers
    · exact hs.members i d hd

theorem Structured.withClass (hs : s.Structured) {position : Nat} {c d : Class}
    (hc : s.classes.get? position = some c) (hcd : c.Remains d)
    (hmembers : d.toMembers.Structured c.id s.width) : (s.withClass position d).Structured := by
  unfold MappingSet.withClass
  refine ⟨hs.packages, fun i e he => ?_, fun i e he => ?_⟩
  · rw [Table.get?_replace] at he
    split at he
    · cases he
      exact hcd.names ▸ hs.names position c hc
    · exact hs.names i e he
  · rw [Table.get?_replace] at he
    split at he
    · cases he
      exact hcd.id ▸ hmembers
    · exact hs.members i e he

theorem Reachable.structured (h : s.Reachable) : s.Structured := by
  induction h with
  | create h =>
    obtain ⟨valid, _, rfl⟩ := create_eq_ok h
    refine ⟨fun p hp => ?_, fun i c hc => ?_, fun i c hc => ?_⟩
    · cases hp
    · rw [Table.get?_empty] at hc
      cases hc
    · rw [Table.get?_empty] at hc
      cases hc
  | addPackage _ h ih =>
    obtain ⟨rfl, hsize⟩ := addPackage_eq_ok h
    refine ⟨fun p hp => ?_, ih.names, ih.members⟩
    rcases List.mem_append.1 (Array.toList_push ▸ hp) with hp | hp
    · exact ih.packages p hp
    · cases List.mem_singleton.1 hp
      exact hsize
  | addClass _ h ih =>
    obtain ⟨rfl, _, hsize, _⟩ := addClass_eq_ok h
    exact ih.push hsize (.none _ _)
  | addField _ h ih =>
    obtain ⟨c, edited, hc, hedit, rfl⟩ := addField_eq_ok h
    have hat := (class?_eq_some_iff.1 hc).2
    exact ih.withClass hat (Class.keepsRest_insertField.remains hedit)
      ((ih.members _ c hat).insertField (ih.names _ c hat) hedit)
  | addMethod _ hfill h ih =>
    obtain ⟨c, edited, hc, hedit, rfl⟩ := addMethod_eq_ok h
    have hat := (class?_eq_some_iff.1 hc).2
    exact ih.withClass hat (Class.keepsRest_insertMethod.remains hedit)
      ((ih.members _ c hat).insertMethod (ih.names _ c hat) (Method.grows_ofResult hfill) hedit)
  | editMethod _ hedits h ih =>
    obtain ⟨c, m, edited, hc, hm, hedit, rfl⟩ := editMethod_eq_ok h
    have hat := (class?_eq_some_iff.1 hc).2
    exact ih.withClass hat rfl ((ih.members _ c hat).setMethod (Class.method?_eq_some_iff.1 hm).2
      (hedits _ _ _ hedit))

/-! ## Asking for owners -/

/-- Each class of a chain stands behind those around it. -/
theorem Lineage.ascending (hs : s.Sound) {c : Class} {chain : List Class} (h : s.Lineage c chain)
    (hc : c ∈ s.classes.elements.toList) :
    chain.Pairwise (fun outer inner => outer.id.index < inner.id.index) ∧
      ∀ d ∈ chain, d.id.index ≤ c.id.index := by
  induction h with
  | outermost => simp
  | @inside c outer chain hmem hparent _ ih =>
    obtain ⟨hpairs, hbelow⟩ := ih hmem
    have hlt : outer.id.index < c.id.index :=
      (hs.parents _ c _ (hs.get?_of_mem hc) hparent).2
    have hchain : ∀ d ∈ chain, d.id.index < c.id.index := fun d hd =>
      Nat.lt_of_le_of_lt (hbelow d hd) hlt
    refine ⟨List.pairwise_append.2 ⟨hpairs, List.pairwise_singleton _ _, ?_⟩, ?_⟩
    · intro d hd inner hinner
      rw [List.mem_singleton.1 hinner]
      exact hchain d hd
    · intro d hd
      rcases List.mem_append.1 hd with hd | hd
      · exact Nat.le_of_lt (hchain d hd)
      · cases List.mem_singleton.1 hd
        exact Nat.le_refl _

/-- What can be relied on with the method at a position of a class. The class and the
method are what is found by the ids that it and its variables carry. -/
structure HoldsMethod (s : MappingSet) (c : Class) (i : Nat) (m : Method) : Prop where
  id : m.id = ⟨c.id, i⟩
  owner : s.class? m.id.owner = some c
  found : s.method? m.id = some m
  names : m.names.size = s.width
  params : ∀ p ∈ m.params, p.method = m.id ∧ s.method? p.method = some m ∧ p.names.size = s.width
  locals : ∀ v ∈ m.locals, v.method = m.id ∧ s.method? v.method = some m ∧ v.names.size = s.width

/-- What can be relied on with the class at a position. Its parent stands in front of
it, so the classes around it are a chain in which each one stands behind those
before. -/
structure HoldsClass (s : MappingSet) (k : Nat) (c : Class) : Prop where
  id : c.id = ⟨s.id, k⟩
  found : s.class? c.id = some c
  names : c.names.size = s.width
  outermost : c.parent = none → s.parent? c = none
  parent : ∀ p ∈ c.parent, ∃ q outer, p = ⟨s.id, q⟩ ∧ q < k ∧ s.classes.get? q = some outer ∧
    s.parent? c = some outer
  lineage : ∃ chain, s.Lineage c chain ∧
    chain.Pairwise fun outer inner => outer.id.index < inner.id.index
  fields : ∀ f ∈ c.fields, f.owner = c.id ∧ s.class? f.owner = some c ∧ f.names.size = s.width
  methods : ∀ i m, c.methods[i]? = some m → s.HoldsMethod c i m

/-- What holds what can be asked of all elements, and all have one name slot for each
namespace. -/
structure WellStructured (s : MappingSet) : Prop where
  packages : ∀ p ∈ s.packages.elements.toList, p.names.size = s.width
  classes : ∀ k c, s.classes.get? k = some c → s.HoldsClass k c

theorem holdsMethod {c : Class} (hfound : s.class? c.id = some c)
    (hmembers : c.toMembers.Structured c.id s.width) {i : Nat} {m : Method}
    (hat : c.methods[i]? = some m) : s.HoldsMethod c i m := by
  obtain ⟨hid, hm⟩ := hmembers.methods i m hat
  have hown : s.method? m.id = some m := by
    unfold method?
    rw [hid, hfound]
    exact hat
  refine ⟨hid, hid ▸ hfound, hown, hm.names, fun p hp => ?_, fun v hv => ?_⟩
  · obtain ⟨hp, hnames⟩ := hm.params p hp
    exact ⟨hp, hp ▸ hown, hnames⟩
  · obtain ⟨hv, hnames⟩ := hm.locals v hv
    exact ⟨hv, hv ▸ hown, hnames⟩

theorem Reachable.wellStructured (h : s.Reachable) : s.WellStructured := by
  have hs := h.sound
  have hstructured := h.structured
  refine ⟨hstructured.packages, fun k c hc => ?_⟩
  have hmem : c ∈ s.classes.elements.toList :=
    Array.mem_toList_iff.2 (Array.mem_of_getElem? hc)
  have hfound := hs.class?_of_mem hmem
  have hmembers := hstructured.members k c hc
  refine ⟨hs.ids k c hc, hfound, hstructured.names k c hc, ?_, ?_, ?_, ?_,
    fun i m hm => holdsMethod hfound hmembers hm⟩
  · intro hnone
    unfold parent?
    rw [hnone]
    rfl
  · intro p hp
    obtain ⟨outer, hset, hlt, houter, hid⟩ := hs.exists_parent hc hp
    refine ⟨p.index, outer, hset, hlt, houter, ?_⟩
    unfold parent?
    rw [hp]
    exact hid ▸ hs.class?_of_mem (Array.mem_toList_iff.2 (Array.mem_of_getElem? houter))
  · obtain ⟨chain, hchain⟩ := hs.exists_chain k c hc
    exact ⟨chain, hchain, (hchain.ascending hs hmem).1⟩
  · intro f hf
    obtain ⟨howner, hnames⟩ := hmembers.fields f hf
    exact ⟨howner, howner ▸ hfound, hnames⟩

end MappingSet

/-! ## Runs of additions -/

/-- An addition that a caller asks for. Variables are added to the method of an id, by
way of the class of another one. -/
inductive Addition where
  | newPackage (names : NameRow) (origin : Origin)
  | newClass (names : NameRow) (origin : Origin) (parent : Option ClassId)
  | newField (owner : ClassId) (names : NameRow) (origin : Origin) (type : Option FieldType)
      (flags : MemberFlags)
  | newMethod (owner : ClassId) (names : NameRow) (origin : Origin)
      (descriptor : MethodDescriptor) (flags : MemberFlags)
  | newParam (owner : ClassId) (id : MethodId) (names : NameRow) (origin : Origin) (index : Nat)
      (table : Option Nat) (type : Option FieldType)
  | newLocal (owner : ClassId) (id : MethodId) (names : NameRow) (origin : Origin)
      (index : LocalIndex) (type : Option FieldType)

namespace Addition

/-- Makes an addition. Where the method is one of another class there is nothing to add to. -/
def perform : Addition → Update MappingSet Unit
  | newPackage names origin => discard (MappingSet.insertPackage names origin)
  | newClass names origin parent => discard (MappingSet.insertClass names origin parent)
  | newField owner names origin type flags =>
    discard (MappingSet.insertField owner names origin type flags)
  | newMethod owner names origin descriptor flags =>
    MappingSet.insertMethod owner names origin descriptor flags (pure ())
  | newParam owner id names origin index table type =>
    discard (MappingSet.modifyMethod owner id
      (Method.insertParam names origin index table type))
  | newLocal owner id names origin index type =>
    discard (MappingSet.modifyMethod owner id (Method.insertLocal names origin index type))

open MappingSet in
/-- An addition that is refused leaves the set as it was. -/
theorem atomic_perform (addition : Addition) : addition.perform.Atomic := by
  cases addition with
  | newPackage => exact atomic_insertPackage.map _
  | newClass => exact atomic_insertClass.map _
  | newField => exact (atomic_modifyClass Class.atomic_insertField).map _
  | newMethod => exact atomic_modifyClass (Class.atomic_insertMethod Update.not_refuses_pure)
  | newParam =>
    exact (atomic_modifyClass (Class.atomic_modifyMethod Method.atomic_insertParam)).map _
  | newLocal =>
    exact (atomic_modifyClass (Class.atomic_modifyMethod Method.atomic_insertLocal)).map _

end Addition

namespace MappingSet

variable {s t : MappingSet}

/-- The set after an addition was tried: what the addition has left of it, taken or refused. -/
def attempt (s : MappingSet) (addition : Addition) : MappingSet := addition.perform.left s


/-- An update of a method by additions to it is an addition, also where there is no such method. -/
theorem grows_modifyMethod {owner : ClassId} {id : MethodId} {α : Type} {edit : Update Method α}
    (hedit : ∀ m a n, edit.run m = .ok a n → m.Grows n) {result : Option α}
    (h : (modifyMethod owner id edit).run s = .ok result t) : s.Grows t := by
  cases result with
  | none =>
    rw [eq_of_modifyMethod_eq_ok_none h]
    exact .refl s
  | some a =>
    obtain ⟨c, m, n, hc, hm, hn, ht⟩ := modifyMethod_eq_ok_some_iff.1 h
    have hresult : s.editMethod owner id edit.result = .ok (some (a, t)) :=
      editMethod_eq_ok_iff.2 (modifyMethod_eq_ok_some_iff.2 ⟨c, m, n, hc, hm,
        Update.run_ofResult_eq_ok_iff.2 (Update.result_eq_ok_iff.2 hn), ht⟩)
    exact .editMethod (.refl s) (fun m a n hn => hedit m a n (Update.result_eq_ok_iff.1 hn)) hresult

theorem grows_perform {addition : Addition} (h : addition.perform.run s = .ok () t) :
    s.Grows t := by
  cases addition with
  | newPackage names origin =>
    obtain ⟨_, hadd, -⟩ := Update.run_map_eq_ok_iff.1 h
    exact .addPackage (.refl s) (Update.result_eq_ok_iff.2 hadd)
  | newClass names origin parent =>
    obtain ⟨_, hadd, -⟩ := Update.run_map_eq_ok_iff.1 h
    exact .addClass (.refl s) (Update.result_eq_ok_iff.2 hadd)
  | newField owner names origin type flags =>
    obtain ⟨_, hadd, -⟩ := Update.run_map_eq_ok_iff.1 h
    exact .addField (.refl s) (Update.result_eq_ok_iff.2 hadd)
  | newMethod owner names origin descriptor flags =>
    have hadd : s.addMethod owner names origin descriptor flags (fun m => .ok ((), m)) =
        .ok ((), t) := Update.result_eq_ok_iff.2 h
    refine .addMethod (.refl s) ?_ hadd
    rintro m _ n ⟨⟩
    exact .refl m
  | newParam owner id names origin index table type =>
    obtain ⟨_, hadd, -⟩ := Update.run_map_eq_ok_iff.1 h
    exact grows_modifyMethod (fun m _ _ h => .addParam (.refl m) (Update.result_eq_ok_iff.2 h)) hadd
  | newLocal owner id names origin index type =>
    obtain ⟨_, hadd, -⟩ := Update.run_map_eq_ok_iff.1 h
    exact grows_modifyMethod (fun m _ _ h => .addLocal (.refl m) (Update.result_eq_ok_iff.2 h)) hadd

/-- What an addition leaves has grown from the set, taken or refused. -/
theorem grows_attempt (s : MappingSet) (addition : Addition) : s.Grows (s.attempt addition) := by
  unfold attempt
  cases h : addition.perform.run s with
  | ok _ t =>
    rw [Update.left_of_ok h]
    exact grows_perform h
  | error e t =>
    rw [addition.atomic_perform.left_of_refuses ⟨e, t, h⟩]
    exact .refl s

theorem Reachable.attemptAll (hs : s.Reachable) (additions : List Addition) :
    (additions.foldl MappingSet.attempt s).Reachable := by
  induction additions generalizing s with
  | nil => exact hs
  | cons addition rest ih => exact ih (hs.grows (grows_attempt s addition))

/-- A set that was just created or built. -/
def Fresh (s : MappingSet) : Prop :=
  (∃ id names, create id names = .ok s) ∨
    ∃ (d : MappingDraft) (id : SetId) (report : Report), d.build id = .ok (s, report)

theorem Fresh.reachable (h : s.Fresh) : s.Reachable := by
  rcases h with ⟨id, names, h⟩ | ⟨d, id, report, h⟩
  · exact .create h
  · exact .of_build h

end MappingSet

/-- **Additions keep the structure of a set.** Whatever is added to a set that was
created or built, in whatever order and with whatever ids, taken or refused: each
class and method has the id of its position, each element carries the id of what
holds it, parents stand in front of their classes, and all names have one slot for
each namespace. -/
theorem additions_keep_structure {start : MappingSet} (h : start.Fresh)
    (additions : List Addition) :
    (additions.foldl MappingSet.attempt start).WellStructured :=
  (h.reachable.attemptAll additions).wellStructured

/-- A class with an unknown parent, a parameter of a method of another class and a local
variable without a place are refused. One parameter takes the place of another one. -/
theorem additions_keep_structure_refused :
    let row (name : String) : NameRow := ⟨[some name, none]⟩
    let inner : ClassId := ⟨⟨7⟩, 1⟩
    let high : Origin := .file (Coords.start.atPriority .high)
    let additions : List Addition :=
      [.newClass (row "O") .unknown none, .newClass (row "I") .unknown (some ⟨⟨7⟩, 0⟩),
        .newClass (row "E") .unknown (some ⟨⟨7⟩, 9⟩),
        .newField inner (row "f") .unknown none .unknown,
        .newMethod inner (row "m") .unknown ⟨[], .void⟩ .unknown,
        .newParam inner ⟨inner, 0⟩ (row "p") (.file .start) 0 none none,
        .newParam inner ⟨inner, 0⟩ (row "q") high 0 none none,
        .newParam ⟨⟨7⟩, 0⟩ ⟨inner, 0⟩ (row "r") high 0 none none,
        .newLocal inner ⟨inner, 0⟩ (row "v") high ⟨⟨none, some 1, none⟩, none⟩ none]
    let start : MappingSet := ⟨⟨7⟩, ["a", "b"], .empty 2, .empty 2⟩
    let s := additions.foldl MappingSet.attempt start
    start.Fresh ∧ s.WellStructured ∧
      s.classes.elements.toList.map (fun c => (c.id.index, c.parent)) =
        [(0, none), (1, some ⟨⟨7⟩, 0⟩)] ∧
      (s.method? ⟨inner, 0⟩).map (fun m => (m.params.map fun p => (p.names, p.method), m.locals)) =
        some ([(row "q", ⟨inner, 0⟩)], []) := by
  intro row inner high additions start s
  have hstart : start.Fresh := .inl ⟨⟨7⟩, ["a", "b"], rfl⟩
  exact ⟨hstart, additions_keep_structure hstart additions, by decide +kernel, by decide +kernel⟩

end SymbolMap
