import SymbolMap.Proofs.MappingSet.Structure
import SymbolMap.Workspace

/-!
# Where class ids come from

A set accepts the id of a class by two things: the number of a set and a position. Sets get
numbers of their own, but a copy keeps the number of what it is a copy of, and from then on
both hand out ids of the same number by themselves.

A run over sets side by side is told by its history: which set was copied, and which classes
were added to which set. From that alone follow the additions that a set consists of
(`History.past`) and the set that it goes back to by way of copies (`History.ancestor`).

* `Workspace.ToldBy`: the history tells the number and the classes of each set. It is kept by
  each request (`Chronicle.toldBy_serve`) and so by a run (`Chronicle.toldBy_run`);
* `class_ids_accepted`: a set accepts the ids that were handed out in its past, and means the
  classes of that time. As for ids that were handed out elsewhere, it accepts those from sets
  with the same ancestor whose positions it has itself.

So after a set was copied, an id can be taken for that of another class
(`class_id_accepted_by_copy`).
-/

namespace SymbolMap

/-! ## Accepted ids -/

namespace MappingSet

variable {s t : MappingSet}

/-- The set takes the id of a class: it lets the class be changed, or other classes be nested
in it. -/
def Accepts (s : MappingSet) (id : ClassId) : Prop :=
  (∃ t, (modifyClass id (pure ())).run s = .ok () t) ∨
    ∃ names origin inner t, s.addClass names origin (some id) = .ok (inner, t)

/-- An id is accepted if it has the number of the set and a position that there is. -/
theorem accepts_iff {id : ClassId} :
    s.Accepts id ↔ id.set = s.id ∧ id.index < s.classes.size := by
  constructor
  · rintro (⟨t, hedit⟩ | ⟨names, origin, inner, t, hadd⟩)
    · obtain ⟨c, _, hc, _⟩ := modifyClass_eq_ok hedit
      obtain ⟨hset, hat⟩ := class?_eq_some_iff.1 hc
      exact ⟨hset, (Array.getElem?_eq_some_iff.1 hat).1⟩
    · obtain ⟨_, hparent, _⟩ := addClass_eq_ok hadd
      obtain ⟨c, hc⟩ := Option.isSome_iff_exists.1 (hparent id rfl)
      obtain ⟨hset, hat⟩ := class?_eq_some_iff.1 hc
      exact ⟨hset, (Array.getElem?_eq_some_iff.1 hat).1⟩
  · rintro ⟨hset, hlt⟩
    obtain ⟨c, hc⟩ : ∃ c, s.class? id = some c :=
      ⟨_, class?_eq_some_iff.2 ⟨hset, Array.getElem?_eq_getElem hlt⟩⟩
    exact .inl ⟨s.withClass id.index c, run_modifyClass_of_some hc _⟩

end MappingSet

/-! ## Histories -/

/-- The class without what it holds. -/
def Class.emptied (c : Class) : Class := .bare c.id c.names c.origin c.parent

theorem Class.Remains.emptied {c d : Class} (h : c.Remains d) : d.emptied = c.emptied := by
  rw [h]
  rfl

/-- An accepted call that added a class: the position of the set, what the call was told, and
the id that it gave back. -/
structure ClassAddition where
  set : Nat
  id : ClassId
  names : NameRow
  origin : Origin
  parent : Option ClassId
  deriving DecidableEq

/-- The class that the call added. -/
def ClassAddition.declared (a : ClassAddition) : Class := .bare a.id a.names a.origin a.parent

/-- What happened to the sets of a workspace. -/
inductive Event where
  | copied (source copy : Nat)
  | added (addition : ClassAddition)
  deriving DecidableEq

/-- What happened, the last event first. -/
abbrev History := List Event

namespace History

/-- The additions that the set at a position consists of, in order: those to the set itself,
and in front of them those that the set it is a copy of consisted of at that time. -/
def past : History → Nat → List ClassAddition
  | [], _ => []
  | .copied source copy :: earlier, p => past earlier (if p = copy then source else p)
  | .added a :: earlier, p => past earlier p ++ if a.set = p then [a] else []

/-- The set that the one at a position goes back to by way of copies. -/
def ancestor : History → Nat → Nat
  | [], p => p
  | .copied source copy :: earlier, p => ancestor earlier (if p = copy then source else p)
  | .added _ :: earlier, p => ancestor earlier p

end History

/-! ## What a set consists of -/

/-- A function that does not tell the new element from the old one sees the same table. -/
theorem Table.map_elements_replace {α β : Type} {t : Table α} {position : Nat} {old new : α}
    (f : α → β) (hold : t.get? position = some old) (hf : f new = f old) :
    (t.replace position new).elements.toList.map f = t.elements.toList.map f := by
  apply List.ext_getElem?
  intro i
  have hget := t.get?_replace position i new
  unfold get? at hget hold
  rw [List.getElem?_map, List.getElem?_map, Array.getElem?_toList, Array.getElem?_toList, hget]
  split
  · rename_i hi
    rw [← hi.1, hold]
    exact congrArg some hf
  · rfl

namespace MappingSet

/-- The number of a set is that of its ancestor, and its classes are those that the additions
in its past have added. What they hold now may be other than what they held then. -/
structure ComesFrom (s : MappingSet) (ancestor : Nat) (past : List ClassAddition) : Prop where
  sound : s.Sound
  id : s.id = ⟨ancestor⟩
  classes : s.classes.elements.toList.map Class.emptied = past.map ClassAddition.declared

variable {s t : MappingSet} {ancestor : Nat} {past : List ClassAddition}

theorem comesFrom_create {names : List String} (h : create ⟨ancestor⟩ names = .ok s) :
    s.ComesFrom ancestor [] := by
  have hsound := sound_of_create h
  obtain ⟨valid, _, rfl⟩ := create_eq_ok h
  exact ⟨hsound, rfl, rfl⟩

/-- A class that is added stands behind the others, under an id with the number of the set. -/
theorem ComesFrom.addClass (hs : s.ComesFrom ancestor past) {names : NameRow} {origin : Origin}
    {parent : Option ClassId} {id : ClassId}
    (h : s.addClass names origin parent = .ok (id, t)) (position : Nat) :
    t.ComesFrom ancestor (past ++ [⟨position, id, names, origin, parent⟩]) := by
  have hsound := hs.sound.addClass h
  obtain ⟨rfl, _, _, hid⟩ := addClass_eq_ok h
  refine ⟨hsound, hs.id, ?_⟩
  show List.map Class.emptied (s.classes.elements.push _).toList = _
  rw [Array.toList_push, List.map_append, List.map_append, hs.classes, hid]
  rfl

/-- An update of a class that keeps the rest of it leaves the class itself as it is. -/
theorem ComesFrom.modifyClass (hs : s.ComesFrom ancestor past) {id : ClassId} {α : Type}
    {edit : Update Class α} (hedit : Class.KeepsRest edit) :
    ((MappingSet.modifyClass id edit).left s).ComesFrom ancestor past := by
  cases hc : s.class? id with
  | none =>
    rw [Update.left_of_error (run_modifyClass_of_none hc edit)]
    exact hs
  | some c =>
    have hat := (class?_eq_some_iff.1 hc).2
    rw [left_modifyClass_of_some hc]
    refine ⟨hs.sound.withClass hat (hedit c), hs.id, ?_⟩
    rw [← hs.classes]
    exact Table.map_elements_replace Class.emptied hat (hedit c).emptied

/-- The class at a position is the one that the addition at this position has added. -/
theorem ComesFrom.getElem?_past (hs : s.ComesFrom ancestor past) (k : Nat) :
    (past[k]?).map ClassAddition.declared = (s.classes.get? k).map Class.emptied := by
  rw [← List.getElem?_map, ← hs.classes, List.getElem?_map, Array.getElem?_toList]
  rfl

/-- Each addition in the past has its class, at the same position. -/
theorem ComesFrom.exists_class (hs : s.ComesFrom ancestor past) {k : Nat} {a : ClassAddition}
    (ha : past[k]? = some a) :
    ∃ c, s.classes.get? k = some c ∧ c.emptied = a.declared ∧ a.id = ⟨⟨ancestor⟩, k⟩ := by
  have hget := hs.getElem?_past k
  rw [ha] at hget
  obtain ⟨c, hc, hdeclared⟩ := Option.map_eq_some_iff.1 hget.symm
  refine ⟨c, hc, hdeclared, ?_⟩
  have hid : c.id = a.id := congrArg Class.id hdeclared
  rw [← hid, hs.sound.ids k c hc, hs.id]

/-- An id that was handed out by an addition in the past means the class of that addition. -/
theorem ComesFrom.class?_of_mem (hs : s.ComesFrom ancestor past) {a : ClassAddition}
    (ha : a ∈ past) : ∃ c, s.class? a.id = some c ∧ c.emptied = a.declared := by
  obtain ⟨k, hk⟩ := List.getElem?_of_mem ha
  obtain ⟨c, hc, hdeclared, hid⟩ := hs.exists_class hk
  refine ⟨c, class?_eq_some_iff.2 ?_, hdeclared⟩
  rw [hid]
  exact ⟨hs.id.symm, hc⟩

/-- No id was handed out twice in the past. -/
theorem ComesFrom.eq_of_id_eq (hs : s.ComesFrom ancestor past) {a b : ClassAddition}
    (ha : a ∈ past) (hb : b ∈ past) (h : a.id = b.id) : a = b := by
  obtain ⟨i, hi⟩ := List.getElem?_of_mem ha
  obtain ⟨j, hj⟩ := List.getElem?_of_mem hb
  obtain ⟨_, _, _, hia⟩ := hs.exists_class hi
  obtain ⟨_, _, _, hjb⟩ := hs.exists_class hj
  have hij : i = j := congrArg ClassId.index (hia.symm.trans (h.trans hjb))
  subst hij
  exact Option.some.inj (hi.symm.trans hj)

/-- A set accepts the ids of its past, and no other ones. -/
theorem ComesFrom.accepts_iff (hs : s.ComesFrom ancestor past) {id : ClassId} :
    s.Accepts id ↔ ∃ a ∈ past, a.id = id := by
  rw [MappingSet.accepts_iff]
  constructor
  · rintro ⟨hset, hlt⟩
    have hget := hs.getElem?_past id.index
    have hc : s.classes.get? id.index = some s.classes.elements[id.index] :=
      Array.getElem?_eq_getElem hlt
    rw [hc] at hget
    obtain ⟨a, ha, _⟩ := Option.map_eq_some_iff.1 hget
    obtain ⟨_, _, _, hid⟩ := hs.exists_class ha
    refine ⟨a, List.mem_of_getElem? ha, ?_⟩
    rw [hid, ← hs.id, ← hset]
  · rintro ⟨a, ha, rfl⟩
    obtain ⟨k, hk⟩ := List.getElem?_of_mem ha
    obtain ⟨c, hc, _, hid⟩ := hs.exists_class hk
    rw [hid]
    exact ⟨hs.id.symm, (Array.getElem?_eq_some_iff.1 hc).1⟩

end MappingSet

/-! ## What happens to a workspace -/

namespace Workspace

variable {w v : Workspace} {position : Nat}

theorem size_push (w : Workspace) (s : MappingSet) :
    (w.push s).2.sets.size = w.sets.size + 1 :=
  Array.size_push ..

theorem get?_push (w : Workspace) (s : MappingSet) (p : Nat) :
    (w.push s).2.get? p = if p = w.sets.size then some s else w.get? p :=
  Array.getElem?_push

theorem lt_size_of_get? {s : MappingSet} (h : w.get? position = some s) :
    position < w.sets.size :=
  (Array.getElem?_eq_some_iff.1 h).1

theorem exists_get? (h : position < w.sets.size) : ∃ s, w.get? position = some s :=
  ⟨_, Array.getElem?_eq_getElem h⟩

theorem create_eq_ok {names : List String} (h : w.create names = .ok (position, v)) :
    ∃ s, MappingSet.create ⟨w.sets.size⟩ names = .ok s ∧ v = (w.push s).2 := by
  obtain ⟨s, hs, hv⟩ := exists_of_bind_eq_ok h
  cases hv
  exact ⟨s, hs, rfl⟩

theorem duplicate_eq_some {copy : Nat} (h : w.duplicate position = some (copy, v)) :
    ∃ s, w.get? position = some s ∧ copy = w.sets.size ∧ v = (w.push s).2 := by
  obtain ⟨s, hs, hv⟩ := Option.map_eq_some_iff.1 h
  cases hv
  exact ⟨s, hs, rfl, rfl⟩

/-- A change of one set leaves the others as they are. -/
theorem edit_eq_ok {α : Type} {change : MappingSet → Except MappingError (α × MappingSet)} {a : α}
    (h : w.edit position change = some (.ok (a, v))) :
    ∃ s t, w.get? position = some s ∧ change s = .ok (a, t) ∧ v.sets.size = w.sets.size ∧
      ∀ p, v.get? p = if p = position then some t else w.get? p := by
  obtain ⟨s, hs, hchange⟩ := Option.map_eq_some_iff.1 h
  obtain ⟨⟨b, t⟩, ht, hv⟩ := exists_of_bind_eq_ok hchange
  cases hv
  refine ⟨s, t, hs, ht, Array.size_setIfInBounds, fun p => ?_⟩
  show (w.sets.setIfInBounds position t)[p]? = _
  rw [Array.getElem?_setIfInBounds]
  by_cases hp : position = p
  · rw [if_pos hp, if_pos hp.symm, if_pos (lt_size_of_get? hs)]
  · rw [if_neg hp, if_neg (Ne.symm hp)]
    rfl

/-- Updates the set at a position in its place, if there is one. -/
def update {α : Type} (w : Workspace) (position : Nat) (u : Update MappingSet α) : Workspace :=
  ⟨w.sets.modify position u.left⟩

theorem size_update {α : Type} (w : Workspace) (position : Nat) (u : Update MappingSet α) :
    (w.update position u).sets.size = w.sets.size :=
  Array.size_modify

theorem get?_update {α : Type} (w : Workspace) (position : Nat) (u : Update MappingSet α)
    (p : Nat) :
    (w.update position u).get? p = if position = p then (w.get? p).map u.left else w.get? p :=
  Array.getElem?_modify

/-- The history tells what the sets are, and ids that were handed out have the number of the
set that did so. Of sets that are not there yet it tells nothing. -/
structure ToldBy (w : Workspace) (h : History) : Prop where
  sets : ∀ p s, w.get? p = some s → s.ComesFrom (h.ancestor p) (h.past p)
  additions : ∀ a, .added a ∈ h → a.set < w.sets.size ∧ a.id.set = ⟨h.ancestor a.set⟩
  unused : ∀ p, w.sets.size ≤ p → h.ancestor p = p ∧ h.past p = []

variable {h : History}

theorem ToldBy.empty : Workspace.empty.ToldBy [] := by
  refine ⟨fun p s hs => ?_, fun a ha => ?_, fun p _ => ⟨rfl, rfl⟩⟩
  · cases hs
  · cases ha

theorem ToldBy.create (hw : w.ToldBy h) {names : List String}
    (hcreate : w.create names = .ok (position, v)) : v.ToldBy h := by
  obtain ⟨s, hs, rfl⟩ := create_eq_ok hcreate
  have hsize := size_push w s
  refine ⟨fun p t ht => ?_, fun a ha => ?_, fun p hp => hw.unused p (by omega)⟩
  · rw [get?_push] at ht
    split at ht
    · -- nothing is told of the position yet, which is right for a set without classes
      rename_i hp
      cases ht
      subst hp
      obtain ⟨hancestor, hpast⟩ := hw.unused _ (Nat.le_refl w.sets.size)
      rw [hancestor, hpast]
      exact MappingSet.comesFrom_create hs
    · exact hw.sets p t ht
  · obtain ⟨hlt, hid⟩ := hw.additions a ha
    exact ⟨by omega, hid⟩

/-- The copy of a set has its past. -/
theorem ToldBy.duplicate (hw : w.ToldBy h) {copy : Nat}
    (hcopy : w.duplicate position = some (copy, v)) : v.ToldBy (.copied position copy :: h) := by
  obtain ⟨s, hs, rfl, rfl⟩ := duplicate_eq_some hcopy
  have hsize := size_push w s
  refine ⟨fun p t ht => ?_, fun a ha => ?_, fun p hp => ?_⟩
  · rw [get?_push] at ht
    rw [History.ancestor, History.past]
    split at ht
    · rename_i hp
      cases ht
      rw [if_pos hp]
      exact hw.sets position s hs
    · rename_i hp
      rw [if_neg hp]
      exact hw.sets p t ht
  · -- classes were added to sets in front of the copy, whose ancestors stay what they are
    obtain ⟨hlt, hid⟩ := hw.additions a (List.mem_of_ne_of_mem (by simp) ha)
    rw [History.ancestor, if_neg (Nat.ne_of_lt hlt)]
    exact ⟨by omega, hid⟩
  · have hne : p ≠ w.sets.size := by omega
    rw [History.ancestor, History.past, if_neg hne]
    exact hw.unused p (by omega)

/-- The past of the set to which a class is added goes on. -/
theorem ToldBy.addClass (hw : w.ToldBy h) {names : NameRow} {origin : Origin}
    {parent : Option ClassId} {id : ClassId}
    (hadd : w.edit position (·.addClass names origin parent) = some (.ok (id, v))) :
    v.ToldBy (.added ⟨position, id, names, origin, parent⟩ :: h) := by
  obtain ⟨s, t, hs, ht, hsize, hget⟩ := edit_eq_ok hadd
  have hlt := lt_size_of_get? hs
  refine ⟨fun p u hu => ?_, fun a ha => ?_, fun p hp => ?_⟩
  · rw [hget] at hu
    rw [History.ancestor, History.past]
    split at hu
    · rename_i hp
      cases hu
      subst hp
      rw [if_pos rfl]
      exact (hw.sets p s hs).addClass ht p
    · rename_i hp
      rw [if_neg (Ne.symm hp), List.append_nil]
      exact hw.sets p u hu
  · -- the new id has the number of the set, and so that of its ancestor
    rw [History.ancestor, hsize]
    rcases List.mem_cons.1 ha with hnew | hold
    · cases hnew
      refine ⟨hlt, ?_⟩
      obtain ⟨_, _, _, hid⟩ := MappingSet.addClass_eq_ok ht
      rw [hid]
      exact (hw.sets position s hs).id
    · exact hw.additions a hold
  · have hne : position ≠ p := by omega
    rw [History.ancestor, History.past, if_neg hne, List.append_nil]
    exact hw.unused p (by omega)

/-- Nothing happens to classes that are updated in their places. -/
theorem ToldBy.modifyClass (hw : w.ToldBy h) (position : Nat) (id : ClassId) {α : Type}
    {edit : Update Class α} (hedit : Class.KeepsRest edit) :
    (w.update position (MappingSet.modifyClass id edit)).ToldBy h := by
  have hsize := size_update w position (MappingSet.modifyClass id edit)
  refine ⟨fun p t ht => ?_, fun a ha => hsize ▸ hw.additions a ha,
    fun p hp => hw.unused p (hsize ▸ hp)⟩
  rw [get?_update] at ht
  split at ht
  · obtain ⟨s, hs, rfl⟩ := Option.map_eq_some_iff.1 ht
    exact (hw.sets p s hs).modifyClass hedit
  · exact hw.sets p t ht

end Workspace

/-! ## Runs -/

/-- What a caller asks for. A class is edited in any way that leaves all of it but its members, for
that is what the updates of a class do (`Class.keepsRest_insertField`, `.keepsRest_insertMethod` and
`.keepsRest_modifyMethod`). -/
inductive Request where
  | create (names : List String)
  | duplicate (position : Nat)
  | addClass (position : Nat) (names : NameRow) (origin : Origin) (parent : Option ClassId)
  | editClass (position : Nat) (id : ClassId) (edit : Update Class Unit)
      (keeps : Class.KeepsRest edit)

/-- Sets side by side and what happened to them. -/
structure Chronicle where
  workspace : Workspace
  history : History

namespace Chronicle

/-- One request. A class that refuses to be edited is left with what was done to it until then, and
any other request that is refused changes nothing. -/
def serve (c : Chronicle) : Request → Chronicle
  | .create names =>
    match c.workspace.create names with
    | .ok (_, w) => ⟨w, c.history⟩
    | .error _ => c
  | .duplicate position =>
    match c.workspace.duplicate position with
    | some (copy, w) => ⟨w, .copied position copy :: c.history⟩
    | none => c
  | .addClass position names origin parent =>
    match c.workspace.edit position (·.addClass names origin parent) with
    | some (.ok (id, w)) => ⟨w, .added ⟨position, id, names, origin, parent⟩ :: c.history⟩
    | _ => c
  | .editClass position id edit _ =>
    ⟨c.workspace.update position (MappingSet.modifyClass id edit), c.history⟩

/-- A run from the start. -/
def run (requests : List Request) : Chronicle := requests.foldl serve ⟨.empty, []⟩

/-- One request is told by what it adds to the history. -/
theorem toldBy_serve {c : Chronicle} (hc : c.workspace.ToldBy c.history) (request : Request) :
    (c.serve request).workspace.ToldBy (c.serve request).history := by
  cases request with
  | create names =>
    simp only [serve]
    split
    · exact hc.create ‹_›
    · exact hc
  | duplicate position =>
    simp only [serve]
    split
    · exact hc.duplicate ‹_›
    · exact hc
  | addClass position names origin parent =>
    simp only [serve]
    split
    · exact hc.addClass ‹_›
    · exact hc
  | editClass position id edit keeps => exact hc.modifyClass position id keeps

theorem toldBy_serveAll {c : Chronicle} (hc : c.workspace.ToldBy c.history)
    (requests : List Request) :
    (requests.foldl serve c).workspace.ToldBy (requests.foldl serve c).history := by
  induction requests generalizing c with
  | nil => exact hc
  | cons request rest ih => exact ih (toldBy_serve hc request)

/-- The history of a run tells what its sets are. -/
theorem toldBy_run (requests : List Request) :
    (run requests).workspace.ToldBy (run requests).history :=
  toldBy_serveAll .empty requests

end Chronicle

/-- **Which class ids a set accepts.** Consider any run that creates sets, copies them, and
adds classes to them and changes them. A set accepts exactly the ids that the additions in
its past have handed out, which all differ, and they mean the classes of these additions. As
for ids from anywhere in the run, it accepts those from a set with the same ancestor, if the
position is one of its own. -/
theorem class_ids_accepted (requests : List Request) {p : Nat} {s : MappingSet}
    (hs : (Chronicle.run requests).workspace.get? p = some s) :
    let history := (Chronicle.run requests).history
    (∀ id, s.Accepts id ↔ ∃ a ∈ history.past p, a.id = id) ∧
      (∀ a ∈ history.past p, (∀ b ∈ history.past p, b.id = a.id → b = a) ∧
        ∃ c, s.class? a.id = some c ∧ c.emptied = a.declared) ∧
      ∀ a, .added a ∈ history → (s.Accepts a.id ↔
        history.ancestor a.set = history.ancestor p ∧ a.id.index < s.classes.size) := by
  intro history
  have htold := Chronicle.toldBy_run requests
  have hfrom := htold.sets p s hs
  refine ⟨fun id => hfrom.accepts_iff, fun a ha => ⟨fun b hb => hfrom.eq_of_id_eq hb ha,
    hfrom.class?_of_mem ha⟩, fun a ha => ?_⟩
  rw [MappingSet.accepts_iff, hfrom.id, (htold.additions a ha).2, SetId.mk.injEq]

/-- A copy accepts the id of the class that it was made with, and means the same class by it.
It also accepts the one that was added to the first set later, for it has two classes itself.
A set that was created by itself accepts neither. -/
theorem class_ids_accepted_shared :
    let row (name : String) : NameRow := ⟨[some name, none]⟩
    let requests : List Request :=
      [.create ["a", "b"], .addClass 0 (row "A") .unknown none, .duplicate 0,
        .addClass 0 (row "B") .unknown none, .addClass 1 (row "C") .unknown (some ⟨⟨0⟩, 0⟩),
        .create ["a", "b"]]
    let c := Chronicle.run requests
    let added (set index : Nat) (name : String) (parent : Option ClassId) : ClassAddition :=
      ⟨set, ⟨⟨0⟩, index⟩, row name, .unknown, parent⟩
    ∃ copy other, c.workspace.get? 1 = some copy ∧ c.workspace.get? 2 = some other ∧
      c.history.past 1 = [added 0 0 "A" none, added 1 1 "C" (some ⟨⟨0⟩, 0⟩)] ∧
      (copy.Accepts ⟨⟨0⟩, 0⟩ ∧ ∃ d, copy.class? ⟨⟨0⟩, 0⟩ = some d ∧ d.names = row "A") ∧
      copy.Accepts (added 0 1 "B" none).id ∧ ¬ other.Accepts ⟨⟨0⟩, 0⟩ := by
  intro row requests c added
  have hsize : c.workspace.sets.size = 3 := by decide +kernel
  obtain ⟨copy, hcopy⟩ := Workspace.exists_get? (w := c.workspace) (show 1 < _ by omega)
  obtain ⟨other, hother⟩ := Workspace.exists_get? (w := c.workspace) (show 2 < _ by omega)
  have hpast : c.history.past 1 = [added 0 0 "A" none, added 1 1 "C" (some ⟨⟨0⟩, 0⟩)] := by
    decide +kernel
  have hnew : c.history.past 2 = [] := by decide +kernel
  obtain ⟨haccepts, hmeans, _⟩ := class_ids_accepted requests hcopy
  obtain ⟨hnone, _, _⟩ := class_ids_accepted requests hother
  rw [hpast] at haccepts hmeans
  rw [hnew] at hnone
  refine ⟨copy, other, hcopy, hother, hpast, ⟨(haccepts _).2 ?_, ?_⟩, (haccepts _).2 ?_, ?_⟩
  · exact ⟨added 0 0 "A" none, List.mem_cons_self, rfl⟩
  · obtain ⟨d, hd, hdeclared⟩ := (hmeans (added 0 0 "A" none) List.mem_cons_self).2
    exact ⟨d, hd, congrArg (fun d : Class => d.names) hdeclared⟩
  · exact ⟨added 1 1 "C" (some ⟨⟨0⟩, 0⟩), List.mem_cons_of_mem _ List.mem_cons_self, rfl⟩
  · intro h
    obtain ⟨a, ha, _⟩ := (hnone _).1 h
    cases ha

/-- After a set is copied, both hand out the same id. So the copy takes the id of a class that
was added to the first set for that of its own class. -/
theorem class_id_accepted_by_copy :
    let row (name : String) : NameRow := ⟨[some name, none]⟩
    let c := Chronicle.run [.create ["a", "b"], .duplicate 0,
      .addClass 0 (row "A") .unknown none, .addClass 1 (row "B") .unknown none]
    let a : ClassAddition := ⟨0, ⟨⟨0⟩, 0⟩, row "A", .unknown, none⟩
    ∃ copy d, c.workspace.get? 1 = some copy ∧ .added a ∈ c.history ∧ a ∉ c.history.past 1 ∧
      copy.Accepts a.id ∧ copy.class? a.id = some d ∧ d.names = row "B" := by
  intro row c a
  have hsize : c.workspace.sets.size = 2 := by decide +kernel
  obtain ⟨copy, hcopy⟩ := Workspace.exists_get? (w := c.workspace) (show 1 < _ by omega)
  have hfrom := (Chronicle.toldBy_run _).sets 1 copy hcopy
  have hown : ⟨1, ⟨⟨0⟩, 0⟩, row "B", .unknown, none⟩ ∈ c.history.past 1 := by decide +kernel
  obtain ⟨d, hd, hdeclared⟩ := hfrom.class?_of_mem hown
  have haccepts : copy.Accepts a.id := hfrom.accepts_iff.2 ⟨_, hown, rfl⟩
  exact ⟨copy, d, hcopy, by decide +kernel, by decide +kernel, haccepts, hd,
    congrArg (fun d : Class => d.names) hdeclared⟩

end SymbolMap
