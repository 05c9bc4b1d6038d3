import SymbolMap.MappingSet.Query
import SymbolMap.Proofs.MappingSet.Growth

/-!
# What a set refuses, and what an addition leaves alone

An addition is refused for what is wrong with it (`Addition.Misfits`), and for nothing
else: a row of names of the wrong length, a class that is none of the set, a local
variable without a place. Members and variables are only compared with what holds them,
but that has one name slot for each namespace, as all elements of a set that can be
reached (`MappingSet.Reachable.failsOnMisfits`).

A refused addition leaves the set as it was (`Addition.atomic_perform`), so it might as well
not have been tried (`MappingSet.Reachable.attemptAll_of_misfits`). A member that is added
changes the members of its class and nothing else (`MappingSet.ConfinedTo`): by the names of
packages and classes the same ones are found at the same positions.
-/

namespace SymbolMap

/-! ## What does not fit -/

/-- The id has the number of the set and a position that there is. -/
def MappingSet.Knows (s : MappingSet) (id : ClassId) : Prop :=
  id.set = s.id ∧ id.index < s.classes.size

instance (s : MappingSet) (id : ClassId) : Decidable (s.Knows id) :=
  inferInstanceAs (Decidable (id.set = s.id ∧ id.index < s.classes.size))

namespace Addition

/-- What is wrong with an addition to a set. Where the method of a variable is none of
the class, nothing is added and nothing can be wrong with it. -/
def Misfits (s : MappingSet) : Addition → Prop
  | .newPackage names _ => names.size ≠ s.width
  | .newClass names _ parent => names.size ≠ s.width ∨ ∃ p ∈ parent, ¬ s.Knows p
  | .newField owner names _ _ _ => ¬ s.Knows owner ∨ names.size ≠ s.width
  | .newMethod owner names _ _ _ => ¬ s.Knows owner ∨ names.size ≠ s.width
  | .newParam owner id names _ _ _ _ =>
    ¬ s.Knows owner ∨ id.owner = owner ∧ s.method? id ≠ none ∧ names.size ≠ s.width
  | .newLocal owner id names _ index _ =>
    ¬ s.Knows owner ∨ id.owner = owner ∧ s.method? id ≠ none ∧
      (names.size ≠ s.width ∨ index.range.slot = none ∧ index.table = none)

instance (s : MappingSet) : DecidablePred (Misfits s)
  | .newPackage names _ => inferInstanceAs (Decidable (names.size ≠ s.width))
  | .newClass names _ parent =>
    inferInstanceAs (Decidable (names.size ≠ s.width ∨ ∃ p ∈ parent, ¬ s.Knows p))
  | .newField owner names _ _ _ =>
    inferInstanceAs (Decidable (¬ s.Knows owner ∨ names.size ≠ s.width))
  | .newMethod owner names _ _ _ =>
    inferInstanceAs (Decidable (¬ s.Knows owner ∨ names.size ≠ s.width))
  | .newParam owner id names _ _ _ _ =>
    inferInstanceAs (Decidable
      (¬ s.Knows owner ∨ id.owner = owner ∧ s.method? id ≠ none ∧ names.size ≠ s.width))
  | .newLocal owner id names _ index _ =>
    inferInstanceAs (Decidable (¬ s.Knows owner ∨ id.owner = owner ∧ s.method? id ≠ none ∧
      (names.size ≠ s.width ∨ index.range.slot = none ∧ index.table = none)))

end Addition

/-! ## Refusals -/

namespace Update

variable {σ τ α β : Type} {u : Update σ α} {x : σ}

theorem refuses_map_iff {f : α → β} : (f <$> u).Refuses x ↔ u.Refuses x := by
  unfold Refuses
  simp only [run_map_eq_error_iff]

theorem exists_putBack_eq_error_iff {put : τ → σ} {v : Update τ α} {part : τ} :
    (∃ e y, putBack put (v.run part) = .error e y) ↔ v.Refuses part := by
  unfold Refuses
  simp only [putBack_eq_error_iff, exists_comm (α := σ), exists_eq_right']

end Update

theorem LocalIndex.isKnown_eq_false_iff {index : LocalIndex} :
    index.isKnown = false ↔ index.range.slot = none ∧ index.table = none := by
  simp [isKnown, SlotRange.isKnown]

namespace Method

variable {m : Method} {names : NameRow} {origin : Origin} {type : Option FieldType}

theorem refuses_insertParam_iff {index : Nat} {table : Option Nat} :
    (insertParam names origin index table type).Refuses m ↔ names.size ≠ m.names.size := by
  unfold Update.Refuses
  rw [run_insertParam]
  split <;> simp [*]

theorem refuses_insertLocal_iff {index : LocalIndex} :
    (insertLocal names origin index type).Refuses m ↔
      names.size ≠ m.names.size ∨ index.range.slot = none ∧ index.table = none := by
  unfold Update.Refuses
  rw [run_insertLocal, ← LocalIndex.isKnown_eq_false_iff]
  split
  · split <;> simp [*]
  · simp [*]

end Method

namespace Class

variable {c : Class} {names : NameRow} {origin : Origin} {flags : MemberFlags}

theorem refuses_insertField_iff {type : Option FieldType} :
    (insertField names origin type flags).Refuses c ↔ names.size ≠ c.names.size := by
  unfold Update.Refuses
  rw [run_insertField]
  split <;> simp [*]

/-- Where filling is never refused, a method is refused for the number of names alone. -/
theorem refuses_insertMethod_iff {descriptor : MethodDescriptor} {α : Type}
    {fill : Update Method α} (hfill : ∀ m, ¬ fill.Refuses m) :
    (insertMethod names origin descriptor flags fill).Refuses c ↔
      names.size ≠ c.names.size := by
  unfold Update.Refuses
  rw [run_insertMethod]
  split
  · rename_i hsize
    rw [Update.exists_putBack_eq_error_iff]
    exact ⟨fun h => absurd h (hfill _), fun h => absurd hsize h⟩
  · simp [*]

/-- An update of a method is refused if it is one of the class and refuses the update. -/
theorem refuses_modifyMethod_iff {id : MethodId} {α : Type} {edit : Update Method α} :
    (modifyMethod id edit).Refuses c ↔ ∃ m, c.method? id = some m ∧ edit.Refuses m := by
  unfold Update.Refuses
  cases hm : c.method? id with
  | none => simp [run_modifyMethod_of_none hm]
  | some m =>
    rw [run_modifyMethod_of_some hm, Update.exists_putBack_eq_error_iff, Update.refuses_map_iff]
    simp [Update.Refuses]

end Class

namespace MappingSet

variable {s t : MappingSet}

theorem class?_eq_none_iff {id : ClassId} : s.class? id = none ↔ ¬ s.Knows id := by
  unfold class? position? Knows
  by_cases hset : id.set = s.id
  · simp [hset, Table.get?, Table.size]
  · simp [hset]

theorem refuses_insertPackage_iff {names : NameRow} {origin : Origin} :
    (insertPackage names origin).Refuses s ↔ names.size ≠ s.width := by
  unfold Update.Refuses
  rw [run_insertPackage]
  split <;> simp [*]

theorem refuses_insertClass_iff {names : NameRow} {origin : Origin} {parent : Option ClassId} :
    (insertClass names origin parent).Refuses s ↔
      names.size ≠ s.width ∨ ∃ p ∈ parent, ¬ s.Knows p := by
  unfold Update.Refuses
  rw [run_insertClass]
  split
  · rename_i hsize
    cases parent with
    | none => simp [hsize]
    | some p =>
      by_cases hp : s.Knows p
      · have hforeign : (some p).filter (fun outer => (s.class? outer).isNone) = none := by
          have hclass : s.class? p ≠ none := fun hnone => class?_eq_none_iff.1 hnone hp
          simp [Option.filter, hclass]
        simp [hsize, hp, hforeign]
      · have hforeign : (some p).filter (fun outer => (s.class? outer).isNone) = some p := by
          simp [Option.filter, class?_eq_none_iff.2 hp]
        simp [hsize, hp, hforeign]
  · simp [*]

/-- An update of a class is refused for an id that the set does not know, or else if the class
refuses it. -/
theorem refuses_modifyClass_iff {id : ClassId} {α : Type} {edit : Update Class α} :
    (modifyClass id edit).Refuses s ↔
      ¬ s.Knows id ∨ ∃ c, s.class? id = some c ∧ edit.Refuses c := by
  rw [← class?_eq_none_iff]
  unfold Update.Refuses
  cases hc : s.class? id with
  | none => simp [run_modifyClass_of_none hc]
  | some c =>
    rw [run_modifyClass_of_some hc, Update.exists_putBack_eq_error_iff]
    simp [Update.Refuses]

/-- What a set refuses, and what its classes and methods do. Each one fails for these
reasons and for no others. -/
structure FailsOnMisfits (s : MappingSet) : Prop where
  insertPackage : ∀ names origin,
    (MappingSet.insertPackage names origin).Refuses s ↔ names.size ≠ s.width
  insertClass : ∀ names origin parent, (MappingSet.insertClass names origin parent).Refuses s ↔
    names.size ≠ s.width ∨ ∃ p ∈ parent, ¬ s.Knows p
  modifyClass : ∀ (α : Type) id (edit : Update Class α),
    (MappingSet.modifyClass id edit).Refuses s ↔
      ¬ s.Knows id ∨ ∃ c, s.class? id = some c ∧ edit.Refuses c
  insertField : ∀ k c, s.classes.get? k = some c → ∀ names origin type flags,
    (Class.insertField names origin type flags).Refuses c ↔ names.size ≠ s.width
  insertMethod : ∀ k c, s.classes.get? k = some c → ∀ names origin descriptor flags (α : Type)
    (fill : Update Method α), (∀ m, ¬ fill.Refuses m) →
    ((Class.insertMethod names origin descriptor flags fill).Refuses c ↔ names.size ≠ s.width)
  insertParam : ∀ k c, s.classes.get? k = some c → ∀ m ∈ c.methods, ∀ names origin index table type,
    (Method.insertParam names origin index table type).Refuses m ↔ names.size ≠ s.width
  insertLocal : ∀ k c, s.classes.get? k = some c → ∀ m ∈ c.methods, ∀ names origin index type,
    (Method.insertLocal names origin index type).Refuses m ↔
      names.size ≠ s.width ∨ index.range.slot = none ∧ index.table = none
  perform : ∀ addition : Addition, addition.perform.Refuses s ↔ addition.Misfits s

/-- The methods of a class of the set, as they are found by their ids. -/
theorem Sound.method?_eq (hs : s.Sound) {owner : ClassId} {c : Class}
    (hc : s.class? owner = some c) (id : MethodId) :
    c.method? id = if id.owner = owner then s.method? id else none := by
  obtain ⟨hset, hat⟩ := class?_eq_some_iff.1 hc
  have hid : c.id = owner := by
    rw [hs.ids _ c hat, ← hset]
  unfold Class.method? MappingSet.method?
  rw [hid]
  split
  · rename_i howner
    rw [howner, hc]
    rfl
  · rfl

/-- Of a class that the set knows there is one. -/
theorem not_knows_or_iff {owner : ClassId} {P : Class → Prop} {wrong : Prop}
    (h : ∀ c, s.class? owner = some c → (P c ↔ wrong)) :
    (¬ s.Knows owner ∨ ∃ c, s.class? owner = some c ∧ P c) ↔ ¬ s.Knows owner ∨ wrong := by
  cases hc : s.class? owner with
  | none => simp [class?_eq_none_iff.1 hc]
  | some c => simp [h c hc]

/-- All that a method of the set asks of names is what the set asks of them. -/
theorem Structured.size_of_method? (hs : s.Structured) {owner : ClassId} {c : Class}
    (hc : s.class? owner = some c) {id : MethodId} {m : Method} (hm : c.method? id = some m) :
    m.names.size = s.width := by
  have hat := (class?_eq_some_iff.1 hc).2
  exact ((hs.members _ c hat).methods _ m (Class.method?_eq_some_iff.1 hm).2).2.names

/-- An update of a method is refused where there is the method, and where each method of the set
refuses it. -/
theorem Reachable.refuses_modifyMethod_iff (h : s.Reachable) {owner : ClassId} {id : MethodId}
    {α : Type} {edit : Update Method α} {wrong : Prop}
    (hedit : ∀ m, m.names.size = s.width → (edit.Refuses m ↔ wrong)) :
    (MappingSet.modifyMethod owner id edit).Refuses s ↔
      ¬ s.Knows owner ∨ id.owner = owner ∧ s.method? id ≠ none ∧ wrong := by
  refine refuses_modifyClass_iff.trans (not_knows_or_iff fun c hc => ?_)
  rw [Class.refuses_modifyMethod_iff]
  have hfound := h.sound.method?_eq hc id
  constructor
  · rintro ⟨m, hm, hfails⟩
    rw [hm] at hfound
    split at hfound
    · rename_i howner
      refine ⟨howner, ?_, (hedit m (h.structured.size_of_method? hc hm)).1 hfails⟩
      rw [← hfound]
      exact Option.some_ne_none m
    · cases hfound
  · rintro ⟨howner, hmethod, hwrong⟩
    obtain ⟨m, hm⟩ := Option.ne_none_iff_exists'.1 hmethod
    rw [if_pos howner, hm] at hfound
    exact ⟨m, hfound, (hedit m (h.structured.size_of_method? hc hfound)).2 hwrong⟩

/-- An addition is refused exactly if something is wrong with it. -/
theorem Reachable.refuses_perform_iff (h : s.Reachable) (addition : Addition) :
    addition.perform.Refuses s ↔ addition.Misfits s := by
  have hwidth : ∀ owner c, s.class? owner = some c → c.names.size = s.width := fun owner c hc =>
    h.structured.names _ c (class?_eq_some_iff.1 hc).2
  cases addition with
  | newPackage names origin =>
    exact Update.refuses_map_iff.trans refuses_insertPackage_iff
  | newClass names origin parent =>
    exact Update.refuses_map_iff.trans refuses_insertClass_iff
  | newField owner names origin type flags =>
    refine Update.refuses_map_iff.trans (refuses_modifyClass_iff.trans ?_)
    apply not_knows_or_iff
    intro c hc
    rw [Class.refuses_insertField_iff, hwidth owner c hc]
  | newMethod owner names origin descriptor flags =>
    refine refuses_modifyClass_iff.trans ?_
    apply not_knows_or_iff
    intro c hc
    rw [Class.refuses_insertMethod_iff Update.not_refuses_pure, hwidth owner c hc]
  | newParam owner id names origin index table type =>
    refine Update.refuses_map_iff.trans (h.refuses_modifyMethod_iff fun m hm => ?_)
    rw [Method.refuses_insertParam_iff, hm]
  | newLocal owner id names origin index type =>
    refine Update.refuses_map_iff.trans (h.refuses_modifyMethod_iff fun m hm => ?_)
    rw [Method.refuses_insertLocal_iff, hm]

theorem Reachable.failsOnMisfits (h : s.Reachable) : s.FailsOnMisfits := by
  have hclass := fun k c hc => h.structured.names k c hc
  have hmethod : ∀ k c, s.classes.get? k = some c → ∀ m ∈ c.methods, m.names.size = s.width := by
    intro k c hc m hm
    obtain ⟨i, hi⟩ := List.getElem?_of_mem hm
    exact ((h.structured.members k c hc).methods i m hi).2.names
  constructor
  · intro names origin
    exact refuses_insertPackage_iff
  · intro names origin parent
    exact refuses_insertClass_iff
  · intro α id edit
    exact refuses_modifyClass_iff
  · intro k c hc names origin type flags
    rw [Class.refuses_insertField_iff, hclass k c hc]
  · intro k c hc names origin descriptor flags α fill hfill
    rw [Class.refuses_insertMethod_iff hfill, hclass k c hc]
  · intro k c hc m hm names origin index table type
    rw [Method.refuses_insertParam_iff, hmethod k c hc m hm]
  · intro k c hc m hm names origin index type
    rw [Method.refuses_insertLocal_iff, hmethod k c hc m hm]
  · exact h.refuses_perform_iff

/-- A refused addition leaves the set as it was. -/
theorem Reachable.attempt_of_misfits (h : s.Reachable) {addition : Addition}
    (hmisfits : addition.Misfits s) : s.attempt addition = s :=
  addition.atomic_perform.left_of_refuses ((h.refuses_perform_iff addition).2 hmisfits)

/-- A run of additions leads to where it leads without one that is refused. -/
theorem Reachable.attemptAll_of_misfits (h : s.Reachable) (before : List Addition)
    {addition : Addition} (later : List Addition)
    (hmisfits : addition.Misfits (before.foldl MappingSet.attempt s)) :
    (before ++ addition :: later).foldl MappingSet.attempt s =
      (before ++ later).foldl MappingSet.attempt s := by
  have hsame := (h.attemptAll before).attempt_of_misfits hmisfits
  rw [List.foldl_append, List.foldl_append, List.foldl_cons, hsame]

/-! ## What stays when a member is added -/

/-- A class that was found, as it is in the set. -/
def renewed (s : MappingSet) (found : Entry Class) : Entry Class :=
  ⟨found.position, (s.classes.get? found.position).getD found.item⟩

/-- The second set differs from the first one in the members of one class at most. -/
structure ConfinedTo (owner : ClassId) (s t : MappingSet) : Prop where
  id : t.id = s.id
  spaces : t.namespaceNames = s.namespaceNames
  packages : t.packages = s.packages
  size : t.classes.size = s.classes.size
  own : ∃ c d, s.class? owner = some c ∧ t.class? owner = some d ∧ c.Remains d
  others : ∀ k, k ≠ owner.index → t.classes.get? k = s.classes.get? k
  findPackages : ∀ name, t.findPackages name = s.findPackages name
  findPackagesIn : ∀ ns name, t.findPackagesIn ns name = s.findPackagesIn ns name
  findClasses : ∀ name, t.findClasses name = (s.findClasses name).map t.renewed
  findClassesIn : ∀ ns name,
    t.findClassesIn ns name = (s.findClassesIn ns name).map (List.map t.renewed)
  qualifiedName : ∀ k c d, s.classes.get? k = some c → t.classes.get? k = some d → ∀ ns,
    t.qualifiedName d ns = s.qualifiedName c ns

theorem select_eq_map_renewed (h : ∀ k, s.classes.get? k = none ↔ t.classes.get? k = none)
    (positions : List Nat) :
    t.classes.select positions = (s.classes.select positions).map t.renewed := by
  unfold Table.select
  induction positions with
  | nil => rfl
  | cons k rest ih =>
    cases hs : s.classes.get? k with
    | none => simpa [hs, (h k).1 hs] using ih
    | some c =>
      obtain ⟨d, hd⟩ : ∃ d, t.classes.get? k = some d := by
        apply Option.ne_none_iff_exists'.1
        rw [ne_eq, ← h k, hs]
        exact Option.some_ne_none c
      simpa [hs, hd, renewed] using ih

/-- A class of which only the members have changed leaves all else as it was. -/
theorem Sound.confinedTo_withClass (hs : s.Sound) {owner : ClassId} {c d : Class}
    (hc : s.class? owner = some c) (hcd : c.Remains d) :
    ConfinedTo owner s (s.withClass owner.index d) := by
  have hat := (class?_eq_some_iff.1 hc).2
  have hsame : s.SameClasses (s.withClass owner.index d) := sameClasses_withClass hat hcd
  generalize ht : s.withClass owner.index d = t at hsame
  have hget : ∀ k, t.classes.get? k = if owner.index = k ∧ k < s.classes.size then
      some d else s.classes.get? k := by
    intro k
    rw [← ht]
    exact Table.get?_replace _ _ _ _
  have hnone : ∀ k, s.classes.get? k = none ↔ t.classes.get? k = none := by
    intro k
    rw [hget]
    split
    · rename_i hk
      rw [← hk.1, hat]
      simp
    · rfl
  have hindex : ∀ ns, t.indexOf ns = s.indexOf ns := indexOf_of_extends hsame.1
  have hpackages : t.packages = s.packages := by rw [← ht]; rfl
  have hanywhere : t.classes.anywhere = s.classes.anywhere := by rw [← ht]; rfl
  have hspaces : t.classes.perNamespace = s.classes.perNamespace := by rw [← ht]; rfl
  refine ⟨hsame.1.id, hsame.1.spaces, hpackages, ?_, ?_, ?_, ?_, ?_, ?_, ?_, ?_⟩
  · rw [← ht]
    exact Table.size_replace _ _ _
  · rw [← ht]
    exact ⟨c, d, hc, class?_withClass hc d, hcd⟩
  · intro k hk
    rw [hget, if_neg fun h => hk h.1.symm]
  · intro name
    unfold findPackages
    rw [hpackages]
  · intro ns name
    unfold findPackagesIn
    rw [hindex, hpackages]
  · -- the names of the classes lead to the same positions as before
    intro name
    unfold findClasses Table.named
    rw [hanywhere, select_eq_map_renewed hnone]
  · intro ns name
    unfold findClassesIn findClassesAt Table.namedAt
    rw [hindex, hspaces]
    cases s.indexOf ns with
    | error e => rfl
    | ok i =>
      show Except.ok _ = Except.ok _
      rw [select_eq_map_renewed hnone]
  · intro k c' d hc' hd ns
    obtain ⟨d', hd', hremains⟩ := hsame.1.classes k c' hc'
    cases hd.symm.trans hd'
    exact qualifiedName_of_extends hsame.1 hs hc' hremains ns

end MappingSet

/-- **A set refuses what does not fit it, and changes no more than it has to.** In a set that
can be reached, additions and changes fail for what is wrong with them, and for nothing
else. An addition that is refused leaves the set as it was: so a run of additions, from there
on, leads to the same set without one that is refused, wherever in the run it stands. A member
or variable that is accepted changes the members of its class, and nothing else. -/
theorem additions_refused_or_confined {s : MappingSet} (h : s.Reachable) :
    s.FailsOnMisfits ∧
      (∀ (addition : Addition) e t, addition.perform.run s = .error e t → t = s) ∧
      (∀ before addition later, addition.Misfits (before.foldl MappingSet.attempt s) →
        (before ++ addition :: later).foldl MappingSet.attempt s =
          (before ++ later).foldl MappingSet.attempt s) ∧
      ∀ (addition : Addition) owner t, addition.owner? = some owner →
        addition.perform.run s = .ok () t → MappingSet.ConfinedTo owner s t := by
  refine ⟨h.failsOnMisfits, fun addition => addition.atomic_perform s,
    fun before addition later => h.attemptAll_of_misfits before later,
    fun addition owner t howner ht => ?_⟩
  obtain ⟨c, d, hc, hcd, rfl⟩ := MappingSet.exists_withClass_of_perform howner ht
  exact h.sound.confinedTo_withClass hc hcd

/-- Names of the wrong length, classes of other sets or of none, and a local variable without a
place are refused, and a local variable in front of which one of them stands is added as if it
did not. The two classes are found by their names as before. -/
theorem additions_refused_or_confined_local :
    let row (name : String) : NameRow := ⟨[some name, none]⟩
    let short : NameRow := ⟨[some "n"]⟩
    let inner : ClassId := ⟨⟨7⟩, 1⟩
    let start : MappingSet := ⟨⟨7⟩, ["a", "b"], .empty 2, .empty 2⟩
    let s := [.newPackage (row "x") .unknown, .newClass (row "x/O") .unknown none,
      .newClass (row "x/I") .unknown (some ⟨⟨7⟩, 0⟩),
      .newMethod inner (row "m") .unknown ⟨[], .void⟩ .unknown].foldl MappingSet.attempt start
    let wrong : List Addition := [.newPackage short .unknown,
      .newClass (row "x/A") .unknown (some ⟨⟨7⟩, 2⟩),
      .newClass (row "x/A") .unknown (some ⟨⟨8⟩, 0⟩),
      .newField ⟨⟨8⟩, 1⟩ (row "f") .unknown none .unknown,
      .newParam inner ⟨inner, 0⟩ short .unknown 0 none none,
      .newLocal inner ⟨inner, 0⟩ (row "v") .unknown ⟨⟨none, some 1, none⟩, none⟩ none]
    let v : Addition :=
      .newLocal inner ⟨inner, 0⟩ (row "v") .unknown ⟨⟨some 1, none, none⟩, none⟩ none
    s.Reachable ∧
      (∀ addition ∈ wrong, (∃ e, addition.perform.run s = .error e s) ∧
        [addition, v].foldl MappingSet.attempt s = [v].foldl MappingSet.attempt s) ∧
      ∃ t, v.perform.run s = .ok () t ∧ MappingSet.ConfinedTo inner s t ∧
        (t.findClasses "x/I").map Entry.position = [1] ∧
        (t.method? ⟨inner, 0⟩).map (fun m => m.locals.map fun v => v.names) = some [row "v"] := by
  intro row short inner start s wrong v
  have hstart : start.Fresh := .inl ⟨⟨7⟩, ["a", "b"], rfl⟩
  have hs : s.Reachable := hstart.reachable.attemptAll _
  obtain ⟨hfails, hunchanged, hskip, hconfined⟩ := additions_refused_or_confined hs
  have hwrong : ∀ addition ∈ wrong, addition.Misfits s := by decide +kernel
  refine ⟨hs, fun addition hmem => ⟨?_, ?_⟩, ?_⟩
  · obtain ⟨e, t, ht⟩ := (hfails.perform addition).2 (hwrong addition hmem)
    exact ⟨e, hunchanged addition e t ht ▸ ht⟩
  · exact hskip [] addition [v] (hwrong addition hmem)
  · have hfits : ¬ v.Misfits s := by decide +kernel
    obtain ⟨t, ht⟩ : ∃ t, v.perform.run s = .ok () t := by
      cases hv : v.perform.run s with
      | ok _ t => exact ⟨t, rfl⟩
      | error e t => exact absurd ((hfails.perform v).1 ⟨e, t, hv⟩) hfits
    have hanswers : ((s.attempt v).findClasses "x/I").map Entry.position = [1] ∧
        ((s.attempt v).method? ⟨inner, 0⟩).map (fun m => m.locals.map fun v => v.names) =
          some [row "v"] := by decide +kernel
    have hleft : s.attempt v = t := Update.left_of_ok ht
    rw [hleft] at hanswers
    exact ⟨t, ht, hconfined v inner t rfl ht, hanswers⟩

end SymbolMap
