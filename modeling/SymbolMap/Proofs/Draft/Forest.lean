import SymbolMap.Draft.Container

/-!
# Forests of class drafts

The classes of a draft and those that are nested in them are a forest. A walk
over it in pre-order meets each class in front of the classes nested in it, and
those in front of the next class beside it (`ClassDraft.preorder`). The position
of a class in the walk tells its occurrences apart, also those of equal drafts;
where a class is declared is a relation between such positions
(`ClassDraft.Encloses`, `ClassDraft.Outermost`).

A `Placed` class carries the position of the class around it. The layout of a
forest finds these positions on the way down, and finds the right ones
(`ClassDraft.declaredIn_iff_of_layout`).
-/

namespace SymbolMap

namespace ClassDraft

/-! ## The walk -/

mutual

/-- A class in front of all classes inside of it. -/
def subtree : ClassDraft → List ClassDraft
  | ⟨heading, fields, methods, inner, recent⟩ =>
    ⟨heading, fields, methods, inner, recent⟩ :: preorder inner

/-- The classes of a forest, each in front of those inside of it. -/
def preorder : List ClassDraft → List ClassDraft
  | [] => []
  | c :: rest => subtree c ++ preorder rest

end

theorem subtree_eq (c : ClassDraft) : c.subtree = c :: preorder c.inner := by
  cases c
  rfl

theorem preorder_cons (c : ClassDraft) (rest : List ClassDraft) :
    preorder (c :: rest) = c :: (preorder c.inner ++ preorder rest) := by
  show c.subtree ++ preorder rest = _
  rw [subtree_eq, List.cons_append]

theorem preorder_append (xs ys : List ClassDraft) :
    preorder (xs ++ ys) = preorder xs ++ preorder ys := by
  induction xs with
  | nil => rfl
  | cons c rest ih =>
    rw [List.cons_append, preorder_cons, preorder_cons, ih, List.cons_append, List.append_assoc]

/-- What is in a forest is in the trees of it. -/
theorem mem_preorder_iff {forest : List ClassDraft} {d : ClassDraft} :
    d ∈ preorder forest ↔ ∃ c ∈ forest, d = c ∨ d ∈ preorder c.inner := by
  induction forest with
  | nil => simp [preorder]
  | cons c rest ih => simp [preorder_cons, ih, or_assoc]

/-- Induction over a forest: over what is inside of its first class, and over the
classes beside that one. -/
theorem forest_induction {P : List ClassDraft → Prop} (nil : P [])
    (cons : ∀ c rest, P c.inner → P rest → P (c :: rest)) : ∀ forest, P forest
  | [] => nil
  | ⟨heading, fields, methods, inner, recent⟩ :: rest =>
    cons ⟨heading, fields, methods, inner, recent⟩ rest (forest_induction nil cons inner)
      (forest_induction nil cons rest)

/-! ## Where a class is declared -/

/-- The class at position `i` of the walk over a forest is declared inside of the
one at position `j`, behind the ones that are walked over in between. -/
def Encloses (forest : List ClassDraft) (j i : Nat) : Prop :=
  ∃ outer c before after, (preorder forest)[j]? = some outer ∧
    (preorder forest)[i]? = some c ∧ outer.inner = before ++ c :: after ∧
    i = j + 1 + (preorder before).length

/-- The class at position `i` of the walk over a forest is one of its roots. -/
def Outermost (forest : List ClassDraft) (i : Nat) : Prop :=
  ∃ c before after, (preorder forest)[i]? = some c ∧ forest = before ++ c :: after ∧
    i = (preorder before).length

/-- Where the class at position `i` of the walk is declared: it is a root, or it
is inside of the class at the given position. -/
def DeclaredIn (forest : List ClassDraft) (i : Nat) : Option Nat → Prop
  | none => Outermost forest i
  | some j => Encloses forest j i

section Cons

variable (c : ClassDraft) (rest : List ClassDraft)

/-- Behind the first class of a forest, the walk is inside of that class. -/
theorem getElem?_preorder_inside {j : Nat} (hj : j < (preorder c.inner).length) :
    (preorder (c :: rest))[j + 1]? = (preorder c.inner)[j]? := by
  rw [preorder_cons, List.getElem?_cons_succ, List.getElem?_append_left hj]

/-- Behind all that is inside of the first class, the walk is in the other trees. -/
theorem getElem?_preorder_beside (j : Nat) :
    (preorder (c :: rest))[(preorder c.inner).length + j + 1]? = (preorder rest)[j]? := by
  rw [preorder_cons, List.getElem?_cons_succ, List.getElem?_append_right (Nat.le_add_right _ _),
    Nat.add_sub_cancel_left]

variable {c rest} {i j : Nat}

theorem lt_of_getElem?_preorder {forest : List ClassDraft} {d : ClassDraft}
    (h : (preorder forest)[i]? = some d) : i < (preorder forest).length :=
  (List.getElem?_eq_some_iff.1 h).1

/-- The roots inside of the first class are declared in it. -/
theorem Outermost.inside (h : Outermost c.inner i) : Encloses (c :: rest) 0 (i + 1) := by
  obtain ⟨d, before, after, hat, hsplit, hi⟩ := h
  refine ⟨c, d, before, after, ?_, ?_, hsplit, ?_⟩
  · rw [preorder_cons]
    rfl
  · rw [getElem?_preorder_inside c rest (lt_of_getElem?_preorder hat), hat]
  · omega

theorem Encloses.inside (h : Encloses c.inner j i) : Encloses (c :: rest) (j + 1) (i + 1) := by
  obtain ⟨outer, d, before, after, houter, hat, hsplit, hi⟩ := h
  refine ⟨outer, d, before, after, ?_, ?_, hsplit, ?_⟩
  · rw [getElem?_preorder_inside c rest (lt_of_getElem?_preorder houter), houter]
  · rw [getElem?_preorder_inside c rest (lt_of_getElem?_preorder hat), hat]
  · omega

theorem Outermost.beside (h : Outermost rest i) :
    Outermost (c :: rest) ((preorder c.inner).length + i + 1) := by
  obtain ⟨d, before, after, hat, hsplit, hi⟩ := h
  refine ⟨d, c :: before, after, ?_, ?_, ?_⟩
  · rw [getElem?_preorder_beside, hat]
  · rw [hsplit, List.cons_append]
  · rw [preorder_cons, List.length_cons, List.length_append]
    omega

theorem Encloses.beside (h : Encloses rest j i) :
    Encloses (c :: rest) ((preorder c.inner).length + j + 1)
      ((preorder c.inner).length + i + 1) := by
  obtain ⟨outer, d, before, after, houter, hat, hsplit, hi⟩ := h
  refine ⟨outer, d, before, after, ?_, ?_, hsplit, ?_⟩
  · rw [getElem?_preorder_beside, houter]
  · rw [getElem?_preorder_beside, hat]
  · omega

end Cons

/-! ## The layout -/

/-- A class together with the position of the class around it. -/
structure Placed where
  parent : Option Nat
  draft : ClassDraft

mutual

/-- The places of a class that comes to stand at `start` and of the classes
inside of it. -/
def layoutOne (parent : Option Nat) (start : Nat) : ClassDraft → List Placed
  | ⟨heading, fields, methods, inner, recent⟩ =>
    ⟨parent, ⟨heading, fields, methods, inner, recent⟩⟩ :: layout (some start) (start + 1) inner

/-- The places of classes beside each other, the first of which comes to stand
at `start`. -/
def layout (parent : Option Nat) (start : Nat) : List ClassDraft → List Placed
  | [] => []
  | c :: rest => layoutOne parent start c ++ layout parent (start + c.subtree.length) rest

end

variable {parent : Option Nat} {start : Nat}

theorem layout_cons (c : ClassDraft) (rest : List ClassDraft) :
    layout parent start (c :: rest) =
      ⟨parent, c⟩ :: (layout (some start) (start + 1) c.inner ++
        layout parent (start + 1 + (preorder c.inner).length) rest) := by
  have hone : layoutOne parent start c =
      ⟨parent, c⟩ :: layout (some start) (start + 1) c.inner := by
    cases c
    rfl
  show layoutOne parent start c ++ layout parent (start + c.subtree.length) rest = _
  rw [hone, subtree_eq, List.length_cons, List.cons_append, Nat.add_assoc, Nat.add_comm 1]

/-- The layout walks over the forest. -/
theorem map_draft_layout (forest : List ClassDraft) :
    ∀ parent start, (layout parent start forest).map Placed.draft = preorder forest := by
  induction forest using forest_induction with
  | nil => exact fun _ _ => rfl
  | cons c rest ihinner ihrest =>
    intro parent start
    rw [layout_cons, preorder_cons, List.map_cons, List.map_append, ihinner, ihrest]

theorem length_layout (forest : List ClassDraft) (parent : Option Nat) (start : Nat) :
    (layout parent start forest).length = (preorder forest).length := by
  rw [← map_draft_layout forest parent start, List.length_map]

theorem getElem?_preorder_of_layout {forest : List ClassDraft} {i : Nat} {p : Placed}
    (h : (layout parent start forest)[i]? = some p) : (preorder forest)[i]? = some p.draft := by
  rw [← map_draft_layout forest parent start, List.getElem?_map, h]
  rfl

/-- A root has the parent of the forest, and any other class the position of the
class that it is declared in. -/
theorem parent_of_layout (forest : List ClassDraft) :
    ∀ (parent : Option Nat) (start i : Nat) (p : Placed),
      (layout parent start forest)[i]? = some p →
        (p.parent = parent ∧ Outermost forest i) ∨
          ∃ j, p.parent = some (start + j) ∧ Encloses forest j i := by
  induction forest using forest_induction with
  | nil =>
    intro parent start i p h
    cases h
  | cons c rest ihinner ihrest =>
    intro parent start i p h
    have hwalk := getElem?_preorder_of_layout h
    rw [layout_cons] at h
    cases i with
    | zero =>
      cases h
      exact .inl ⟨rfl, c, [], rest, hwalk, rfl, rfl⟩
    | succ i =>
      rw [List.getElem?_cons_succ] at h
      by_cases hlt : i < (preorder c.inner).length
      · -- the class is somewhere inside of `c`, which stands at `start`
        rw [List.getElem?_append_left (by rw [length_layout]; exact hlt)] at h
        rcases ihinner _ _ _ _ h with ⟨hparent, hroot⟩ | ⟨j, hparent, hinside⟩
        · exact .inr ⟨0, hparent, hroot.inside⟩
        · refine .inr ⟨j + 1, ?_, hinside.inside⟩
          rw [hparent, Nat.add_assoc, Nat.add_comm 1]
      · -- the class is in one of the trees beside `c`
        obtain ⟨k, rfl⟩ := Nat.exists_eq_add_of_le (Nat.le_of_not_lt hlt)
        rw [List.getElem?_append_right (by rw [length_layout]; omega), length_layout,
          Nat.add_sub_cancel_left] at h
        rcases ihrest _ _ _ _ h with ⟨hparent, hroot⟩ | ⟨j, hparent, hinside⟩
        · exact .inl ⟨hparent, hroot.beside⟩
        · refine .inr ⟨(preorder c.inner).length + j + 1, ?_, hinside.beside⟩
          rw [hparent]
          congr 1
          omega

theorem layout_append (xs ys : List ClassDraft) (parent : Option Nat) (start : Nat) :
    layout parent start (xs ++ ys) =
      layout parent start xs ++ layout parent (start + (preorder xs).length) ys := by
  induction xs generalizing start with
  | nil => rfl
  | cons c rest ih =>
    rw [List.cons_append, layout_cons, layout_cons, ih, preorder_cons, List.length_cons,
      List.length_append, List.cons_append, List.append_assoc]
    congr 4
    omega

/-- A root stands where the walk over those in front of it ends. -/
theorem getElem?_layout_root (before after : List ClassDraft) (d : ClassDraft) :
    (layout parent start (before ++ d :: after))[(preorder before).length]? =
      some ⟨parent, d⟩ := by
  rw [layout_append, List.getElem?_append_right (Nat.le_of_eq (length_layout ..)), length_layout,
    Nat.sub_self, layout_cons]
  rfl

/-- What is inside of a class stands right behind it. -/
theorem getElem?_layout_inside (forest : List ClassDraft) :
    ∀ (parent : Option Nat) (start j : Nat) (p : Placed),
      (layout parent start forest)[j]? = some p → ∀ k < (preorder p.draft.inner).length,
        (layout parent start forest)[j + 1 + k]? =
          (layout (some (start + j)) (start + j + 1) p.draft.inner)[k]? := by
  induction forest using forest_induction with
  | nil =>
    intro parent start j p h
    cases h
  | cons c rest ihinner ihrest =>
    intro parent start j p h k hk
    rw [layout_cons] at h ⊢
    cases j with
    | zero =>
      cases h
      rw [Nat.zero_add, Nat.add_comm 1, List.getElem?_cons_succ,
        List.getElem?_append_left (by rw [length_layout]; exact hk)]
      rfl
    | succ j =>
      rw [List.getElem?_cons_succ] at h
      have hnext : j + 1 + 1 + k = j + 1 + k + 1 := by omega
      rw [hnext, List.getElem?_cons_succ]
      by_cases hlt : j < (preorder c.inner).length
      · -- the class is inside of `c`, and so is all that is inside of it
        rw [List.getElem?_append_left (by rw [length_layout]; exact hlt)] at h
        have hinner := ihinner _ _ _ _ h k hk
        obtain ⟨q, hq⟩ : ∃ q, (layout (some (start + 1 + j)) (start + 1 + j + 1)
            p.draft.inner)[k]? = some q :=
          ⟨_, List.getElem?_eq_getElem (by rw [length_layout]; exact hk)⟩
        have hend := (List.getElem?_eq_some_iff.1 (hinner.trans hq)).1
        rw [List.getElem?_append_left hend, hinner, Nat.add_assoc start 1 j, Nat.add_comm 1 j]
      · -- the class is in one of the trees beside `c`
        obtain ⟨j, rfl⟩ := Nat.exists_eq_add_of_le (Nat.le_of_not_lt hlt)
        rw [List.getElem?_append_right (by rw [length_layout]; omega), length_layout,
          Nat.add_sub_cancel_left] at h
        have hrest := ihrest _ _ _ _ h k hk
        have hindex : (preorder c.inner).length + j + 1 + k - (preorder c.inner).length =
            j + 1 + k := by
          omega
        have hstart : start + 1 + (preorder c.inner).length + j =
            start + ((preorder c.inner).length + j + 1) := by
          omega
        rw [List.getElem?_append_right (by rw [length_layout]; omega), length_layout, hindex,
          hrest, hstart]

/-- The layout of a whole forest tells of each class where it is declared, and a
class is declared nowhere else. -/
theorem declaredIn_iff_of_layout {forest : List ClassDraft} {i : Nat} {p : Placed}
    (h : (layout none 0 forest)[i]? = some p) {parent : Option Nat} :
    DeclaredIn forest i parent ↔ p.parent = parent := by
  constructor
  · intro hdeclared
    cases parent with
    | none =>
      obtain ⟨d, before, after, _, rfl, rfl⟩ := hdeclared
      rw [getElem?_layout_root] at h
      cases h
      rfl
    | some j =>
      obtain ⟨outer, d, before, after, houter, _, hsplit, rfl⟩ := hdeclared
      rw [← map_draft_layout forest none 0, List.getElem?_map, Option.map_eq_some_iff] at houter
      obtain ⟨q, hq, rfl⟩ := houter
      have hlt : (preorder before).length < (preorder q.draft.inner).length := by
        rw [hsplit, ← length_layout (before ++ d :: after) none 0, layout_append,
          List.length_append, layout_cons, length_layout, List.length_cons]
        omega
      rw [getElem?_layout_inside forest none 0 j q hq _ hlt, hsplit, getElem?_layout_root] at h
      cases h
      rw [Nat.zero_add]
  · rintro rfl
    rcases parent_of_layout forest _ _ _ _ h with ⟨hparent, hroot⟩ | ⟨j, hparent, hinside⟩
    · rw [hparent]
      exact hroot
    · rw [hparent, Nat.zero_add]
      exact hinside

end ClassDraft

end SymbolMap
