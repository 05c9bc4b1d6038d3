import Mathlib.Data.List.Induction
import SymbolMap.Element.Variable
import SymbolMap.Proofs.Draft.Pool
import SymbolMap.Proofs.Grouping

/-!
# Declarations that contend

Declarations are settled one after the other, and those of one key are rivals. What they leave is
told without going through the contests (`Settled`): there is one entry for each key, in the order
in which the keys first occur, and the entry of a key is the first one of the highest priority
among the declarations of that key (`Prevails`).

One declaration more keeps this (`Settled.settle`), so it holds of any number of them
(`settled_settleAll`). Where the priorities under each key differ, the order of the declarations
decides nothing but the order of the entries (`Settled.perm_of_perm`, `Settled.find?_eq_of_perm`).

Rivals need not be told by a key. What one contest does is said of any of them: each place is kept
or falls to a higher priority (`getElem?_settle`), so a declaration of a higher priority than all
others is left in the end (`mem_settleAll_of_highest`).
-/

namespace SymbolMap

variable {α κ : Type} [IsElement α]

/-! ## One contest -/

/-- The priority of the place where something is declared. -/
def priorityOf (x : α) : Priority := (IsElement.element x).origin.priority

theorem prevailing_of_le {old new : α} (h : priorityOf new ≤ priorityOf old) :
    prevailing old new = old := by
  unfold prevailing Origin.defersTo
  exact if_pos (decide_eq_true h)

theorem prevailing_of_lt {old new : α} (h : priorityOf old < priorityOf new) :
    prevailing old new = new := by
  unfold prevailing Origin.defersTo
  exact if_neg fun hle => Int32.not_le.2 h (of_decide_eq_true hle)

/-- One of the two stands in the end. -/
theorem prevailing_eq (old new : α) : prevailing old new = old ∨ prevailing old new = new := by
  unfold prevailing
  split
  · exact .inl rfl
  · exact .inr rfl

/-- A declaration goes to the end of the list, or contends with the first rival in its place. -/
theorem settle_cases (rivals : α → Bool) (new : α) (items : List α) :
    ((∀ x ∈ items, rivals x = false) ∧ settle rivals new items = (new, items ++ [new])) ∨
      ∃ before old after, items = before ++ old :: after ∧ (∀ x ∈ before, rivals x = false) ∧
        rivals old = true ∧ settle rivals new items =
          (prevailing old new, before ++ prevailing old new :: after) := by
  cases hfit : firstFit rivals items with
  | none =>
    have hfree := firstFit_eq_none_iff.1 hfit
    exact .inl ⟨hfree, settle_of_forall_not hfree⟩
  | some first =>
    obtain ⟨after, hsplit, hbefore⟩ := exists_append_of_firstFit hfit
    have hold := (firstFit_eq_some_iff.1 hfit).2.1
    refine .inr ⟨_, first.item, after, hsplit, hbefore, hold, ?_⟩
    conv => lhs; rw [hsplit]
    exact settle_append_cons hbefore hold

/-- Nothing but the declaration itself gets into the list. -/
theorem mem_of_mem_settle {rivals : α → Bool} {new x : α} {items : List α}
    (h : x ∈ (settle rivals new items).2) : x ∈ items ∨ x = new := by
  rcases settle_cases rivals new items with
    ⟨-, hsettle⟩ | ⟨before, old, after, rfl, -, -, hsettle⟩
  · rw [hsettle, List.mem_append, List.mem_singleton] at h
    exact h
  · rw [hsettle, List.mem_append, List.mem_cons] at h
    rw [List.mem_append, List.mem_cons]
    rcases prevailing_eq old new with hwinner | hwinner
    · rw [hwinner] at h
      exact .inl h
    · rw [hwinner] at h
      rcases h with h | h | h
      · exact .inl (.inl h)
      · exact .inr h
      · exact .inl (.inr (.inr h))

section OneContest

variable {rivals : α → Bool} {new old x : α} {items : List α}

theorem le_prevailing (old new : α) : priorityOf new ≤ priorityOf (prevailing old new) := by
  by_cases hle : priorityOf new ≤ priorityOf old
  · rw [prevailing_of_le hle]
    exact hle
  · rw [prevailing_of_lt (Int32.not_le.1 hle)]
    exact Int32.le_refl _

/-- A contest takes place where the first rival stands. -/
theorem settle_of_firstFit {first : Entry α} (h : firstFit rivals items = some first) :
    settle rivals new items = (prevailing first.item new,
      items.set first.position (prevailing first.item new)) := by
  obtain ⟨hat, hold, -⟩ := firstFit_eq_some_iff.1 h
  obtain ⟨hlt, hitem⟩ := List.getElem?_eq_some_iff.1 hat
  obtain ⟨_, -, hfree⟩ := exists_append_of_firstFit h
  have hsplit : items = items.take first.position ++
      first.item :: items.drop (first.position + 1) := by
    rw [← hitem, ← List.drop_eq_getElem_cons hlt, List.take_append_drop]
  rw [List.set_eq_take_append_cons_drop, if_pos hlt]
  conv => lhs; rw [hsplit]
  exact settle_append_cons hfree hold

/-- What is in the list stays in its place, or a declaration of a higher priority that it is a
rival of takes the place. -/
theorem getElem?_settle (rivals : α → Bool) (new : α) {k : Nat} (h : items[k]? = some x) :
    (settle rivals new items).2[k]? = some x ∨
      (settle rivals new items).2[k]? = some new ∧ rivals x = true ∧
        priorityOf x < priorityOf new := by
  have hlt := (List.getElem?_eq_some_iff.1 h).1
  cases hfit : firstFit rivals items with
  | none =>
    rw [settle_of_forall_not (firstFit_eq_none_iff.1 hfit)]
    exact .inl ((List.getElem?_append_left hlt).trans h)
  | some first =>
    obtain ⟨hat, hold, -⟩ := firstFit_eq_some_iff.1 hfit
    rw [settle_of_firstFit hfit]
    by_cases hk : first.position = k
    · subst hk
      obtain rfl : first.item = x := Option.some.inj (hat.symm.trans h)
      rw [List.getElem?_set_self hlt]
      by_cases hle : priorityOf new ≤ priorityOf first.item
      · rw [prevailing_of_le hle]
        exact .inl rfl
      · have hhigher := Int32.not_le.1 hle
        rw [prevailing_of_lt hhigher]
        exact .inr ⟨rfl, hold, hhigher⟩
    · rw [List.getElem?_set_ne hk]
      exact .inl h

/-- The list never shrinks. -/
theorem length_le_settle : items.length ≤ (settle rivals new items).2.length := by
  cases hfit : firstFit rivals items with
  | none =>
    rw [settle_of_forall_not (firstFit_eq_none_iff.1 hfit)]
    simp
  | some first =>
    rw [settle_of_firstFit hfit]
    simp

/-- What stands for a declaration has its priority or a higher one. -/
theorem le_fst_settle : priorityOf new ≤ priorityOf (settle rivals new items).1 := by
  rcases settle_cases rivals new items with ⟨-, hsettle⟩ | ⟨_, old, _, -, -, -, hsettle⟩
  · rw [hsettle]
    exact Int32.le_refl _
  · rw [hsettle]
    exact le_prevailing old new

/-- What is in the list is not outdone by a declaration of no higher priority. -/
theorem mem_settle_of_le (hx : x ∈ items) (h : priorityOf new ≤ priorityOf x) :
    x ∈ (settle rivals new items).2 := by
  obtain ⟨k, hk⟩ := List.getElem?_of_mem hx
  rcases getElem?_settle rivals new hk with hstays | ⟨-, -, hhigher⟩
  · exact List.mem_of_getElem? hstays
  · exact absurd h (Int32.not_le.2 hhigher)

/-- A declaration of a higher priority than all in the list gets into it. -/
theorem mem_settle_of_highest (h : ∀ y ∈ items, priorityOf y < priorityOf new) :
    new ∈ (settle rivals new items).2 := by
  rcases settle_cases rivals new items with ⟨-, hsettle⟩ | ⟨before, old, after, rfl, -, -, hsettle⟩
  · rw [hsettle]
    simp
  · rw [hsettle, prevailing_of_lt (h old (by simp))]
    simp

end OneContest

/-! ## The first one of the highest priority -/

section Prevails

variable {key : α → κ} {declared : List α} {x y new : α}

/-- Among the declarations of its key no other one has a higher priority, and none in front of it
has the same. -/
def Prevails (key : α → κ) (declared : List α) (winner : α) : Prop :=
  ∃ k : Nat, declared[k]? = some winner ∧
    ∀ (j : Nat) (other : α), declared[j]? = some other → key other = key winner →
      priorityOf other ≤ priorityOf winner ∧ (j < k → priorityOf other < priorityOf winner)

theorem Prevails.mem (h : Prevails key declared x) : x ∈ declared := by
  obtain ⟨k, hk, _⟩ := h
  exact List.mem_of_getElem? hk

theorem Prevails.highest (h : Prevails key declared x) (hy : y ∈ declared) (hkey : key y = key x) :
    priorityOf y ≤ priorityOf x := by
  obtain ⟨_, _, hothers⟩ := h
  obtain ⟨j, hj⟩ := List.mem_iff_getElem?.1 hy
  exact (hothers j y hj hkey).1

/-- Of each key one declaration prevails. -/
theorem Prevails.unique (hx : Prevails key declared x) (hy : Prevails key declared y)
    (h : key x = key y) : x = y := by
  obtain ⟨i, hi, hxs⟩ := hx
  obtain ⟨j, hj, hys⟩ := hy
  obtain ⟨hyx, hbefore⟩ := hxs j y hj h.symm
  obtain ⟨hxy, hbehind⟩ := hys i x hi h
  rcases Nat.lt_trichotomy i j with hlt | rfl | hlt
  · exact absurd hyx (Int32.not_le.2 (hbehind hlt))
  · exact Option.some.inj (hi.symm.trans hj)
  · exact absurd hxy (Int32.not_le.2 (hbefore hlt))

/-- What prevails is not moved by a declaration of another key, or of no higher priority, at the
end. -/
theorem Prevails.concat (h : Prevails key declared x)
    (hnew : key new = key x → priorityOf new ≤ priorityOf x) :
    Prevails key (declared ++ [new]) x := by
  obtain ⟨k, hk, hothers⟩ := h
  have hlt : k < declared.length := (List.getElem?_eq_some_iff.1 hk).1
  refine ⟨k, (List.getElem?_append_left hlt).trans hk, fun j other hj hkey => ?_⟩
  by_cases hin : j < declared.length
  · rw [List.getElem?_append_left hin] at hj
    exact hothers j other hj hkey
  · have hlast : other = new := by
      rw [List.getElem?_append_right (Nat.le_of_not_lt hin)] at hj
      exact List.mem_singleton.1 (List.mem_of_getElem? hj)
    subst hlast
    exact ⟨hnew hkey, fun hjk => absurd (Nat.lt_trans hjk hlt) hin⟩

/-- A declaration at the end prevails if all others of its key have lower priorities. -/
theorem prevails_concat
    (h : ∀ other ∈ declared, key other = key new → priorityOf other < priorityOf new) :
    Prevails key (declared ++ [new]) new := by
  refine ⟨declared.length, List.getElem?_concat_length, fun j other hj hkey => ?_⟩
  rcases List.mem_append.1 (List.mem_of_getElem? hj) with hother | hother
  · have hlower := h other hother hkey
    exact ⟨Int32.le_of_lt hlower, fun _ => hlower⟩
  · rw [List.mem_singleton.1 hother]
    refine ⟨Int32.le_refl _, fun hlt => ?_⟩
    -- there is no earlier place for it, but it may have been declared in front as well
    rw [List.mem_singleton.1 hother, List.getElem?_append_left hlt] at hj
    exact h new (List.mem_of_getElem? hj) rfl

/-- No two declarations of one key have the same priority. -/
def Ranked (key : α → κ) (declared : List α) : Prop :=
  declared.Pairwise fun x y => key x = key y → priorityOf x ≠ priorityOf y

theorem Ranked.perm {reordered : List α} (h : Ranked key declared)
    (hperm : reordered.Perm declared) : Ranked key reordered :=
  List.Pairwise.perm h hperm.symm fun hxy hkey => (hxy hkey.symm).symm

/-- Among declarations of different priorities there is no first one of the highest priority, but
only one. -/
theorem Ranked.prevails_iff (h : Ranked key declared) :
    Prevails key declared x ↔
      x ∈ declared ∧ ∀ other ∈ declared, key other = key x → priorityOf other ≤ priorityOf x := by
  constructor
  · exact fun hx => ⟨hx.mem, fun other hother hkey => hx.highest hother hkey⟩
  · rintro ⟨hx, hothers⟩
    obtain ⟨k, hk⟩ := List.mem_iff_getElem?.1 hx
    refine ⟨k, hk, fun j other hj hkey => ?_⟩
    have hle := hothers other (List.mem_of_getElem? hj) hkey
    refine ⟨hle, fun hjk => Int32.lt_of_le_of_ne hle ?_⟩
    obtain ⟨hklt, rfl⟩ := List.getElem?_eq_some_iff.1 hk
    obtain ⟨hjlt, rfl⟩ := List.getElem?_eq_some_iff.1 hj
    exact List.pairwise_iff_getElem.1 h j k hjlt hklt hjk hkey

theorem Ranked.prevails_iff_of_perm {reordered : List α} (h : Ranked key declared)
    (hperm : reordered.Perm declared) : Prevails key reordered x ↔ Prevails key declared x := by
  rw [(h.perm hperm).prevails_iff, h.prevails_iff]
  simp only [hperm.mem_iff]

/-! What is said of an item in a declaration may be all that the keys and priorities come from. -/

section Map

variable {β : Type} [IsElement β] {make : β → α} {keyOf : β → κ} {calls : List β}

theorem Prevails.exists_of_map (hkey : ∀ b, key (make b) = keyOf b)
    (hpriority : ∀ b, priorityOf (make b) = priorityOf b)
    (h : Prevails key (calls.map make) x) : ∃ b, Prevails keyOf calls b ∧ x = make b := by
  obtain ⟨k, hk, hothers⟩ := h
  rw [List.getElem?_map, Option.map_eq_some_iff] at hk
  obtain ⟨b, hb, rfl⟩ := hk
  refine ⟨b, ⟨k, hb, fun j other hj hsame => ?_⟩, rfl⟩
  have hother := hothers j (make other) (by rw [List.getElem?_map, hj]; rfl)
    (by rw [hkey, hkey, hsame])
  rwa [hpriority, hpriority] at hother

theorem Ranked.map (hkey : ∀ b, key (make b) = keyOf b)
    (hpriority : ∀ b, priorityOf (make b) = priorityOf b) (h : Ranked keyOf calls) :
    Ranked key (calls.map make) := by
  refine List.pairwise_map.2 (h.imp fun {b c} hbc => ?_)
  rw [hkey, hkey, hpriority, hpriority]
  exact hbc

end Map

end Prevails

/-! ## All contests -/

/-- What declarations leave that are settled one after the other. -/
def settleAll (rivals : α → α → Bool) (declared : List α) : List α :=
  declared.foldl (fun items new => (settle (rivals new) new items).2) []

section All

variable {rivals : α → α → Bool} {declared before after items : List α} {x : α}

theorem mem_of_mem_settleAll (h : x ∈ settleAll rivals declared) : x ∈ declared := by
  induction declared using List.reverseRecOn with
  | nil => exact absurd h List.not_mem_nil
  | append_singleton declared new ih =>
    unfold settleAll at h
    rw [List.foldl_append, List.foldl_cons, List.foldl_nil] at h
    rcases mem_of_mem_settle h with hold | rfl
    · exact List.mem_append_left _ (ih hold)
    · simp

/-- What is in the list outlasts all declarations of no higher priority. -/
theorem mem_foldl_settle (hx : x ∈ items) (h : ∀ y ∈ after, priorityOf y ≤ priorityOf x) :
    x ∈ after.foldl (fun items new => (settle (rivals new) new items).2) items := by
  induction after generalizing items with
  | nil => exact hx
  | cons new rest ih =>
    obtain ⟨hnew, hrest⟩ := List.forall_mem_cons.1 h
    exact ih (mem_settle_of_le hx hnew) hrest

/-- A declaration of a higher priority than all others is left in the end. -/
theorem mem_settleAll_of_highest (hbefore : ∀ y ∈ before, priorityOf y < priorityOf x)
    (hafter : ∀ y ∈ after, priorityOf y < priorityOf x) :
    x ∈ settleAll rivals (before ++ x :: after) := by
  have hin : x ∈ (settle (rivals x) x (settleAll rivals before)).2 :=
    mem_settle_of_highest fun y hy => hbefore y (mem_of_mem_settleAll hy)
  unfold settleAll
  rw [List.foldl_append, List.foldl_cons]
  exact mem_foldl_settle hin fun y hy => Int32.le_of_lt (hafter y hy)

end All

variable [DecidableEq κ]

/-- There is one entry for each key, in the order in which the keys first occur, and it is the
declaration that prevails. -/
structure Settled (key : α → κ) (declared items : List α) : Prop where
  keys : items.map key = keysOf key declared
  winners : ∀ x ∈ items, Prevails key declared x

namespace Settled

variable {key : α → κ} {declared items : List α} {x new : α} {k : κ}

theorem mem_keys_iff (h : Settled key declared items) :
    (∃ x ∈ items, key x = k) ↔ ∃ x ∈ declared, key x = k := by
  rw [← List.mem_map, h.keys, mem_keysOf_iff]

/-- The first declaration of a key stands at the end. -/
theorem concat (h : Settled key declared items) (hkey : ∀ x ∈ items, key x ≠ key new) :
    Settled key (declared ++ [new]) (items ++ [new]) := by
  have hdeclared : ∀ x ∈ declared, key x ≠ key new := by
    intro x hx hk
    obtain ⟨y, hy, hyk⟩ := h.mem_keys_iff.2 ⟨x, hx, hk⟩
    exact hkey y hy hyk
  have hnew : key new ∉ keysOf key declared := by
    rw [mem_keysOf_iff]
    exact fun ⟨x, hx, hk⟩ => hdeclared x hx hk
  constructor
  · rw [keysOf_concat, if_neg hnew, List.map_append, h.keys, List.map_singleton]
  · intro x hx
    rcases List.mem_append.1 hx with hx | hx
    · exact (h.winners x hx).concat fun hk => absurd hk.symm (hkey x hx)
    · rw [List.mem_singleton.1 hx]
      exact prevails_concat fun other hother hk => absurd hk (hdeclared other hother)

/-- Any other declaration of a key contends with the entry of that key. -/
theorem contend {before after : List α} {old : α}
    (h : Settled key declared (before ++ old :: after)) (hkey : key old = key new) :
    Settled key (declared ++ [new]) (before ++ prevailing old new :: after) := by
  have hmem : old ∈ before ++ old :: after := by simp
  have hprevails := h.winners old hmem
  have hwinner : key (prevailing old new) = key old ∧
      Prevails key (declared ++ [new]) (prevailing old new) := by
    by_cases hle : priorityOf new ≤ priorityOf old
    · rw [prevailing_of_le hle]
      exact ⟨rfl, hprevails.concat fun _ => hle⟩
    · have hlt := Int32.not_le.1 hle
      rw [prevailing_of_lt hlt]
      refine ⟨hkey.symm, prevails_concat fun other hother hk => ?_⟩
      exact Int32.lt_of_le_of_lt (hprevails.highest hother (hk.trans hkey.symm)) hlt
  constructor
  · have hold : key new ∈ keysOf key declared :=
      mem_keysOf_iff.2 (h.mem_keys_iff.1 ⟨old, hmem, hkey⟩)
    rw [keysOf_concat, if_pos hold, List.append_nil, ← h.keys, List.map_append, List.map_append,
      List.map_cons, List.map_cons, hwinner.1]
  · -- the entries around it have other keys, and are not moved
    have hothers : ∀ x ∈ before ++ after, key x ≠ key old := by
      have hnodup := nodup_keysOf key declared
      rw [← h.keys, List.map_append, List.map_cons, List.perm_middle.nodup_iff, List.nodup_cons,
        ← List.map_append] at hnodup
      exact fun x hx hk => hnodup.1 (hk ▸ List.mem_map_of_mem hx)
    intro x hx
    rcases List.mem_cons.1 (List.perm_middle.mem_iff.1 hx) with rfl | hx
    · exact hwinner.2
    · have hin : x ∈ before ++ old :: after :=
        List.perm_middle.mem_iff.2 (List.mem_cons_of_mem _ hx)
      exact (h.winners x hin).concat fun hk => absurd (hk.symm.trans hkey.symm) (hothers x hx)

/-- One declaration more is settled with the one entry of its key. -/
theorem settle {rivals : α → Bool} (h : Settled key declared items)
    (hrivals : ∀ x ∈ items, rivals x = true ↔ key x = key new) :
    Settled key (declared ++ [new]) (settle rivals new items).2 := by
  rcases settle_cases rivals new items with
    ⟨hfree, hsettle⟩ | ⟨before, old, after, rfl, -, hold, hsettle⟩
  · rw [hsettle]
    refine h.concat fun x hx hkey => ?_
    exact Bool.false_ne_true ((hfree x hx).symm.trans ((hrivals x hx).2 hkey))
  · rw [hsettle]
    exact h.contend ((hrivals old (by simp)).1 hold)

/-- The entries are the declarations that prevail. -/
theorem mem_iff (h : Settled key declared items) : x ∈ items ↔ Prevails key declared x := by
  refine ⟨h.winners x, fun hx => ?_⟩
  obtain ⟨entry, hentry, hkey⟩ := h.mem_keys_iff.2 ⟨x, hx.mem, rfl⟩
  rw [← (h.winners entry hentry).unique hx hkey]
  exact hentry

theorem nodup_keys (h : Settled key declared items) : (items.map key).Nodup :=
  h.keys ▸ nodup_keysOf key declared

/-- The entry of a key is the declaration that prevails. -/
theorem find?_eq_some_iff (h : Settled key declared items) :
    items.find? (fun x => key x == k) = some x ↔ Prevails key declared x ∧ key x = k := by
  rw [find?_key_eq_some_iff h.nodup_keys, h.mem_iff]

/-- The order of declarations of different priorities decides nothing but the order of the keys. -/
theorem perm_of_perm {reordered others : List α} (h : Settled key declared items)
    (hothers : Settled key reordered others) (hperm : reordered.Perm declared)
    (hranked : Ranked key declared) : others.Perm items := by
  refine (List.perm_ext_iff_of_nodup (hothers.nodup_keys.of_map key)
    (h.nodup_keys.of_map key)).2 fun x => ?_
  rw [hothers.mem_iff, h.mem_iff, hranked.prevails_iff_of_perm hperm]

theorem find?_eq_of_perm {reordered others : List α} (h : Settled key declared items)
    (hothers : Settled key reordered others) (hperm : reordered.Perm declared)
    (hranked : Ranked key declared) :
    others.find? (fun x => key x == k) = items.find? fun x => key x == k := by
  refine Option.ext fun x => ?_
  rw [hothers.find?_eq_some_iff, h.find?_eq_some_iff, hranked.prevails_iff_of_perm hperm]

end Settled

/-- Declarations that are rivals exactly if they have the same key leave one entry for each key. -/
theorem settled_settleAll {key : α → κ} {rivals : α → α → Bool} {declared : List α}
    (h : ∀ new ∈ declared, ∀ x ∈ declared, rivals new x = true ↔ key x = key new) :
    Settled key declared (settleAll rivals declared) := by
  induction declared using List.reverseRecOn with
  | nil => exact ⟨rfl, fun x hx => (List.not_mem_nil hx).elim⟩
  | append_singleton declared new ih =>
    have hsettled := ih fun other hother x hx =>
      h other (List.mem_append_left _ hother) x (List.mem_append_left _ hx)
    unfold settleAll
    rw [List.foldl_append, List.foldl_cons, List.foldl_nil]
    refine hsettled.settle fun x hx => ?_
    exact h new (by simp) x (List.mem_append_left _ (hsettled.winners x hx).mem)

end SymbolMap
