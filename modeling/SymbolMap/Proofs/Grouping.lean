import Mathlib.Data.List.Nodup

/-!
# Lists read key by key

A list whose items have keys can be read key by key: the keys in the order in which they first
occur (`keysOf`), and for each of them the items that have it, in the order of the list
(`itemsOf`). A list that is stably regrouped (`regrouped`) reads the same
(`keysOf_regrouped`, `itemsOf_regrouped`).

What a list grows by at the end is read off from `keysOf_concat` and `itemsOf_concat`.
-/

namespace SymbolMap

variable {α κ : Type}

/-! ## First occurrences -/

section FirstOccurrences

variable [BEq κ] [LawfulBEq κ]

/-- A list without its repetitions holds nothing twice: behind each item only others are kept. -/
theorem nodup_eraseDups : (keys : List κ) → keys.eraseDups.Nodup
  | [] => List.nodup_nil
  | k :: rest => by
    rw [List.eraseDups_cons, List.nodup_cons]
    exact ⟨by simp [List.mem_eraseDups], nodup_eraseDups _⟩
termination_by keys => keys.length
decreasing_by
  have hfilter := List.length_filter_le (fun other => !other == k) rest
  rw [List.length_cons]
  omega

/-- An item at the end is kept if it is the first of its kind. -/
theorem eraseDups_concat [DecidableEq κ] (keys : List κ) (k : κ) :
    (keys ++ [k]).eraseDups = keys.eraseDups ++ if k ∈ keys then [] else [k] := by
  rw [List.eraseDups_append]
  by_cases hk : k ∈ keys
  · simp [List.removeAll, hk]
  · simp [List.removeAll, hk, List.eraseDups_cons]

end FirstOccurrences

/-! ## Keys and their items -/

variable [DecidableEq κ]

/-- The keys of the items, each once and in the order in which they first occur. -/
def keysOf (key : α → κ) (items : List α) : List κ := (items.map key).eraseDups

/-- The items of one key, in the order of the list. -/
def itemsOf (key : α → κ) (items : List α) (k : κ) : List α :=
  items.filter fun x => decide (key x = k)

/-- The items of the first key, in the order of the list, then those of the second one, and so
on. -/
def regrouped (key : α → κ) (items : List α) : List α :=
  (keysOf key items).flatMap (itemsOf key items)

variable {key : α → κ} {items : List α} {k : κ}

/-- Where no two items have the same key, the one of a key is found by it. -/
theorem find?_key_eq_some_iff (hkeys : (items.map key).Nodup) {x : α} :
    items.find? (fun y => key y == k) = some x ↔ x ∈ items ∧ key x = k := by
  constructor
  · intro hfound
    exact ⟨List.mem_of_find?_eq_some hfound, by simpa using List.find?_some hfound⟩
  · rintro ⟨hx, rfl⟩
    have hsome : (items.find? fun y => key y == key x).isSome :=
      List.find?_isSome.2 ⟨x, hx, beq_self_eq_true _⟩
    obtain ⟨y, hy⟩ := Option.isSome_iff_exists.1 hsome
    have hsame : key y = key x := by simpa using List.find?_some hy
    rw [hy, List.inj_on_of_nodup_map hkeys (List.mem_of_find?_eq_some hy) hx hsame]

theorem nodup_keysOf (key : α → κ) (items : List α) : (keysOf key items).Nodup :=
  nodup_eraseDups _

theorem mem_keysOf_iff : k ∈ keysOf key items ↔ ∃ x ∈ items, key x = k := by
  unfold keysOf
  rw [List.mem_eraseDups, List.mem_map]

theorem mem_itemsOf_iff {x : α} : x ∈ itemsOf key items k ↔ x ∈ items ∧ key x = k := by
  unfold itemsOf
  rw [List.mem_filter, decide_eq_true_iff]

theorem itemsOf_eq_nil_iff : itemsOf key items k = [] ↔ k ∉ keysOf key items := by
  rw [List.eq_nil_iff_forall_not_mem, mem_keysOf_iff]
  simp only [mem_itemsOf_iff, not_and, not_exists]

theorem keysOf_concat (x : α) :
    keysOf key (items ++ [x]) =
      keysOf key items ++ if key x ∈ keysOf key items then [] else [key x] := by
  unfold keysOf
  rw [List.map_append, List.map_singleton, eraseDups_concat]
  simp only [List.mem_eraseDups]

theorem itemsOf_concat (x : α) :
    itemsOf key (items ++ [x]) k = itemsOf key items k ++ if key x = k then [x] else [] := by
  unfold itemsOf
  rw [List.filter_append]
  by_cases h : key x = k <;> simp [h]

/-! ## Regrouping -/

/-- Items that stand together key by key have the keys in that order. -/
theorem eraseDups_map_flatMap {keys : List κ} {group : κ → List α} (hnodup : keys.Nodup)
    (hne : ∀ k ∈ keys, group k ≠ []) (hgroup : ∀ k ∈ keys, ∀ x ∈ group k, key x = k) :
    ((keys.flatMap group).map key).eraseDups = keys := by
  induction keys with
  | nil => rfl
  | cons k rest ih =>
    obtain ⟨hk, hrest⟩ := List.nodup_cons.1 hnodup
    have hothers := ih hrest (fun other h => hne other (List.mem_cons_of_mem _ h))
      (fun other h => hgroup other (List.mem_cons_of_mem _ h))
    obtain ⟨first, own, hown⟩ := List.exists_cons_of_ne_nil (hne k List.mem_cons_self)
    have hkeys := hgroup k List.mem_cons_self
    rw [hown, List.forall_mem_cons] at hkeys
    -- of what follows the first item, its own group goes and the others stay
    have hgone : (own.map key).filter (fun other => !other == k) = [] := by
      rw [List.filter_eq_nil_iff]
      intro other hother
      obtain ⟨x, hx, rfl⟩ := List.mem_map.1 hother
      simp [hkeys.2 x hx]
    have hstay : ((rest.flatMap group).map key).filter (fun other => !other == k) =
        (rest.flatMap group).map key := by
      rw [List.filter_eq_self]
      intro other hother
      obtain ⟨x, hx, rfl⟩ := List.mem_map.1 hother
      obtain ⟨l, hl, hx⟩ := List.mem_flatMap.1 hx
      rw [hgroup l (List.mem_cons_of_mem _ hl) x hx]
      simp [ne_of_mem_of_not_mem hl hk]
    rw [List.flatMap_cons, hown, List.cons_append, List.map_cons, hkeys.1, List.eraseDups_cons,
      List.map_append, List.filter_append, hgone, hstay, List.nil_append, hothers]

/-- Regrouping leaves the keys in the order of their first occurrence. -/
theorem keysOf_regrouped (key : α → κ) (items : List α) :
    keysOf key (regrouped key items) = keysOf key items := by
  apply eraseDups_map_flatMap (nodup_keysOf key items)
  · intro k hk hnil
    exact itemsOf_eq_nil_iff.1 hnil hk
  · exact fun k _ x hx => (mem_itemsOf_iff.1 hx).2

/-- Regrouping leaves the items of each key in their order. -/
theorem itemsOf_regrouped (key : α → κ) (items : List α) (k : κ) :
    itemsOf key (regrouped key items) k = itemsOf key items k := by
  have hgroups : ∀ keys : List κ, keys.Nodup →
      itemsOf key (keys.flatMap (itemsOf key items)) k =
        if k ∈ keys then itemsOf key items k else [] := by
    intro keys
    induction keys with
    | nil => exact fun _ => rfl
    | cons other rest ih =>
      intro hnodup
      obtain ⟨hother, hrest⟩ := List.nodup_cons.1 hnodup
      have hfirst : itemsOf key (itemsOf key items other) k =
          if other = k then itemsOf key items k else [] := by
        unfold itemsOf
        rw [List.filter_filter]
        by_cases h : other = k
        · simp [h]
        · simp only [if_neg h, List.filter_eq_nil_iff, Bool.and_eq_true, decide_eq_true_iff]
          exact fun x _ hx => h (hx.2.symm.trans hx.1)
      have hsplit : itemsOf key ((other :: rest).flatMap (itemsOf key items)) k =
          itemsOf key (itemsOf key items other) k ++
            itemsOf key (rest.flatMap (itemsOf key items)) k := by
        unfold itemsOf
        rw [List.flatMap_cons, List.filter_append]
      rw [hsplit, hfirst, ih hrest]
      by_cases h : other = k
      · subst h
        simp [hother]
      · simp [h, Ne.symm h]
  unfold regrouped
  rw [hgroups _ (nodup_keysOf key items)]
  split
  · rfl
  · rename_i hk
    exact (itemsOf_eq_nil_iff.2 hk).symm

end SymbolMap
