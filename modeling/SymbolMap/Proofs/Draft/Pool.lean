import SymbolMap.Draft.Pool

/-!
# First fits and remembered positions

A look-up in a list of drafts means the first item that fits. A look-up that
starts from where the last one ended means the same item, as long as the
remembered position can be trusted (`Recent.Trusted`): no item in front of it
fits the remembered key. What stands *at* the position may have changed in any
way, for that is looked at again.

* `firstFit_eq_some_iff`, `firstFit_eq_none_iff`: what a first fit is;
* `editFirst_of_some`, `editFirst_of_none`: changing the first fit in one walk
  is looking it up and then changing it;
* `forall_mem_editNew`, `forall_mem_set`, `forall_mem_editFirst`: what changes of
  one item leave true of all items;
* `Recent.find?_eq_firstFit`: a trusted memory does not change the answer;
* `Recent.Trusted.append`, `.found`, `.added`: what leaves a memory trusted.
-/

namespace SymbolMap

variable {α δ κ : Type}

/-! ## The first fit -/

theorem firstFit_nil (fits : δ → Bool) : firstFit fits [] = none := rfl

theorem firstFit_cons (fits : δ → Bool) (item : δ) (rest : List δ) :
    firstFit fits (item :: rest) =
      if fits item then some ⟨0, item⟩
      else (firstFit fits rest).map fun e => ⟨e.position + 1, e.item⟩ := by
  -- behind the first item every position is one more
  have hshift : (rest.mapIdx fun i x => (⟨i + 1, x⟩ : Entry δ)) =
      (Entry.ofList rest).map fun e => ⟨e.position + 1, e.item⟩ := by
    apply List.ext_getElem <;> simp [Entry.ofList]
  unfold firstFit
  rw [Entry.ofList, List.mapIdx_cons, hshift, List.find?_cons, List.find?_map]
  cases fits item with
  | true => rfl
  | false => simp only [Bool.false_eq_true, if_false, Function.comp_def]

/-- The first fit is an item that fits and that no fitting one stands before. -/
theorem firstFit_eq_some_iff {fits : δ → Bool} {items : List δ} {e : Entry δ} :
    firstFit fits items = some e ↔
      items[e.position]? = some e.item ∧ fits e.item = true ∧
        ∀ j < e.position, ∀ item, items[j]? = some item → fits item = false := by
  rw [firstFit, List.find?_eq_some_iff_getElem]
  simp only [Entry.ofList, List.length_mapIdx, List.getElem_mapIdx]
  constructor
  · rintro ⟨hfits, i, hi, rfl, hbefore⟩
    refine ⟨List.getElem?_eq_getElem hi, hfits, fun j hj item hat => ?_⟩
    obtain ⟨_, rfl⟩ := List.getElem?_eq_some_iff.1 hat
    simpa using hbefore j hj
  · rintro ⟨hat, hfits, hbefore⟩
    obtain ⟨hi, hitem⟩ := List.getElem?_eq_some_iff.1 hat
    refine ⟨hfits, e.position, hi, by rw [hitem], fun j hj => ?_⟩
    have := hbefore j hj _ (List.getElem?_eq_getElem (Nat.lt_trans hj hi))
    rw [this]
    rfl

/-- The items around the first fit. -/
theorem exists_append_of_firstFit {fits : δ → Bool} {items : List δ} {p : Nat} {item : δ}
    (h : firstFit fits items = some ⟨p, item⟩) :
    ∃ after, items = items.take p ++ item :: after ∧ ∀ x ∈ items.take p, fits x = false := by
  obtain ⟨hat, _, hbefore⟩ := firstFit_eq_some_iff.1 h
  obtain ⟨hp, hitem⟩ : ∃ hp : p < items.length, items[p] = item :=
    List.getElem?_eq_some_iff.1 hat
  refine ⟨items.drop (p + 1), ?_, fun x hx => ?_⟩
  · rw [← hitem, ← List.drop_eq_getElem_cons hp, List.take_append_drop]
  · obtain ⟨j, hj⟩ := List.getElem?_of_mem hx
    have hlt : j < p := by
      have := (List.getElem?_eq_some_iff.1 hj).1
      rw [List.length_take] at this
      omega
    rw [List.getElem?_take_of_lt hlt] at hj
    exact hbefore j hlt x hj

theorem firstFit_eq_none_iff {fits : δ → Bool} {items : List δ} :
    firstFit fits items = none ↔ ∀ item ∈ items, fits item = false := by
  rw [firstFit, List.find?_eq_none]
  constructor
  · intro h item hmem
    obtain ⟨i, hi⟩ := List.getElem?_of_mem hmem
    simpa using h ⟨i, item⟩ (Entry.mem_ofList.2 hi)
  · intro h e he
    simpa using h e.item (List.mem_of_getElem? (Entry.mem_ofList.1 he))

/-- The first fit among items that are made from others at the same positions. -/
theorem firstFit_mapIdx {β : Type} {make : Nat → δ → β} {fits : β → Bool} {fitsItem : δ → Bool}
    (h : ∀ position item, fits (make position item) = fitsItem item) (items : List δ) :
    firstFit fits (items.mapIdx make) =
      (firstFit fitsItem items).map fun e => ⟨e.position, make e.position e.item⟩ := by
  cases hfit : firstFit fitsItem items with
  | none =>
    refine firstFit_eq_none_iff.2 fun made hmade => ?_
    obtain ⟨position, hlt, rfl⟩ := List.mem_mapIdx.1 hmade
    rw [h]
    exact firstFit_eq_none_iff.1 hfit _ (List.getElem_mem hlt)
  | some found =>
    obtain ⟨hat, hfits, hbefore⟩ := firstFit_eq_some_iff.1 hfit
    refine firstFit_eq_some_iff.2 ⟨?_, (h _ _).trans hfits, fun j hj made hmade => ?_⟩
    · rw [List.getElem?_mapIdx, hat]
      rfl
    · rw [List.getElem?_mapIdx, Option.map_eq_some_iff] at hmade
      obtain ⟨item, hitem, rfl⟩ := hmade
      exact (h _ _).trans (hbefore j hj item hitem)

/-! ## Changing the first fit -/

theorem editFirst_of_some {fits : δ → Bool} {new : δ} {edit : δ → α × δ} {items : List δ}
    {e : Entry δ} (h : firstFit fits items = some e) :
    editFirst fits new edit items =
      ((edit e.item).1, items.set e.position (edit e.item).2) := by
  induction items generalizing e with
  | nil => simp [firstFit_nil] at h
  | cons first rest ih =>
    rw [firstFit_cons] at h
    by_cases hfit : fits first = true
    · rw [if_pos hfit] at h
      cases h
      simp [editFirst, hfit]
    · rw [if_neg hfit] at h
      obtain ⟨found, hfound, rfl⟩ := Option.map_eq_some_iff.1 h
      simp [editFirst, hfit, ih hfound]

theorem editFirst_of_none {fits : δ → Bool} {new : δ} {edit : δ → α × δ} {items : List δ}
    (h : firstFit fits items = none) :
    editFirst fits new edit items = editNew new edit items := by
  induction items with
  | nil => rfl
  | cons first rest ih =>
    rw [firstFit_cons] at h
    by_cases hfit : fits first = true
    · simp [hfit] at h
    · rw [if_neg hfit, Option.map_eq_none_iff] at h
      simp [editFirst, hfit, ih h, editNew]

theorem forall_mem_editNew {P : δ → Prop} {new : δ} {edit : δ → α × δ} {items : List δ}
    (hitems : ∀ x ∈ items, P x) (hnew : P (edit new).2) :
    ∀ x ∈ (editNew new edit items).2, P x :=
  List.forall_mem_append.2 ⟨hitems, List.forall_mem_singleton.2 hnew⟩

theorem forall_mem_set {P : δ → Prop} {items : List δ} (hitems : ∀ x ∈ items, P x) {changed : δ}
    (hchanged : P changed) (position : Nat) : ∀ x ∈ items.set position changed, P x := by
  intro x hx
  rcases List.mem_or_eq_of_mem_set hx with hx | rfl
  · exact hitems x hx
  · exact hchanged

/-- A property that a change keeps is kept by a change of the first fit. -/
theorem forall_mem_editFirst {P : δ → Prop} {fits : δ → Bool} {new : δ} {edit : δ → α × δ}
    {items : List δ} (hitems : ∀ x ∈ items, P x) (hnew : P new)
    (hedit : ∀ x, P x → P (edit x).2) :
    ∀ x ∈ (editFirst fits new edit items).2, P x := by
  cases hfit : firstFit fits items with
  | some found =>
    obtain ⟨hat, _, _⟩ := firstFit_eq_some_iff.1 hfit
    rw [editFirst_of_some hfit]
    exact forall_mem_set hitems (hedit _ (hitems _ (List.mem_of_getElem? hat))) _
  | none =>
    rw [editFirst_of_none hfit]
    exact forall_mem_editNew hitems (hedit _ hnew)

/-! ## The remembered position -/

namespace Recent

/-- What a look-up ends at is an item of the list, whatever is remembered. -/
theorem getElem?_of_find? [DecidableEq κ] {recent : Option (Recent κ)} {key : κ}
    {fits : δ → Bool} {items : List δ} {e : Entry δ}
    (h : Recent.find? recent key fits items = some e) : items[e.position]? = some e.item := by
  unfold Recent.find? at h
  split at h
  · exact (firstFit_eq_some_iff.1 h).1
  · split at h
    · exact (firstFit_eq_some_iff.1 h).1
    · rename_i item hat
      split at h
      · cases h
        exact hat
      · exact (firstFit_eq_some_iff.1 h).1

/-- No item in front of the remembered position fits the remembered key, and
the position is one of the list. -/
structure Trusted (fits : δ → κ → Bool) (items : List δ) (r : Recent κ) : Prop where
  inside : r.position < items.length
  first : ∀ j < r.position, ∀ item, items[j]? = some item → fits item r.key = false

variable {fits : δ → κ → Bool} {items : List δ}

/-- A look-up that trusts its memory ends where a walk over the list ends. -/
theorem find?_eq_firstFit [DecidableEq κ] {recent : Option (Recent κ)}
    (h : ∀ r ∈ recent, r.Trusted fits items) (key : κ) :
    Recent.find? recent key (fits · key) items = firstFit (fits · key) items := by
  cases recent with
  | none => rfl
  | some r =>
    have hr := h r rfl
    obtain ⟨item, hat⟩ : ∃ item, items[r.position]? = some item :=
      ⟨_, List.getElem?_eq_getElem hr.inside⟩
    simp only [Recent.find?, hat]
    -- the shortcut is taken for an equal key and an item that still fits
    by_cases hhit : (decide (r.key = key) && fits item key) = true
    · rw [if_pos hhit]
      obtain ⟨hkey, hfits⟩ := Bool.and_eq_true_iff.1 hhit
      have hkey : r.key = key := of_decide_eq_true hkey
      exact (firstFit_eq_some_iff.2 ⟨hat, hfits, fun j hj x hx => hkey ▸ hr.first j hj x hx⟩).symm
    · rw [if_neg hhit]

/-- An item that is put at the end stands behind every remembered position. -/
theorem Trusted.append {r : Recent κ} (h : r.Trusted fits items) (new : δ) :
    r.Trusted fits (items ++ [new]) := by
  refine ⟨?_, fun j hj x hx => ?_⟩
  · rw [List.length_append]
    exact Nat.lt_of_lt_of_le h.inside (Nat.le_add_right _ _)
  · rw [List.getElem?_append_left (Nat.lt_trans hj h.inside)] at hx
    exact h.first j hj x hx

/-- A first fit can be remembered, whatever becomes of it. -/
theorem Trusted.found {key : κ} {e : Entry δ} (h : firstFit (fits · key) items = some e)
    (changed : δ) :
    (⟨key, e.position⟩ : Recent κ).Trusted fits (items.set e.position changed) := by
  obtain ⟨hat, _, hbefore⟩ := firstFit_eq_some_iff.1 h
  refine ⟨?_, fun j hj x hx => ?_⟩
  · rw [List.length_set]
    exact (List.getElem?_eq_some_iff.1 hat).1
  · rw [List.getElem?_set_ne (Nat.ne_of_gt hj)] at hx
    exact hbefore j hj x hx

/-- Where nothing fits, a new item at the end can be remembered. -/
theorem Trusted.added {key : κ} (h : firstFit (fits · key) items = none) (new : δ) :
    (⟨key, items.length⟩ : Recent κ).Trusted fits (items ++ [new]) := by
  refine ⟨by simp, fun j hj x hx => ?_⟩
  rw [List.getElem?_append_left hj] at hx
  exact firstFit_eq_none_iff.1 h x (List.mem_of_getElem? hx)

end Recent

end SymbolMap
