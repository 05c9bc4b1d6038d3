import Mathlib.Data.List.Induction
import SymbolMap.Proofs.Draft.Scripts

/-!
# Which name prevails

Names are given to a draft by commands, for the namespace at an index or of a name, and
each of them may overwrite a name that is there or not. What is in a slot in the end can be
told from the names that are offered for it alone (`finalName`): the last one that may
overwrite others, or else the first one. It does not matter which way the namespace is told,
what is offered for other slots, or which commands are refused in between.

* `HeadingCommand.name?_run`: what one command does to a slot;
* `Draft.name?_runAll`: what a run of them leaves in it.
-/

namespace SymbolMap

/-! ## Offers -/

/-- What a command offers for the namespace at an index: a name, and whether it may
overwrite another one. -/
def HeadingCommand.offer? (namespaces : List String) (ns : Nat) :
    HeadingCommand → Option (String × Bool)
  | .assign i name overwrite =>
    if i = ns ∧ ns < namespaces.length then some (name, overwrite) else none
  | .assignBy space name overwrite =>
    if namespaces[ns]? = some space then some (name, overwrite) else none
  | .move _ => none

/-- Of the names that are offered for one slot, the last one that may overwrite others, or
else the first one. -/
def finalName (offers : List (String × Bool)) : Option String :=
  ((offers.filter Prod.snd).getLast?.or offers.head?).map Prod.fst

/-- The name that commands give in the namespace at an index. -/
def declaredName (namespaces : List String) (commands : List HeadingCommand) (ns : Nat) :
    Option String :=
  finalName (commands.filterMap (·.offer? namespaces ns))

/-- One more offer prevails if it may overwrite others or there is none before it. -/
theorem finalName_concat (offers : List (String × Bool)) (name : String) (overwrite : Bool) :
    finalName (offers ++ [(name, overwrite)]) =
      if overwrite then some name else (finalName offers).or (some name) := by
  unfold finalName
  cases overwrite with
  | true => simp [List.filter_append]
  | false =>
    -- the last one that may overwrite others is still the same
    rw [List.filter_append, List.head?_append]
    show Option.map Prod.fst ((offers.filter Prod.snd ++ []).getLast?.or
      (offers.head?.or (some (name, false)))) = _
    rw [List.append_nil, ← Option.or_assoc, Option.map_or]
    rfl

/-- What one more command adds to a run. -/
theorem declaredName_concat (namespaces : List String) (commands : List HeadingCommand)
    (command : HeadingCommand) (ns : Nat) :
    declaredName namespaces (commands ++ [command]) ns =
      match command.offer? namespaces ns with
      | none => declaredName namespaces commands ns
      | some (name, overwrite) =>
        if overwrite then some name
        else (declaredName namespaces commands ns).or (some name) := by
  unfold declaredName
  rw [List.filterMap_append]
  cases hoffer : command.offer? namespaces ns with
  | none => simp [hoffer]
  | some offer =>
    obtain ⟨name, overwrite⟩ := offer
    have hlast : [command].filterMap (·.offer? namespaces ns) = [(name, overwrite)] := by
      simp [hoffer]
    rw [hlast]
    exact finalName_concat _ name overwrite

/-! ## One name -/

/-- A change that is refused leaves the draft as it is when it is tried. -/
theorem Draft.attempt_of_error {δ : Type} {change : δ → Except MappingError δ} {d : δ}
    {e : MappingError} (h : change d = .error e) : attempt change d = (.error e, d) := by
  unfold attempt
  rw [h]

namespace Draft

variable {δ : Type} [Draft δ] {d e : δ} {ns : Nat} {space name : String} {overwrite : Bool}

/-- A name is refused for an index that is out of bounds. -/
theorem exists_error_assign_iff :
    (∃ e, assign d ns name overwrite = .error e) ↔ (heading d).names.size ≤ ns := by
  constructor
  · rintro ⟨e, he⟩
    apply Nat.le_of_not_lt
    intro hlt
    obtain ⟨changed, hok⟩ := exists_assign hlt name overwrite
    rw [hok] at he
    cases he
  · intro hout
    unfold assign
    rw [NameRow.slot?_eq_none_iff.2 hout]
    exact ⟨_, rfl⟩

/-- What a name that is not refused does to the slots. -/
theorem name?_of_assign (h : assign d ns name overwrite = .ok e) (other : Nat) :
    name? e other =
      if ns = other then if overwrite then some name else (name? d ns).or (some name)
      else name? d other := by
  unfold assign at h
  split at h
  · cases h
  · rename_i slot hslot
    have hlt : ns < (heading d).names.size := by
      apply Nat.lt_of_not_le
      intro hout
      rw [NameRow.slot?_eq_none_iff.2 hout] at hslot
      cases hslot
    have hname : name? d ns = slot := by
      simp [name?, NameRow.get?, hslot]
    split at h
    · rename_i hput
      cases h
      by_cases hother : ns = other
      · subst hother
        rw [if_pos rfl, hname]
        refine (name?_put_self hlt name).trans ?_
        cases overwrite with
        | true => rfl
        | false => simp_all
      · rw [if_neg hother]
        exact name?_put_of_ne hother name
    · rename_i hkeep
      cases h
      by_cases hother : ns = other
      · subst hother
        rw [if_pos rfl, hname]
        cases slot with
        | none => simp at hkeep
        | some own => simp_all
      · rw [if_neg hother]

/-- The name of a namespace stands for its position. -/
theorem assignBy_of_getElem? (hnodup : (heading d).namespaces.Nodup)
    (h : (heading d).namespaces[ns]? = some space) (name : String) (overwrite : Bool) :
    assignBy d space name overwrite = assign d ns name overwrite := by
  have hindex : (heading d).namespaces.findIdx? (· == space) = some ns := by
    obtain ⟨hlt, hat⟩ := List.getElem?_eq_some_iff.1 h
    refine List.findIdx?_eq_some_iff_getElem.2 ⟨hlt, beq_iff_eq.2 hat, fun j hj hsame => ?_⟩
    have hsame : (heading d).namespaces[j]? = (heading d).namespaces[ns]? := by
      rw [h, List.getElem?_eq_getElem (Nat.lt_trans hj hlt), beq_iff_eq.1 hsame]
    exact Nat.ne_of_lt hj ((List.getElem?_inj (Nat.lt_trans hj hlt) hnodup).1 hsame)
  unfold assignBy indexOf
  rw [hindex]
  rfl

theorem exists_error_assignBy_of_not_mem (h : space ∉ (heading d).namespaces) :
    ∃ e, assignBy d space name overwrite = .error e := by
  have hindex : (heading d).namespaces.findIdx? (· == space) = none := by
    rw [List.findIdx?_eq_none_iff]
    intro x hx
    rw [beq_eq_false_iff_ne]
    rintro rfl
    exact h hx
  unfold assignBy indexOf
  rw [hindex]
  exact ⟨_, rfl⟩

end Draft

/-! ## Commands -/

section Commands

variable {δ : Type} [Draft δ] {d : δ} {namespaces : List String}

/-- The command gives a name, for an index that is out of bounds or a name that is none of
a namespace. -/
def HeadingCommand.Refused (namespaces : List String) : HeadingCommand → Prop
  | .assign ns _ _ => namespaces.length ≤ ns
  | .assignBy space _ _ => space ∉ namespaces
  | .move _ => False

/-- A refused command changes nothing. -/
theorem HeadingCommand.run_of_refused (hd : (Draft.heading d).Aligned namespaces)
    {command : HeadingCommand} (h : command.Refused namespaces) : command.run d = d := by
  cases command with
  | assign ns name overwrite =>
    have hout : (Draft.heading d).names.size ≤ ns := hd.size ▸ h
    obtain ⟨e, he⟩ := Draft.exists_error_assign_iff.2 hout
    exact congrArg Prod.snd (Draft.attempt_of_error he)
  | assignBy space name overwrite =>
    have hnot : space ∉ (Draft.heading d).namespaces := hd.spaces ▸ h
    obtain ⟨e, he⟩ := Draft.exists_error_assignBy_of_not_mem hnot
    exact congrArg Prod.snd (Draft.attempt_of_error he)
  | move => cases h

/-- A name that is given by the name of a namespace is given at the position of that. -/
theorem HeadingCommand.run_assignBy (hd : (Draft.heading d).Aligned namespaces)
    (hnodup : namespaces.Nodup) {i : Nat} {space : String} (hi : namespaces[i]? = some space)
    (name : String) (overwrite : Bool) :
    (HeadingCommand.assignBy space name overwrite).run d =
      (HeadingCommand.assign i name overwrite).run d := by
  rw [← hd.spaces] at hnodup hi
  have hsame := Draft.assignBy_of_getElem? hnodup hi name overwrite
  show (Draft.attempt (Draft.assignBy · space name overwrite) d).2 =
    (Draft.attempt (Draft.assign · i name overwrite) d).2
  unfold Draft.attempt
  simp only [hsame]

theorem HeadingCommand.offer?_assignBy (hnodup : namespaces.Nodup) {i : Nat} {space : String}
    (hi : namespaces[i]? = some space) (name : String) (overwrite : Bool) (ns : Nat) :
    (HeadingCommand.assignBy space name overwrite).offer? namespaces ns =
      (HeadingCommand.assign i name overwrite).offer? namespaces ns := by
  have hlt := (List.getElem?_eq_some_iff.1 hi).1
  have hiff : namespaces[ns]? = some space ↔ i = ns ∧ ns < namespaces.length := by
    constructor
    · intro hns
      have hsame : i = ns := (List.getElem?_inj hlt hnodup).1 (hi.trans hns.symm)
      exact ⟨hsame, hsame ▸ hlt⟩
    · rintro ⟨rfl, _⟩
      exact hi
  unfold offer?
  simp only [hiff]

/-- What a name that is given by index does to a slot. -/
theorem HeadingCommand.name?_run_assign (hd : (Draft.heading d).Aligned namespaces) (i : Nat)
    (name : String) (overwrite : Bool) (ns : Nat) :
    Draft.name? ((HeadingCommand.assign i name overwrite).run d) ns =
      match (HeadingCommand.assign i name overwrite).offer? namespaces ns with
      | none => Draft.name? d ns
      | some (name, overwrite) =>
        if overwrite then some name else (Draft.name? d ns).or (some name) := by
  by_cases hi : i < namespaces.length
  · -- the name is not refused, and only its own slot is offered it
    obtain ⟨e, he⟩ := Draft.exists_assign (d := d) (hd.size.symm ▸ hi) name overwrite
    have hrun : (HeadingCommand.assign i name overwrite).run d = e :=
      congrArg Prod.snd (Draft.attempt_of_ok he)
    rw [hrun, Draft.name?_of_assign he ns]
    by_cases hns : i = ns
    · subst hns
      simp [offer?, hi]
    · simp [offer?, hns]
  · have hrefused : (HeadingCommand.assign i name overwrite).Refused namespaces :=
      Nat.le_of_not_lt hi
    rw [run_of_refused hd hrefused]
    have hother : ¬ (i = ns ∧ ns < namespaces.length) := by
      rintro ⟨rfl, hlt⟩
      exact hi hlt
    simp [offer?, hother]

/-- What a command does to a slot is told by what it offers for it. -/
theorem HeadingCommand.name?_run (hd : (Draft.heading d).Aligned namespaces)
    (hnodup : namespaces.Nodup) (command : HeadingCommand) (ns : Nat) :
    Draft.name? (command.run d) ns =
      match command.offer? namespaces ns with
      | none => Draft.name? d ns
      | some (name, overwrite) =>
        if overwrite then some name else (Draft.name? d ns).or (some name) := by
  cases command with
  | assign i name overwrite => exact name?_run_assign hd i name overwrite ns
  | assignBy space name overwrite =>
    by_cases hspace : space ∈ namespaces
    · -- a name that is given by index
      obtain ⟨i, hi⟩ := List.getElem?_of_mem hspace
      rw [run_assignBy hd hnodup hi, offer?_assignBy hnodup hi]
      exact name?_run_assign hd i name overwrite ns
    · have hother : namespaces[ns]? ≠ some space := fun h => hspace (List.mem_of_getElem? h)
      have hrefused : (HeadingCommand.assignBy space name overwrite).Refused namespaces := hspace
      rw [run_of_refused hd hrefused]
      simp [offer?, hother]
  | move coords =>
    show Draft.name? (Draft.withCoords d coords) ns = Draft.name? d ns
    unfold Draft.name? Draft.withCoords
    rw [Draft.heading_withHeading]

/-! ## Runs -/

/-- A run of commands keeps the heading aligned. -/
theorem Draft.aligned_runAll (hd : (Draft.heading d).Aligned namespaces)
    (commands : List HeadingCommand) :
    (Draft.heading (commands.foldl HeadingCommand.run d)).Aligned namespaces :=
  keeps_of_steps (P := fun d : δ => (Draft.heading d).Aligned namespaces)
    Draft.HeadingStep.aligned (steps_runEach HeadingCommand.steps commands d) hd

/-- After a run of commands that starts with empty slots, each slot holds the declared
name. -/
theorem Draft.name?_runAll {coords : Coords} (hd : Draft.heading d = .blank namespaces coords)
    (hnodup : namespaces.Nodup) (commands : List HeadingCommand) (ns : Nat) :
    Draft.name? (commands.foldl HeadingCommand.run d) ns = declaredName namespaces commands ns := by
  have haligned : (Draft.heading d).Aligned namespaces := hd ▸ Heading.aligned_blank _ _
  induction commands using List.reverseRecOn with
  | nil =>
    show (Draft.heading d).names.get? ns = none
    rw [hd]
    exact NameRow.get?_vacant _ _
  | append_singleton commands command ih =>
    rw [List.foldl_append, declaredName_concat, ← ih]
    exact HeadingCommand.name?_run (Draft.aligned_runAll haligned commands) hnodup command ns

end Commands

end SymbolMap
