import SymbolMap.Proofs.Element.Rivals
import SymbolMap.Proofs.MappingSet.Methods

/-!
# Local variables are told apart

A local variable that is added contends with the first one that agrees with all
that is known of its index, and may take its place in the middle of the list
although less is known of it. Still no variable agrees with all that is known of
one behind it (`LocalVar.Apart`): whatever would agree with the index of the new
variable agrees with that of the old one as well, for agreeing is transitive. So
the variables of a method have different indices, and each of them is found by its
own one (`locals_told_apart`).
-/

namespace SymbolMap

/-! ## Agreeing is transitive -/

theorem agreesOn_trans {a b c : Option Nat} (hab : agreesOn a b = true)
    (hbc : agreesOn b c = true) : agreesOn a c = true := by
  cases a with
  | none => rfl
  | some x =>
    have hb : some x = b := eq_of_beq hab
    rw [hb]
    exact hbc

theorem SlotRange.agreesWith_trans {a b c : SlotRange} (hab : a.agreesWith b = true)
    (hbc : b.agreesWith c = true) : a.agreesWith c = true := by
  simp only [agreesWith, Bool.and_eq_true] at hab hbc ⊢
  obtain ⟨⟨hslot, hstart⟩, hstop⟩ := hab
  exact ⟨⟨agreesOn_trans hslot hbc.1.1, agreesOn_trans hstart hbc.1.2⟩,
    agreesOn_trans hstop hbc.2⟩

theorem LocalIndex.agreesWith_trans {a b c : LocalIndex} (hab : a.agreesWith b = true)
    (hbc : b.agreesWith c = true) : a.agreesWith c = true := by
  simp only [agreesWith, Bool.and_eq_true] at hab hbc ⊢
  exact ⟨agreesOn_trans hab.1 hbc.1, SlotRange.agreesWith_trans hab.2 hbc.2⟩

namespace LocalVar

theorem fits_self (v : LocalVar) : v.fits v.index = true := v.index.agreesWith_self

/-- A variable that fits what is known of another one fits whatever that one fits. -/
theorem fits_trans {v w : LocalVar} {index : LocalIndex} (hw : w.fits index = true)
    (hv : v.fits w.index = true) : v.fits index = true :=
  LocalIndex.agreesWith_trans hw hv

/-- The variable does not agree with all that is known of one behind it. -/
def Apart (v behind : LocalVar) : Prop := v.fits behind.index = false

end LocalVar

/-! ## Settling -/

section Settle

variable {α : Type} [IsElement α] {rivals : α → Bool} {new : α} {items : List α}

/-- What stands for the declaration is the first rival in the list. -/
theorem exists_firstFit_settle (hnew : rivals new = true) :
    ∃ position, firstFit rivals (settle rivals new items).2 =
      some ⟨position, (settle rivals new items).1⟩ := by
  induction items with
  | nil => exact ⟨0, by simp [settle, firstFit_cons, hnew]⟩
  | cons old rest ih =>
    by_cases hold : rivals old = true
    · have hwinner : rivals (prevailing old new) = true := by
        rcases prevailing_eq old new with h | h
        · rw [h, hold]
        · rw [h, hnew]
      exact ⟨0, by simp [settle, hold, firstFit_cons, hwinner]⟩
    · obtain ⟨position, hposition⟩ := ih
      exact ⟨position + 1, by simp [settle, hold, firstFit_cons, hposition]⟩

end Settle

/-- A variable that is settled leaves all of them apart: where it takes the place
of another one, what agrees with all that is known of one behind it would make the
other one agree as well. -/
theorem LocalVar.pairwise_settle {new : LocalVar} {items : List LocalVar}
    (h : items.Pairwise Apart) :
    ((settle (·.fits new.index) new items).2).Pairwise Apart := by
  induction items with
  | nil => simp [settle]
  | cons old rest ih =>
    obtain ⟨hold, hrest⟩ := List.pairwise_cons.1 h
    by_cases hrival : old.fits new.index = true
    · simp only [settle, if_pos hrival]
      rcases prevailing_eq old new with hwinner | hwinner
      · rw [hwinner]
        exact h
      · rw [hwinner]
        refine List.pairwise_cons.2 ⟨fun w hw => ?_, hrest⟩
        show new.fits w.index = false
        cases hfits : new.fits w.index with
        | false => rfl
        | true =>
          have hapart : old.fits w.index = false := hold w hw
          rw [fits_trans hfits hrival] at hapart
          cases hapart
    · simp only [settle, if_neg hrival]
      refine List.pairwise_cons.2 ⟨fun w hw => ?_, ih hrest⟩
      rcases mem_of_mem_settle hw with hw | rfl
      · exact hold w hw
      · simpa [Apart] using hrival

/-! ## The invariant -/

/-- The local variables can be placed and are apart from those behind them. -/
structure Method.LocalsApart (m : Method) : Prop where
  known : ∀ v ∈ m.locals, v.index.isKnown = true
  apart : m.locals.Pairwise LocalVar.Apart

namespace Method

variable {m n : Method}

theorem LocalsApart.addLocal {names : NameRow} {origin : Origin} {index : LocalIndex}
    {type : Option FieldType} {v : LocalVar} (hm : m.LocalsApart)
    (h : m.addLocal names origin index type = .ok (v, n)) : n.LocalsApart := by
  obtain ⟨_, hknown, _, new, _, _, rfl, hsettle⟩ := addLocal_eq_ok h
  have hlocals : n.locals = (settle (·.fits new.index) new m.locals).2 := by rw [hsettle]
  refine ⟨fun w hw => ?_, ?_⟩
  · rw [hlocals] at hw
    rcases mem_of_mem_settle hw with hw | rfl
    · exact hm.known w hw
    · exact hknown
  · rw [hlocals]
    exact LocalVar.pairwise_settle hm.apart

theorem Grows.localsApart (h : m.Grows n) (hm : m.LocalsApart) : n.LocalsApart := by
  induction h with
  | refl => exact hm
  | addParam _ hadd ih =>
    rw [(addParam_eq_ok hadd).2.1]
    exact ⟨ih.known, ih.apart⟩
  | addLocal _ hadd ih => exact ih.addLocal hadd

theorem Grown.localsApart (h : m.Grown) : m.LocalsApart := by
  obtain ⟨new, hnew, hgrows⟩ := h
  have hempty : new.locals = [] := congrArg Variables.locals hnew
  refine hgrows.localsApart ⟨?_, ?_⟩
  · simp [hempty]
  · simp [hempty]

end Method

/-! ## Look-ups -/

theorem Variables.findLocal?_eq_firstFit (v : Variables) (index : LocalIndex) :
    v.findLocal? index = firstFit (·.fits index) v.locals := by
  unfold findLocal? findLocals firstFit
  rw [List.head?_filter]

/-- What can be relied on with the local variables of a method: each of them can be
placed, none agrees with all that is known of the index of one behind it, no two
have the same index, and each is found by its own index. What an addition gives back
is what is found by the index that was added. -/
structure Method.TellsLocalsApart (m : Method) : Prop where
  placed : ∀ v ∈ m.locals, v.index.range.slot.isSome = true ∨ v.index.table.isSome = true
  apart : ∀ (j k : Nat) (v w : LocalVar), j < k → m.locals[j]? = some v → m.locals[k]? = some w →
    v.fits w.index = false
  distinct : (m.locals.map LocalVar.index).Nodup
  found : ∀ (k : Nat) (v : LocalVar), m.locals[k]? = some v → m.findLocal? v.index = some ⟨k, v⟩
  added : ∀ names origin index type v n, m.addLocal names origin index type = .ok (v, n) →
    ∃ k, n.findLocal? index = some ⟨k, v⟩

theorem Method.LocalsApart.tellsLocalsApart {m : Method} (h : m.LocalsApart) :
    m.TellsLocalsApart := by
  have happart : ∀ (j k : Nat) (v w : LocalVar), j < k → m.locals[j]? = some v →
      m.locals[k]? = some w → v.fits w.index = false := by
    intro j k v w hjk hv hw
    obtain ⟨hj, rfl⟩ := List.getElem?_eq_some_iff.1 hv
    obtain ⟨hk, rfl⟩ := List.getElem?_eq_some_iff.1 hw
    exact List.pairwise_iff_getElem.1 h.apart j k hj hk hjk
  refine ⟨?_, happart, ?_, ?_, ?_⟩
  · intro v hv
    simpa [LocalIndex.isKnown, SlotRange.isKnown] using h.known v hv
  · refine List.pairwise_map.2 (h.apart.imp fun {v w} hvw heq => ?_)
    -- a variable fits its own index, so it would fit an equal one
    have hfits : v.fits w.index = true := heq ▸ v.fits_self
    rw [show v.fits w.index = false from hvw] at hfits
    cases hfits
  · intro k v hv
    rw [Variables.findLocal?_eq_firstFit]
    exact firstFit_eq_some_iff.2 ⟨hv, v.fits_self, fun j hj w hw => happart j k w v hj hw hv⟩
  · intro names origin index type v n hadd
    obtain ⟨_, _, _, new, _, _, rfl, hsettle⟩ := addLocal_eq_ok hadd
    have hfirst : ∃ k, firstFit (·.fits new.index) (settle (·.fits new.index) new m.locals).2 =
        some ⟨k, (settle (·.fits new.index) new m.locals).1⟩ :=
      exists_firstFit_settle new.fits_self
    rw [hsettle] at hfirst
    obtain ⟨k, hk⟩ := hfirst
    exact ⟨k, by rw [Variables.findLocal?_eq_firstFit, hk]⟩

/-- **Local variables are told apart.** Whatever is added to a method of a set, of
any priority and with any part of the index known or not, its local variables stay
in such an order that each of them is found by its own index. -/
theorem locals_told_apart {s : MappingSet} (hs : s.Reachable) {i : Nat} {c : Class}
    (hc : s.classes.get? i = some c) {m : Method} (hm : m ∈ c.methods) {n : Method}
    (h : m.Grows n) : n.TellsLocalsApart := by
  have hgrown : n.Grown := (hs.methodsGrown i c hc m hm).grows h
  exact hgrown.localsApart.tellsLocalsApart

/-- A variable of which only the slot is known takes the place of one of which more
is known. It stands in front of another one in the same slot, and both are found. -/
theorem locals_told_apart_replaced :
    let names : NameRow := ⟨[some "x", none]⟩
    let index (start table : Option Nat) : LocalIndex := ⟨⟨some 1, start, none⟩, table⟩
    let declare (m : Method) : Except MappingError (LocalVar × Method) := do
      let (_, m) ← m.addLocal names (.file .start) (index (some 2) none) none
      let (_, m) ← m.addLocal names (.file .start) (index none (some 4)) none
      m.addLocal names (.file (Coords.start.atPriority .high)) (index none none) none
    let m : Method := ⟨⟨names, .unknown⟩, .none, ⟨⟨⟨7⟩, 0⟩, 0⟩, ⟨[], .void⟩, .unknown⟩
    ∃ s c v n, MappingSet.Reachable s ∧ s.classes.get? 0 = some c ∧ m ∈ c.methods ∧
      declare m = .ok (v, n) ∧
      n.locals.map LocalVar.index = [index none none, index none (some 4)] ∧
      (n.findLocal? (index none none)).map Entry.position = some 0 ∧
      (n.findLocal? (index none (some 4))).map Entry.position = some 1 := by
  intro names index declare m
  let new : MappingSet := ⟨⟨7⟩, ["a", "b"], .empty 2, .empty 2⟩
  let withClass : MappingSet :=
    { new with classes := new.classes.push (.bare ⟨⟨7⟩, 0⟩ names .unknown none) }
  have hnew : MappingSet.create ⟨7⟩ ["a", "b"] = .ok new := rfl
  have hclass : new.addClass names .unknown none = .ok (⟨⟨7⟩, 0⟩, withClass) := rfl
  obtain ⟨s, hmethod, c, hc, hm⟩ : ∃ s, withClass.addMethod ⟨⟨7⟩, 0⟩ names .unknown ⟨[], .void⟩
      .unknown (fun m => .ok ((), m)) = .ok ((), s) ∧
        ∃ c, s.classes.get? 0 = some c ∧ m ∈ c.methods :=
    ⟨_, rfl, _, rfl, List.mem_singleton_self _⟩
  have hs : s.Reachable := by
    refine .addMethod (.addClass (.create hnew) hclass) ?_ hmethod
    rintro m _ _ ⟨⟩
    exact .refl m
  obtain ⟨v, n, hdeclare⟩ : ∃ v n, declare m = .ok (v, n) := ⟨_, _, rfl⟩
  have hindices : n.locals.map LocalVar.index = [index none none, index none (some 4)] := by
    cases hdeclare
    rfl
  have hgrows : m.Grows n := by
    obtain ⟨⟨_, one⟩, hone, hrest⟩ := exists_of_bind_eq_ok hdeclare
    obtain ⟨⟨_, two⟩, htwo, hthree⟩ := exists_of_bind_eq_ok hrest
    exact .addLocal (.addLocal (.addLocal (.refl m) hone) htwo) hthree
  have hapart := locals_told_apart hs hc hm hgrows
  have hat : ∀ k i, [index none none, index none (some 4)][k]? = some i →
      (n.findLocal? i).map Entry.position = some k := by
    intro k i hi
    rw [← hindices, List.getElem?_map] at hi
    obtain ⟨v, hv, rfl⟩ := Option.map_eq_some_iff.1 hi
    rw [hapart.found k v hv]
    rfl
  exact ⟨s, c, v, n, hs, hc, hm, hdeclare, hindices, hat 0 _ rfl, hat 1 _ rfl⟩

end SymbolMap
