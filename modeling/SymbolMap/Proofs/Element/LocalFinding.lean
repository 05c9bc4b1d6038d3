import SymbolMap.Proofs.Element.LocalContests

/-!
# What is found of a local variable later on

Right after an addition its own index finds what was settled in its place. Later additions may take
this place, one after the other, each of a higher priority and with less or as much known of its
index as of the one before. So the place never falls to a lower priority, and what is known in it
never grows (`LocalVar.Holds`).

The index of the addition finds what stands in the place as long as all that is known of the index
is known there (`local_found_while_known`). An addition of which less is known may take the place,
and then the index finds nothing, or something else of a lower priority
(`local_lost_to_vaguer`).
-/

namespace SymbolMap

/-! ## The place of a variable -/

namespace LocalVar

/-- The place at `k` is that of a variable or has been taken by additions that outranked it and that
it agreed with. What stands in front of it does not agree with all that is known of an index. -/
structure Holds (v : LocalVar) (k : Nat) (index : LocalIndex) (declared locals : List LocalVar) :
    Prop where
  front : ∀ j < k, ∀ u, locals[j]? = some u → u.fits index = false
  heir : ∃ w, locals[k]? = some w ∧
    (w = v ∨ w ∈ declared ∧ priorityOf v < priorityOf w ∧ v.fits w.index = true)

variable {v new w : LocalVar} {k : Nat} {index : LocalIndex} {declared locals rest : List LocalVar}

/-- What is found first holds its place. -/
theorem holds_of_firstFit (h : firstFit (·.fits index) locals = some ⟨k, v⟩) :
    v.Holds k index declared locals := by
  obtain ⟨hat, -, hfront⟩ := firstFit_eq_some_iff.1 h
  exact ⟨fun j hj u hu => hfront j hj u hu, v, hat, .inl rfl⟩

/-- One addition more keeps the place, for one that takes a place agrees with no more than what was
there. -/
theorem Holds.settle (h : v.Holds k index declared locals) (hnew : new ∈ declared) :
    v.Holds k index declared (settle (·.fits new.index) new locals).2 := by
  obtain ⟨hfront, w, hw, hheir⟩ := h
  constructor
  · intro j hj u hu
    have hlt : j < locals.length := Nat.lt_trans hj (List.getElem?_eq_some_iff.1 hw).1
    have hold := List.getElem?_eq_getElem hlt
    rcases getElem?_settle (·.fits new.index) new hold with hstays | ⟨hplace, hrival, -⟩
    · rw [hstays] at hu
      cases hu
      exact hfront j hj _ hold
    · rw [hplace] at hu
      cases hu
      cases hfits : new.fits index with
      | false => rfl
      | true =>
        have hbefore : locals[j].fits index = false := hfront j hj _ hold
        rw [fits_trans hfits hrival] at hbefore
        cases hbefore
  · rcases getElem?_settle (·.fits new.index) new hw with hstays | ⟨hplace, hrival, hhigher⟩
    · exact ⟨w, hstays, hheir⟩
    · refine ⟨new, hplace, .inr ⟨hnew, ?_⟩⟩
      rcases hheir with rfl | ⟨-, houtranked, hagreed⟩
      · exact ⟨hhigher, hrival⟩
      · exact ⟨Int32.lt_trans houtranked hhigher, fits_trans hrival hagreed⟩

theorem Holds.settleAll (h : v.Holds k index declared locals) (hrest : ∀ x ∈ rest, x ∈ declared) :
    v.Holds k index declared
      (rest.foldl (fun locals x => (SymbolMap.settle (·.fits x.index) x locals).2) locals) := by
  induction rest generalizing locals with
  | nil => exact h
  | cons x rest ih =>
    obtain ⟨hx, hrest⟩ := List.forall_mem_cons.1 hrest
    exact ih (h.settle hx) hrest

/-- The place is found exactly as long as what stands there agrees with all that is known of the
index. -/
theorem Holds.firstFit_iff (h : v.Holds k index declared locals) (hw : locals[k]? = some w) :
    firstFit (·.fits index) locals = some ⟨k, w⟩ ↔ w.fits index = true := by
  rw [firstFit_eq_some_iff]
  constructor
  · exact fun hfirst => hfirst.2.1
  · exact fun hfits => ⟨hw, hfits, h.front⟩

end LocalVar

/-! ## Later additions -/

/-- What becomes of the place at `k`, in which an addition was settled and gave `v` back. The method
was `m` then, and is `n` after the later additions, when `w` stands in the place. -/
structure LocalCall.Outlives (c : LocalCall) (v : LocalVar) (m : Method) (later : List LocalCall)
    (n : Method) (k : Nat) (w : LocalVar) : Prop where
  found : m.findLocal? c.index = some ⟨k, v⟩
  ranked : priorityOf c ≤ priorityOf v
  place : n.locals[k]? = some w
  heir : w = v ∨ ∃ d ∈ later, w = d.localVar m.id ∧ priorityOf v < priorityOf d ∧
    v.fits d.index = true
  outranks : priorityOf c ≤ priorityOf w
  found_iff : n.findLocal? c.index = some ⟨k, w⟩ ↔ w.fits c.index = true
  found_of_known : (∀ d ∈ later, priorityOf c < priorityOf d → v.fits d.index = true →
    c.index.agreesWith d.index = true) → n.findLocal? c.index = some ⟨k, w⟩

namespace LocalCall

variable {m n : Method} {c : LocalCall} {v : LocalVar} {later : List LocalCall}

/-- What an addition gives back is what its index finds then. -/
theorem findLocal?_of_addTo (h : c.addTo m = .ok (v, n)) :
    ∃ k, n.findLocal? c.index = some ⟨k, v⟩ := by
  obtain ⟨-, rfl, rfl⟩ := addTo_eq_ok_iff.1 h
  have hfirst : ∃ k, firstFit (·.fits c.index)
      (settle (·.fits c.index) (c.localVar m.id) m.locals).2 =
        some ⟨k, (settle (·.fits c.index) (c.localVar m.id) m.locals).1⟩ :=
    exists_firstFit_settle (c.localVar m.id).fits_self
  obtain ⟨k, hk⟩ := hfirst
  exact ⟨k, by rw [Variables.findLocal?_eq_firstFit, hk]⟩

/-- Later additions keep the place of what is found by an index. -/
theorem holds_of_addAll {index : LocalIndex} {k : Nat} (hfound : m.findLocal? index = some ⟨k, v⟩)
    (h : addAll m later = .ok n) :
    v.Holds k index (later.map (·.localVar m.id)) n.locals := by
  rw [Variables.findLocal?_eq_firstFit] at hfound
  rw [(addAll_eq_ok_iff.1 h).2]
  have hplace : v.Holds k index (later.map (·.localVar m.id)) m.locals :=
    LocalVar.holds_of_firstFit hfound
  have hrun := hplace.settleAll fun x hx => hx
  rw [List.foldl_map] at hrun
  exact hrun

end LocalCall

/-- **A local variable is found by its index as long as that much is known in its place.** Whatever
is added to a method after an addition, the place in which the addition was settled holds what it
gave back, or a later addition that outranked this and that it agreed with. So what stands there has
the priority of the addition or a higher one, and the index of the addition finds it exactly if it
agrees with all that is known of the index. It does so as long as each of the later additions of a
higher priority that could take the place tells all that is known of the index. -/
theorem local_found_while_known {m o : Method} {before later : List LocalCall} {c : LocalCall}
    (h : LocalCall.addAll m (before ++ c :: later) = .ok o) :
    ∃ n v p k w, LocalCall.addAll m before = .ok n ∧ c.addTo n = .ok (v, p) ∧
      LocalCall.addAll p later = .ok o ∧ c.Outlives v p later o k w := by
  obtain ⟨n, v, p, hbefore, hadd, hlater⟩ := LocalCall.exists_of_addAll_append_cons h
  obtain ⟨k, hfound⟩ := LocalCall.findLocal?_of_addTo hadd
  have hranked := (LocalCall.contends_of_addTo hadd).ranked
  have hholds := LocalCall.holds_of_addAll hfound hlater
  obtain ⟨w, hw, hheir⟩ := hholds.heir
  have hiff : o.findLocal? c.index = some ⟨k, w⟩ ↔ w.fits c.index = true := by
    rw [Variables.findLocal?_eq_firstFit]
    exact hholds.firstFit_iff hw
  have hcalled : w = v ∨ ∃ d ∈ later, w = d.localVar p.id ∧ priorityOf v < priorityOf d ∧
      v.fits d.index = true := by
    rcases hheir with hsame | ⟨hmem, hhigher, hagreed⟩
    · exact .inl hsame
    · obtain ⟨d, hd, rfl⟩ := List.mem_map.1 hmem
      exact .inr ⟨d, hd, rfl, hhigher, hagreed⟩
  refine ⟨n, v, p, k, w, hbefore, hadd, hlater, hfound, hranked, hw, hcalled, ?_, hiff, ?_⟩
  · rcases hcalled with rfl | ⟨d, -, rfl, hhigher, -⟩
    · exact hranked
    · exact Int32.le_trans hranked (Int32.le_of_lt hhigher)
  · intro hknown
    rw [hiff]
    rcases hcalled with rfl | ⟨d, hd, rfl, hhigher, hagreed⟩
    · exact (firstFit_eq_some_iff.1 (Variables.findLocal?_eq_firstFit _ _ ▸ hfound)).2.1
    · exact hknown d hd (Int32.lt_of_le_of_lt hranked hhigher) hagreed

/-- The place of `ranged` falls to `again`, which tells as much of the index. Less is told by
`vague` alone, which does not outdo what is there. -/
theorem local_found_while_known_retaken :
    let call (name : String) (line : Line) (slot start table : Option Nat) : LocalCall :=
      ⟨⟨⟨[none, some name]⟩, .file (.ofLine line)⟩, ⟨⟨slot, start, none⟩, table⟩, none⟩
    let other := call "other" (.base 1) (some 3) none none
    let ranged := call "ranged" (.low 2) (some 1) (some 2) none
    let listed := call "listed" (.base 3) (some 1) (some 2) (some 4)
    let vague := call "vague" (.low 4) (some 1) none none
    let again := call "again" (.high 5) (some 1) (some 2) none
    let new : Method :=
      ⟨⟨⟨[some "a", some "run"]⟩, .unknown⟩, .none, ⟨⟨⟨7⟩, 0⟩, 0⟩, ⟨[], .void⟩, .unknown⟩
    ∃ o, LocalCall.addAll new ([other] ++ ranged :: [listed, vague, again]) = .ok o ∧
      o.locals = [other.localVar new.id, again.localVar new.id, listed.localVar new.id] ∧
      o.findLocal? ranged.index = some ⟨1, again.localVar new.id⟩ := by
  intro call other ranged listed vague again new
  obtain ⟨o, ho⟩ :
      ∃ o, LocalCall.addAll new ([other] ++ ranged :: [listed, vague, again]) = .ok o := ⟨_, rfl⟩
  have hlocals : o.locals = [other.localVar new.id, again.localVar new.id,
      listed.localVar new.id] := by
    cases ho
    decide
  obtain ⟨n, v, p, k, w, hbefore, hadd, -, houtlives⟩ := local_found_while_known ho
  have hfound : p.findLocal? ranged.index = some ⟨1, ranged.localVar new.id⟩ := by
    cases hbefore
    cases hadd
    decide
  have hknown : ∀ d ∈ [listed, vague, again], priorityOf ranged < priorityOf d →
      (ranged.localVar new.id).fits d.index = true →
        ranged.index.agreesWith d.index = true := by decide
  -- the place of the addition is the one behind `other`
  cases houtlives.found.symm.trans hfound
  have hplace := houtlives.place
  rw [hlocals] at hplace
  cases hplace
  exact ⟨o, ho, hlocals, houtlives.found_of_known hknown⟩

/-- After `vague`, of which less is known, took the place of `known`, the index of `known` finds
nothing. Where something else agrees with it, this may be of a lower priority. -/
theorem local_lost_to_vaguer :
    let call (name : String) (line : Line) (start stop table : Option Nat) : LocalCall :=
      ⟨⟨⟨[none, some name]⟩, .file (.ofLine line)⟩, ⟨⟨some 1, start, stop⟩, table⟩, none⟩
    let known := call "known" (.base 1) (some 2) none none
    let vague := call "vague" (.high 2) none none none
    let listed := call "listed" (.low 3) (some 2) (some 3) (some 4)
    let ranged := call "ranged" (.low 4) (some 2) (some 9) none
    let new : Method :=
      ⟨⟨⟨[some "a", some "run"]⟩, .unknown⟩, .none, ⟨⟨⟨7⟩, 0⟩, 0⟩, ⟨[], .void⟩, .unknown⟩
    (∃ lost, LocalCall.addAll new [known, vague] = .ok lost ∧
      lost.findLocal? known.index = none) ∧
    ∃ other, LocalCall.addAll new [listed, ranged, known, vague] = .ok other ∧
      other.findLocal? known.index = some ⟨1, ranged.localVar new.id⟩ ∧
      priorityOf (ranged.localVar new.id) < priorityOf known := by
  intro call known vague listed ranged new
  refine ⟨⟨_, rfl, ?_⟩, _, rfl, ?_, ?_⟩
  · decide
  · decide
  · decide

end SymbolMap
