import SymbolMap.Proofs.Element.LocalVariables

/-!
# Local variables that contend

A local variable that is added contends with the first one that agrees with all that is known of
its index. What one addition does is told by `LocalCall.Contends`: no place is lost, a place changes
hands only to a higher priority, and what the addition gives back has its priority at least. So the
one addition that outranks all others is there in the end.

Which places are contended for depends on what is known of the indices. If the indices of any two
additions are the same or have nothing to do with each other (`LocalCall.Unmixed`), those of one
index are rivals and no others, and the variables are those that rivals leave (`Settled`).
-/

namespace SymbolMap

/-- Neither index agrees with all that is known of the other one. -/
def LocalIndex.Unrelated (i j : LocalIndex) : Prop :=
  i.agreesWith j = false ∧ j.agreesWith i = false

instance (i j : LocalIndex) : Decidable (i.Unrelated j) :=
  inferInstanceAs (Decidable (_ ∧ _))

/-! ## Additions in a row -/

/-- What is said of a local variable that is added to a method. -/
structure LocalCall extends Element where
  index : LocalIndex
  type : Option FieldType
  deriving DecidableEq, Repr

namespace LocalCall

instance : IsElement LocalCall := ⟨LocalCall.toElement⟩

/-- The local variable of a method that the addition is for. -/
def localVar (c : LocalCall) (method : MethodId) : LocalVar := { c with method }

/-- Adds the local variable to a method. The result also has the variable that is then in its
place. -/
def addTo (m : Method) (c : LocalCall) : Except MappingError (LocalVar × Method) :=
  m.addLocal c.names c.origin c.index c.type

/-- Adds local variables to a method, one after the other. -/
def addAll (m : Method) (calls : List LocalCall) : Except MappingError Method :=
  calls.foldlM (fun m c => Prod.snd <$> c.addTo m) m

/-- The local variables that additions leave, one after the other. -/
def settleOnto (method : MethodId) (locals : List LocalVar) (calls : List LocalCall) :
    List LocalVar :=
  calls.foldl (fun locals c => (settle (·.fits c.index) (c.localVar method) locals).2) locals

variable {m n o new : Method} {c : LocalCall} {v : LocalVar} {calls before after : List LocalCall}

/-- An addition needs one name for each of the method and an index that places the variable. Then it
settles the variable with the others. -/
theorem addTo_eq_ok_iff :
    c.addTo m = .ok (v, n) ↔ (c.names.size = m.names.size ∧ c.index.isKnown = true) ∧
      v = (settle (·.fits c.index) (c.localVar m.id) m.locals).1 ∧
      n = { m with locals := (settle (·.fits c.index) (c.localVar m.id) m.locals).2 } :=
  Method.addLocal_eq_ok_iff

theorem map_snd_addTo_eq_ok_iff :
    Prod.snd <$> c.addTo m = .ok n ↔ (c.names.size = m.names.size ∧ c.index.isKnown = true) ∧
      n = { m with locals := (settle (·.fits c.index) (c.localVar m.id) m.locals).2 } := by
  constructor
  · intro h
    obtain ⟨⟨_, x⟩, hadd, hn⟩ := exists_of_bind_eq_ok h
    cases hn
    obtain ⟨haccepted, -, hx⟩ := addTo_eq_ok_iff.1 hadd
    exact ⟨haccepted, hx⟩
  · rintro ⟨haccepted, rfl⟩
    rw [addTo_eq_ok_iff.2 ⟨haccepted, rfl, rfl⟩]
    rfl

/-- Additions in a row settle their variables one after the other, and leave all else of the method
as it is. -/
theorem addAll_eq_ok_iff :
    addAll m calls = .ok n ↔
      (∀ c ∈ calls, c.names.size = m.names.size ∧ c.index.isKnown = true) ∧
        n = { m with locals := settleOnto m.id m.locals calls } := by
  have hstep : ∀ (locals : List LocalVar) (c : LocalCall) (n : Method),
      Prod.snd <$> c.addTo { m with locals } = .ok n ↔
        (c.names.size = m.names.size ∧ c.index.isKnown = true) ∧
          n = { m with locals := (settle (·.fits c.index) (c.localVar m.id) locals).2 } :=
    fun _ _ _ => map_snd_addTo_eq_ok_iff
  exact foldlM_eq_ok_iff (f := fun m (c : LocalCall) => Prod.snd <$> c.addTo m)
    (fun locals => { m with locals }) hstep

/-- The call in the middle of a run, what was there before it, and what it gave back. -/
theorem exists_of_addAll_append_cons (h : addAll m (before ++ c :: after) = .ok o) :
    ∃ n v p, addAll m before = .ok n ∧ c.addTo n = .ok (v, p) ∧ addAll p after = .ok o := by
  unfold addAll at h
  rw [List.foldlM_append] at h
  obtain ⟨n, hbefore, h⟩ := exists_of_bind_eq_ok h
  rw [List.foldlM_cons] at h
  obtain ⟨p, hcall, hafter⟩ := exists_of_bind_eq_ok h
  obtain ⟨⟨v, _⟩, hadd, hp⟩ := exists_of_bind_eq_ok hcall
  cases hp
  exact ⟨n, v, _, hbefore, hadd, hafter⟩

/-- Additions to a method without variables leave what is left of all contests. -/
theorem locals_of_addAll (hnew : new.toVariables = .none) (h : addAll new calls = .ok m) :
    m.locals = settleAll (fun x v : LocalVar => v.fits x.index)
      (calls.map (·.localVar new.id)) := by
  have hnone : new.locals = [] := congrArg Variables.locals hnew
  rw [(addAll_eq_ok_iff.1 h).2, hnone]
  unfold settleAll
  rw [List.foldl_map]
  rfl

/-! ## One addition -/

/-- What an addition does to the local variables of a method that it leads from and to, when it
gives a variable back: none of them goes, only one of a higher priority takes the place of another
one, and what is given back is there with the priority of the addition or a higher one. -/
structure Contends (c : LocalCall) (m : Method) (v : LocalVar) (n : Method) : Prop where
  kept : m.locals.length ≤ n.locals.length
  replaced : ∀ (k : Nat) (old : LocalVar), m.locals[k]? = some old → n.locals[k]? = some old ∨
    n.locals[k]? = some (c.localVar m.id) ∧ priorityOf old < priorityOf c
  held : v ∈ n.locals
  ranked : priorityOf c ≤ priorityOf v

theorem contends_of_addTo (h : c.addTo m = .ok (v, n)) : c.Contends m v n := by
  obtain ⟨-, rfl, rfl⟩ := addTo_eq_ok_iff.1 h
  refine ⟨length_le_settle, fun k old hold => ?_, fst_settle_mem, le_fst_settle (α := LocalVar)⟩
  rcases getElem?_settle (·.fits c.index) (c.localVar m.id) hold with
    hstays | ⟨hplace, -, hhigher⟩
  · exact .inl hstays
  · exact .inr ⟨hplace, hhigher⟩

/-! ## Indices that are the same or unrelated -/

/-- The indices of any two additions are the same or have nothing to do with each other. -/
def Unmixed (calls : List LocalCall) : Prop :=
  ∀ c ∈ calls, ∀ d ∈ calls, c.index = d.index ∨ c.index.Unrelated d.index

instance (calls : List LocalCall) : Decidable (Unmixed calls) :=
  inferInstanceAs (Decidable (∀ c ∈ calls, ∀ d ∈ calls, _))

/-- Then the variables that additions leave to a method without any are those that rivals leave. -/
theorem settled_locals (hunmixed : Unmixed calls) (hnew : new.toVariables = .none)
    (h : addAll new calls = .ok m) :
    Settled LocalVar.index (calls.map (·.localVar new.id)) m.locals := by
  rw [locals_of_addAll hnew h]
  refine settled_settleAll fun x hx v hv => ?_
  obtain ⟨c, hc, rfl⟩ := List.mem_map.1 hx
  obtain ⟨d, hd, rfl⟩ := List.mem_map.1 hv
  show c.index.agreesWith d.index = true ↔ d.index = c.index
  constructor
  · intro hagrees
    rcases hunmixed c hc d hd with hsame | hunrelated
    · exact hsame.symm
    · rw [hunrelated.1] at hagrees
      cases hagrees
  · intro hsame
    rw [hsame]
    exact c.index.agreesWith_self

end LocalCall

/-! ## What the additions leave -/

/-- **The priorities decide which local variables are left.** Of all additions to a new method, none
takes a place away, only one of a higher priority takes the place of a variable, and each gives back
a variable of its own priority or a higher one. An addition of a higher priority than all others is
there in the end.

If the indices of any two additions are the same or unrelated, one variable is left for each index,
in the order in which the indices first occur: the first one of the highest priority. If then the
priorities under each index differ, any order of the additions leaves the same variables. -/
theorem locals_prevail {new m : Method} {calls : List LocalCall} (hnew : new.toVariables = .none)
    (hcalls : LocalCall.addAll new calls = .ok m) :
    (∀ before c after, calls = before ++ c :: after →
      (∃ n v o, LocalCall.addAll new before = .ok n ∧ c.addTo n = .ok (v, o) ∧
        LocalCall.addAll o after = .ok m ∧ c.Contends n v o) ∧
      ((∀ d ∈ before ++ after, priorityOf d < priorityOf c) → c.localVar new.id ∈ m.locals)) ∧
    (LocalCall.Unmixed calls →
      m.locals.map LocalVar.index = keysOf LocalCall.index calls ∧
      (∀ v ∈ m.locals, ∃ c, Prevails LocalCall.index calls c ∧ v = c.localVar new.id) ∧
      (Ranked LocalCall.index calls → ∀ reordered : List LocalCall, reordered.Perm calls →
        ∃ n, LocalCall.addAll new reordered = .ok n ∧ n.locals.Perm m.locals)) := by
  constructor
  · rintro before c after rfl
    constructor
    · obtain ⟨n, v, o, hbefore, hadd, hafter⟩ := LocalCall.exists_of_addAll_append_cons hcalls
      exact ⟨n, v, o, hbefore, hadd, hafter, LocalCall.contends_of_addTo hadd⟩
    · intro hhighest
      obtain ⟨hbefore, hafter⟩ := List.forall_mem_append.1 hhighest
      rw [LocalCall.locals_of_addAll hnew hcalls, List.map_append, List.map_cons]
      exact mem_settleAll_of_highest (List.forall_mem_map.2 hbefore) (List.forall_mem_map.2 hafter)
  · intro hunmixed
    have hsettled := LocalCall.settled_locals hunmixed hnew hcalls
    refine ⟨?_, fun v hv => ?_, fun hranked reordered hperm => ?_⟩
    · rw [hsettled.keys, keysOf, List.map_map]
      rfl
    · exact (hsettled.winners v hv).exists_of_map (fun _ => rfl) fun _ => rfl
    · have hmem : ∀ c ∈ reordered, c ∈ calls := fun c hc => hperm.mem_iff.1 hc
      have hrun := LocalCall.addAll_eq_ok_iff.2
        ⟨fun c hc => (LocalCall.addAll_eq_ok_iff.1 hcalls).1 c (hmem c hc), rfl⟩
      have hothers := LocalCall.settled_locals
        (fun c hc d hd => hunmixed c (hmem c hc) d (hmem d hd)) hnew hrun
      refine ⟨_, hrun, hsettled.perm_of_perm hothers (hperm.map _) ?_⟩
      exact hranked.map (fun _ => rfl) fun _ => rfl

/-- Less is known of the index of `high` than of the one whose place it takes, and `weak` does not
outdo `other`. Where ranges tell all other indices apart, any order leaves the same variables. -/
theorem locals_prevail_ranges :
    let call (name : String) (line : Line) (slot start table : Option Nat) : LocalCall :=
      ⟨⟨⟨[none, some name]⟩, .file (.ofLine line)⟩, ⟨⟨slot, start, none⟩, table⟩, none⟩
    let low := call "low" (.low 1) (some 1) none (some 0)
    let other := call "other" (.base 2) (some 2) none (some 1)
    let high := call "high" (.high 3) (some 1) none none
    let weak := call "weak" (.low 4) none none (some 1)
    let early := call "early" (.base 5) (some 1) (some 0) none
    let late := call "late" (.base 6) (some 1) (some 8) none
    let again := call "again" (.high 7) (some 1) (some 0) none
    let new : Method :=
      ⟨⟨⟨[some "a", some "run"]⟩, .unknown⟩, .none, ⟨⟨⟨7⟩, 0⟩, 0⟩, ⟨[], .void⟩, .unknown⟩
    ∃ mixed ranged reordered : Method,
      LocalCall.addAll new [low, other, high, weak] = .ok mixed ∧
      (∃ n v o, LocalCall.addAll new [low, other] = .ok n ∧ high.addTo n = .ok (v, o) ∧
        high.Contends n v o ∧ o.locals = [high.localVar new.id, other.localVar new.id]) ∧
      high.localVar new.id ∈ mixed.locals ∧
      LocalCall.addAll new [early, late, again] = .ok ranged ∧
      ranged.locals = [again.localVar new.id, late.localVar new.id] ∧
      ranged.locals.map LocalVar.index = [early.index, late.index] ∧
      LocalCall.addAll new [late, again, early] = .ok reordered ∧
      reordered.locals.Perm ranged.locals := by
  intro call low other high weak early late again new
  obtain ⟨mixed, hmixed⟩ :
      ∃ mixed, LocalCall.addAll new [low, other, high, weak] = .ok mixed := ⟨_, rfl⟩
  obtain ⟨ranged, hranged⟩ :
      ∃ ranged, LocalCall.addAll new [early, late, again] = .ok ranged := ⟨_, rfl⟩
  obtain ⟨hsplit, -⟩ := locals_prevail rfl hmixed
  obtain ⟨⟨n, v, o, hbefore, hadd, -, hcontends⟩, hhighest⟩ := hsplit [low, other] high [weak] rfl
  obtain ⟨-, hunmixed⟩ := locals_prevail rfl hranged
  obtain ⟨hkeys, -, hany⟩ := hunmixed (by decide)
  obtain ⟨reordered, hreordered, hperm⟩ :=
    hany (by unfold Ranked; decide) [late, again, early] (by decide)
  refine ⟨mixed, ranged, reordered, hmixed, ⟨n, v, o, hbefore, hadd, hcontends, ?_⟩,
    hhighest (by decide), hranged, ?_, hkeys, hreordered, hperm⟩
  · cases hbefore
    cases hadd
    decide
  · cases hranged
    decide

end SymbolMap
