import SymbolMap.Proofs.Element.Rivals
import SymbolMap.Proofs.MappingSet.Reachable

/-!
# Parameters that contend

A method has one parameter for each index. Additions for one index are rivals, and additions for
different indices have nothing to do with each other, so the parameters of a method are those that
rivals leave (`Settled`): for each index, the first addition of the highest priority
(`params_prevail`). One that takes the place of another one replaces all of it.
-/

namespace SymbolMap

/-! ## Additions in a row -/

/-- What is said of a parameter that is added to a method. -/
structure ParamCall extends Element where
  index : Nat
  table : Option Nat
  type : Option FieldType
  deriving DecidableEq, Repr

namespace ParamCall

instance : IsElement ParamCall := ⟨ParamCall.toElement⟩

/-- The parameter of a method that the addition is for. -/
def param (c : ParamCall) (method : MethodId) : Param := { c with method }

/-- Adds the parameter to a method. -/
def addTo (m : Method) (c : ParamCall) : Except MappingError Method :=
  Prod.snd <$> m.addParam c.names c.origin c.index c.table c.type

variable {m n new : Method} {c : ParamCall} {calls : List ParamCall}

/-- An addition needs one name for each of the method, and settles the parameter with the others. -/
theorem addTo_eq_ok_iff :
    c.addTo m = .ok n ↔ c.names.size = m.names.size ∧
      n = { m with params := (settle (·.index == c.index) (c.param m.id) m.params).2 } := by
  unfold addTo
  constructor
  · intro h
    obtain ⟨⟨_, x⟩, hadd, hn⟩ := exists_of_bind_eq_ok h
    cases hn
    obtain ⟨hsize, -, hx⟩ := Method.addParam_eq_ok_iff.1 hadd
    exact ⟨hsize, hx⟩
  · rintro ⟨hsize, rfl⟩
    rw [Method.addParam_eq_ok_iff.2 ⟨hsize, rfl, rfl⟩]
    rfl

/-- Additions in a row settle their parameters one after the other, and leave all else of the method
as it is. -/
theorem foldlM_addTo_eq_ok_iff :
    calls.foldlM addTo m = .ok n ↔ (∀ c ∈ calls, c.names.size = m.names.size) ∧
      n = { m with params := (calls.map (·.param m.id)).foldl
                    (fun params p => (settle (·.index == p.index) p params).2) m.params } := by
  have hstep : ∀ (params : List Param) (c : ParamCall) (n : Method),
      addTo { m with params } c = .ok n ↔ c.names.size = m.names.size ∧
        n = { m with params := (settle (·.index == c.index) (c.param m.id) params).2 } :=
    fun _ _ _ => addTo_eq_ok_iff
  rw [List.foldl_map]
  exact foldlM_eq_ok_iff (fun params => { m with params }) hstep

/-- The parameters that additions leave to a method without any are those that rivals leave. -/
theorem settled_params (hnew : new.toVariables = .none)
    (h : calls.foldlM addTo new = .ok m) :
    Settled Param.index (calls.map (·.param new.id)) m.params := by
  obtain ⟨_, rfl⟩ := foldlM_addTo_eq_ok_iff.1 h
  have hnone : new.params = [] := congrArg Variables.params hnew
  rw [hnone]
  exact settled_settleAll fun p _ x _ => beq_iff_eq

end ParamCall

/-! ## What the additions leave -/

/-- **The first parameter of the highest priority prevails.** Of the parameters that are added to a
new method, one is left for each index, in the order in which the indices first occur: the first one
of the highest priority, with all that was said of it. If the priorities under each index differ,
any order of the additions leaves the same parameter at each index. -/
theorem params_prevail {new m : Method} {calls : List ParamCall} (hnew : new.toVariables = .none)
    (hcalls : calls.foldlM ParamCall.addTo new = .ok m) :
    m.params.map Param.index = keysOf ParamCall.index calls ∧
      (∀ p ∈ m.params, ∃ c, Prevails ParamCall.index calls c ∧ p = c.param new.id) ∧
      (Ranked ParamCall.index calls → ∀ reordered : List ParamCall, reordered.Perm calls →
        ∃ n, reordered.foldlM ParamCall.addTo new = .ok n ∧ ∀ i, n.param? i = m.param? i) := by
  have hsettled := ParamCall.settled_params hnew hcalls
  refine ⟨?_, fun p hp => (hsettled.winners p hp).exists_of_map (fun _ => rfl) fun _ => rfl, ?_⟩
  · rw [hsettled.keys, keysOf, List.map_map]
    rfl
  · intro hranked reordered hperm
    have hsizes := (ParamCall.foldlM_addTo_eq_ok_iff.1 hcalls).1
    have hrun := ParamCall.foldlM_addTo_eq_ok_iff.2
      ⟨fun c hc => hsizes c (hperm.mem_iff.1 hc), rfl⟩
    refine ⟨_, hrun, fun i => ?_⟩
    exact hsettled.find?_eq_of_perm (ParamCall.settled_params hnew hrun) (hperm.map _)
      (hranked.map (fun _ => rfl) fun _ => rfl)

/-- One of the lowest priority does not outdo one of which the place is unknown, and the later one
of two that are equal does not outdo the first. The one that wins takes the place of another one at
index 0, behind the parameter at index 1. Where nothing is equal, the order decides nothing else. -/
theorem params_prevail_tied :
    let names (name : String) : NameRow := ⟨[none, some name]⟩
    let onLine (line : Line) : Origin := .file (.ofLine line)
    let unplaced : ParamCall := ⟨⟨names "unplaced", .unknown⟩, 1, none, none⟩
    let lowest : ParamCall := ⟨⟨names "lowest", onLine ⟨1, Int32.minValue⟩⟩, 1, some 4, none⟩
    let low : ParamCall := ⟨⟨names "low", onLine (.low 2)⟩, 0, some 3, some (.object ⟨"Foo"⟩)⟩
    let high : ParamCall := ⟨⟨names "high", onLine (.high 3)⟩, 0, none, none⟩
    let again : ParamCall := ⟨⟨names "again", onLine (.high 4)⟩, 0, some 3, none⟩
    let new : Method :=
      ⟨⟨⟨[some "a", some "run"]⟩, .unknown⟩, .none, ⟨⟨⟨7⟩, 0⟩, 0⟩, ⟨[], .void⟩, .unknown⟩
    ∃ tied ranked reordered : Method,
      [unplaced, low, lowest, high, again].foldlM ParamCall.addTo new = .ok tied ∧
      tied.params = [unplaced.param new.id, high.param new.id] ∧
      tied.params.map Param.index = [1, 0] ∧
      [unplaced, low, high].foldlM ParamCall.addTo new = .ok ranked ∧
      [high, low, unplaced].foldlM ParamCall.addTo new = .ok reordered ∧
      reordered.params.map Param.index = [0, 1] ∧
      ∀ i, reordered.param? i = ranked.param? i := by
  intro names onLine unplaced lowest low high again new
  obtain ⟨tied, htied⟩ :
      ∃ tied, [unplaced, low, lowest, high, again].foldlM ParamCall.addTo new = .ok tied := ⟨_, rfl⟩
  obtain ⟨ranked, hranked⟩ :
      ∃ ranked, [unplaced, low, high].foldlM ParamCall.addTo new = .ok ranked := ⟨_, rfl⟩
  obtain ⟨hindices, -, -⟩ := params_prevail rfl htied
  obtain ⟨-, -, hany⟩ := params_prevail rfl hranked
  obtain ⟨reordered, hreordered, hsame⟩ :=
    hany (by unfold Ranked; decide) [high, low, unplaced] (by decide)
  obtain ⟨hkeys, -, -⟩ := params_prevail rfl hreordered
  refine ⟨tied, ranked, reordered, htied, ?_, hindices, hranked, hreordered, hkeys, hsame⟩
  cases htied
  decide

end SymbolMap
