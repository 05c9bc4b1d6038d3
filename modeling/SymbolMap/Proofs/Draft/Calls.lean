/-!
# Runs of calls

A caller makes calls on a draft, one after the other, and each of them answers
something and leaves the draft in another state. What each call keeps, a run keeps
(`keeps_serveAll`); and a view of the state that each call respects is respected by
a run (`serveAll_view`).
-/

namespace SymbolMap

variable {α β ε σ τ κ : Type}

/-- What a call that may be refused answers, and the state after it. A refused
call leaves the state as it was. -/
def answered (s : σ) (result : Except ε (α × σ)) : Except ε α × σ :=
  match result with
  | .ok (a, after) => (.ok a, after)
  | .error e => (.error e, s)

/-- Makes calls one after the other and collects what they answer. -/
def serveAll (serve : σ → κ → β × σ) (s : σ) : List κ → List β × σ
  | [] => ([], s)
  | call :: rest =>
    let first := serve s call
    let others := serveAll serve first.2 rest
    (first.1 :: others.1, others.2)

theorem keeps_answered {P : σ → Prop} {s : σ} {result : Except ε (α × σ)} (hs : P s)
    (h : ∀ a after, result = .ok (a, after) → P after) : P (answered s result).2 := by
  cases result with
  | ok served => exact h _ _ rfl
  | error e => exact hs

/-- A call respects a view of the state if its result does. -/
theorem answered_view {view : σ → τ} {s : σ} {result : Except ε (α × σ)} :
    answered (view s) (result.map fun (a, after) => (a, view after)) =
      ((answered s result).1, view (answered s result).2) := by
  cases result with
  | ok served => rfl
  | error e => rfl

theorem keeps_serveAll {P : σ → Prop} {serve : σ → κ → β × σ}
    (hserve : ∀ s call, P s → P (serve s call).2) {s : σ} (hs : P s) (calls : List κ) :
    P (serveAll serve s calls).2 := by
  induction calls generalizing s with
  | nil => exact hs
  | cons call rest ih => exact ih (hserve s call hs)

/-- If the calls on a state and on a view of it answer the same and stay alike, as
long as an invariant holds, runs of them do. -/
theorem serveAll_view {P : σ → Prop} {view : σ → τ} {serve : σ → κ → β × σ}
    {serveView : τ → κ → β × τ} (hkeeps : ∀ s call, P s → P (serve s call).2)
    (hview : ∀ s call, P s → serveView (view s) call = ((serve s call).1, view (serve s call).2))
    {s : σ} (hs : P s) (calls : List κ) :
    serveAll serveView (view s) calls =
      ((serveAll serve s calls).1, view (serveAll serve s calls).2) := by
  induction calls generalizing s with
  | nil => rfl
  | cons call rest ih =>
    simp only [serveAll, hview s call hs, ih (hkeeps s call hs)]

end SymbolMap
