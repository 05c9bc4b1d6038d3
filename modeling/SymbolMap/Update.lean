import SymbolMap.Error

/-!
# Updates

Sets, and what they hold, are changed in place. A change may be refused, and what
was done to a thing before the refusal is not taken back. So an update leaves
something behind in either case: what an operation changes when it refuses is told
by its definition, and not by its type.
-/

namespace SymbolMap

/-- A change of something in place. It has a result or is refused, and leaves something
behind either way. -/
abbrev Update (σ α : Type) : Type := EStateM MappingError σ α

namespace Update

variable {σ τ α : Type}

/-- What is left behind, whatever the outcome. -/
def behind : EStateM.Result MappingError σ α → σ
  | .ok _ y => y
  | .error _ y => y

/-- What an update leaves behind. -/
def left (u : Update σ α) (x : σ) : σ := behind (u.run x)

/-- The result of an update beside what it leaves. What a refused one leaves is given up. -/
def result (u : Update σ α) (x : σ) : Except MappingError (α × σ) :=
  match u.run x with
  | .ok a y => .ok (a, y)
  | .error e _ => .error e

/-- The update to what comes out with the result. Where there is none, all stays as it is. -/
def ofResult (f : σ → Except MappingError (α × σ)) : Update σ α := fun x =>
  match f x with
  | .ok (a, y) => .ok a y
  | .error e => .error e x

/-- Puts back what is left of a part, also after a refusal. -/
def putBack (put : τ → σ) : EStateM.Result MappingError τ α → EStateM.Result MappingError σ α
  | .ok a y => .ok a (put y)
  | .error e y => .error e (put y)

/-- Updates a part of something in its place. -/
def within (u : Update τ α) (part : τ) (put : τ → σ) : Update σ α := fun _ =>
  putBack put (u.run part)

variable {u : Update σ α} {x y : σ} {a : α}

theorem left_of_ok (h : u.run x = .ok a y) : u.left x = y := congrArg behind h

theorem left_of_error {e : MappingError} (h : u.run x = .error e y) : u.left x = y :=
  congrArg behind h

theorem result_eq_ok_iff : u.result x = .ok (a, y) ↔ u.run x = .ok a y := by
  unfold result
  cases u.run x <;> simp

theorem run_ofResult_eq_ok_iff {f : σ → Except MappingError (α × σ)} :
    (ofResult f).run x = .ok a y ↔ f x = .ok (a, y) := by
  cases h : f x <;> simp [ofResult, EStateM.run, h, Prod.ext_iff]

theorem behind_putBack (put : τ → σ) (outcome : EStateM.Result MappingError τ α) :
    behind (putBack put outcome) = put (behind outcome) := by
  cases outcome <;> rfl

theorem putBack_eq_ok_iff {put : τ → σ} {outcome : EStateM.Result MappingError τ α} :
    putBack put outcome = .ok a y ↔ ∃ z, outcome = .ok a z ∧ put z = y := by
  cases outcome <;> simp [putBack, and_assoc]

theorem putBack_eq_error_iff {put : τ → σ} {outcome : EStateM.Result MappingError τ α}
    {e : MappingError} :
    putBack put outcome = .error e y ↔ ∃ z, outcome = .error e z ∧ put z = y := by
  cases outcome <;> simp [putBack, and_assoc]

theorem run_map_eq_ok_iff {β : Type} {f : α → β} {b : β} :
    (f <$> u).run x = .ok b y ↔ ∃ a, u.run x = .ok a y ∧ f a = b := by
  rw [← bind_pure_comp, EStateM.run_bind]
  cases u.run x <;> simp [and_assoc, and_comm]

theorem run_map_eq_error_iff {β : Type} {f : α → β} {e : MappingError} :
    (f <$> u).run x = .error e y ↔ u.run x = .error e y := by
  rw [← bind_pure_comp, EStateM.run_bind]
  cases u.run x <;> simp

end Update

/-- Refuses names that do not have the given number of slots. -/
def NameRow.expectSize {σ : Type} (n : NameRow) (size : Nat) (otherwise : MappingError) :
    Update σ Unit :=
  if n.size = size then pure () else throw otherwise

/-- What follows the check is done to names of the right size alone. -/
theorem NameRow.run_expectSize_bind {σ α : Type} (n : NameRow) (size : Nat)
    (otherwise : MappingError) (next : Unit → Update σ α) (x : σ) :
    (n.expectSize size otherwise >>= next).run x =
      if n.size = size then (next ()).run x else .error otherwise x := by
  unfold expectSize
  split <;> rfl

end SymbolMap
