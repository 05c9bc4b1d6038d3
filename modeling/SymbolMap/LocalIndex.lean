/-!
# Indices of local variables

A local variable is told apart by the slot it lives in, by the range of instructions in which it
lives there, and by its place in the local variable table. Any of these may be unknown. Declarations
from different places know different parts, so they are compared by what the newer one knows.
-/

namespace SymbolMap

/-- Whether `b` has the part `a`, if `a` is known at all. -/
def agreesOn (a b : Option Nat) : Bool := a.isNone || a == b

theorem agreesOn_self (a : Option Nat) : agreesOn a a = true := by
  cases a <;> simp [agreesOn]

/-- Whether `a` stands at or before `b` in the order of indices. The unknown one comes first. -/
def indexAtOrBefore (a b : Option Nat) : Bool :=
  match a, b with
  | none, _ => true
  | some _, none => false
  | some m, some n => decide (m ≤ n)

/-- Indices in ascending order. -/
def sortedIndices (indices : List (Option Nat)) : List (Option Nat) :=
  indices.mergeSort indexAtOrBefore

/-- The slot of a local variable and the range in which it holds the variable. -/
structure SlotRange where
  slot : Option Nat
  start : Option Nat
  stop : Option Nat
  deriving DecidableEq, Repr

/-- Whether the slot is known; a range alone does not place a variable. -/
def SlotRange.isKnown (s : SlotRange) : Bool := s.slot.isSome

/-- Whether `b` agrees with every known part of `a`. -/
def SlotRange.agreesWith (a b : SlotRange) : Bool :=
  agreesOn a.slot b.slot && agreesOn a.start b.start && agreesOn a.stop b.stop

/-- All that tells a local variable apart: its slot and its place in the local variable table. -/
structure LocalIndex where
  range : SlotRange
  table : Option Nat
  deriving DecidableEq, Repr

namespace LocalIndex

/-- Whether the variable can be placed at all. -/
def isKnown (i : LocalIndex) : Bool := i.range.isKnown || i.table.isSome

/-- Whether `b` agrees with every known part of `a`. -/
def agreesWith (a b : LocalIndex) : Bool :=
  agreesOn a.table b.table && a.range.agreesWith b.range

theorem agreesWith_self (i : LocalIndex) : i.agreesWith i = true := by
  simp [agreesWith, SlotRange.agreesWith, agreesOn_self]

end LocalIndex

end SymbolMap
