/-!
# Where something is declared

A declaration has a place in a file and a priority. When two declarations claim the same parameter
or local variable of a method, the priorities decide, and of two equal ones the earlier stays.
-/

namespace SymbolMap

/-- How strongly a declaration claims what it names. -/
abbrev Priority := Int32

/-- The priority of a declaration that says nothing about it. -/
def Priority.base : Priority := 0

/-- Above `Priority.base`. -/
def Priority.high : Priority := 100

/-- Below `Priority.base`. -/
def Priority.low : Priority := -100

/-- A line of a file and the priority of what is declared on it. -/
structure Line where
  number : Nat
  priority : Priority
  deriving DecidableEq, Repr

namespace Line

def base (number : Nat) : Line := ⟨number, .base⟩

def high (number : Nat) : Line := ⟨number, .high⟩

def low (number : Nat) : Line := ⟨number, .low⟩

end Line

/-- The position of a declaration in a file. -/
structure Coords where
  line : Option Nat
  column : Nat
  priority : Priority
  deriving DecidableEq, Repr

namespace Coords

/-- A position of base priority. -/
def base (line column : Nat) : Coords := ⟨some line, column, .base⟩

/-- A position on a line that may be unknown, with the priority of the line. -/
def onLine (line : Option Line) (column : Nat) : Coords :=
  ⟨line.map Line.number, column, (line.map Line.priority).getD .base⟩

/-- The start of a line. -/
def ofLine (line : Line) : Coords := onLine (some line) 1

/-- The position of a declaration of which nothing is known. -/
def start : Coords := onLine none 1

/-- The same position at another priority. -/
def atPriority (c : Coords) (priority : Priority) : Coords := { c with priority }

end Coords

/-- The place of a declaration, if it has one. -/
inductive Origin where
  | file (coords : Coords)
  | unknown
  deriving DecidableEq, Repr

namespace Origin

/-- A declaration without a place has the lowest of all priorities. -/
def priority : Origin → Priority
  | file coords => coords.priority
  | unknown => Int32.minValue

/-- Replaces the priority, where there is a place to hold one. -/
def atPriority (o : Origin) (priority : Priority) : Origin :=
  match o with
  | file coords => file (coords.atPriority priority)
  | unknown => unknown

/-- The place, where there is one. -/
def coords? : Origin → Option Coords
  | file coords => some coords
  | unknown => none

/-- Whether a declaration at `o` leaves one at `existing` in place, which is so unless its own
priority is the higher one. -/
def defersTo (o existing : Origin) : Bool := decide (o.priority ≤ existing.priority)

end Origin

end SymbolMap
