import SymbolMap.Origin

/-!
# Problems in mapping files

Readers note what they find wrong and read on. A report keeps errors and warnings apart, each in the
order in which they were noted.
-/

namespace SymbolMap

/-- A problem and, if it is known, its place. -/
structure Problem where
  message : String
  coords : Option Coords
  deriving DecidableEq, Repr

/-- The problems noted so far. -/
structure Report where
  errors : List Problem
  warnings : List Problem
  deriving DecidableEq, Repr

namespace Report

def empty : Report := ⟨[], []⟩

def isEmpty (r : Report) : Bool := r.errors.isEmpty && r.warnings.isEmpty

/-- Notes an error. -/
def error (r : Report) (message : String) (coords : Option Coords) : Report :=
  { r with errors := r.errors ++ [⟨message, coords⟩] }

/-- Notes a warning. -/
def warn (r : Report) (message : String) (coords : Option Coords) : Report :=
  { r with warnings := r.warnings ++ [⟨message, coords⟩] }

end Report

end SymbolMap
