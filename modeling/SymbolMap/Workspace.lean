import SymbolMap.Document

/-!
# Sets side by side

Several sets may be in use at once, and namespaces and ids of one be shown to another. A workspace
holds such sets by their position and gives every new one an id that no other set of it has. A copy
keeps the id of the set that it is a copy of.
-/

namespace SymbolMap

structure Workspace where
  sets : Array MappingSet

namespace Workspace

def empty : Workspace := ⟨#[]⟩

/-- The id that the next new set gets. The number of sets stands for a 64-bit counter
of the whole process: that one also counts creations that are refused, does not count
copies, and starts over past `2 ^ 64` only. All that is asked of either is that every
id given out before has a smaller number. -/
def nextId (w : Workspace) : SetId := ⟨w.sets.size⟩

def get? (w : Workspace) (position : Nat) : Option MappingSet := w.sets[position]?

/-- Puts a set behind the others and gives its position. -/
def push (w : Workspace) (s : MappingSet) : Nat × Workspace := (w.sets.size, ⟨w.sets.push s⟩)

/-- Creates a set. -/
def create (w : Workspace) (names : List String) : Except MappingError (Nat × Workspace) := do
  let s ← MappingSet.create w.nextId names
  return w.push s

/-- Builds a set from a draft. The result also has the problems found on the way. -/
def build (w : Workspace) (d : MappingDraft) : Except MappingError (Report × Nat × Workspace) := do
  let (s, report) ← d.build w.nextId
  return (report, w.push s)

/-- Builds the set of a document. The result also has the file it comes from. -/
def buildDocument (w : Workspace) (d : DocumentDraft) :
    Except MappingError (SourceFile × Nat × Workspace) := do
  let document ← d.build w.nextId
  return (document.source, w.push document.mappings)

/-- Copies the set at a position. -/
def duplicate (w : Workspace) (position : Nat) : Option (Nat × Workspace) :=
  (w.get? position).map w.push

/-- Changes the set at a position by one of its operations. Where there is no such set there is no
result. -/
def edit {α : Type} (w : Workspace) (position : Nat)
    (change : MappingSet → Except MappingError (α × MappingSet)) :
    Option (Except MappingError (α × Workspace)) :=
  (w.get? position).map fun s => do
    let (a, s) ← change s
    return (a, ⟨w.sets.setIfInBounds position s⟩)

end Workspace

end SymbolMap
