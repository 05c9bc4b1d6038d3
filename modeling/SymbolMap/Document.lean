import SymbolMap.Draft.Build

/-!
# Mapping documents

A document is a set of mappings together with the file that it was read from and what went wrong
while it was read.
-/

namespace SymbolMap

/-- A mapping file, the format it was read in, and the problems found in it. -/
structure SourceFile where
  name : String
  format : String
  errors : List Problem
  warnings : List Problem
  deriving DecidableEq, Repr

def SourceFile.hasErrors (f : SourceFile) : Bool := !f.errors.isEmpty

structure Document where
  mappings : MappingSet
  source : SourceFile

/-- A document under construction. -/
structure DocumentDraft where
  mappings : MappingDraft
  format : String
  fileName : String

namespace DocumentDraft

/-- A document without declarations. No names stand for the two default namespaces, as for formats
that do not name theirs. -/
def create (format fileName : String) (names : List String) :
    Except MappingError DocumentDraft := do
  let mappings ← MappingDraft.create names
  return ⟨mappings, format, fileName⟩

/-- The document that the draft declares, with a set of the given id. -/
def build (d : DocumentDraft) (id : SetId) : Except MappingError Document := do
  let (mappings, report) ← d.mappings.build id
  return ⟨mappings, ⟨d.fileName, d.format, report.errors, report.warnings⟩⟩

end DocumentDraft

end SymbolMap
