import SymbolMap.Document

/-!
# File formats

A registry knows the formats that mapping files can have. The formats to try for a file are those
that expect its name. Where that leaves more than one, they are asked whether they accept the
contents. The first of them that can read the file is taken.
-/

namespace SymbolMap

/-- A file format. `read` gives nothing for contents that are not in the format. -/
structure Format where
  id : String
  extensions : List String
  accepts : ByteArray → Bool
  read : SetId → String → ByteArray → Option Document

namespace Format

/-- Accepts no contents, for formats that do not look at them. -/
def acceptsNothing : ByteArray → Bool := fun _ => false

/-- Whether the format has an extension that the file name ends with. -/
def expects (f : Format) (fileName : String) : Bool :=
  f.extensions.any fun extension => extension.toList.isSuffixOf fileName.toList

end Format

/-- The known formats, in the order in which they were registered. -/
structure Registry where
  formats : List Format

namespace Registry

def empty : Registry := ⟨[]⟩

/-- Adds a format at the end. -/
def register (r : Registry) (f : Format) : Registry := ⟨r.formats ++ [f]⟩

/-- The first format that has the id. -/
def get? (r : Registry) (id : String) : Option Format := r.formats.find? (·.id == id)

/-- The formats to try for a file, the best one first. -/
def candidates (r : Registry) (fileName : String) (bytes : ByteArray) : List Format :=
  let expecting := r.formats.filter (·.expects fileName)
  if expecting.length ≤ 1 then expecting else expecting.filter (·.accepts bytes)

/-- Reads a file with the first candidate that can read it. -/
def read (r : Registry) (id : SetId) (fileName : String) (bytes : ByteArray) : Option Document :=
  (r.candidates fileName bytes).findSome? fun f => f.read id fileName bytes

end Registry

end SymbolMap
