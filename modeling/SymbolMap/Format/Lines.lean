import SymbolMap.Descriptor.Reader
import SymbolMap.Draft.Declaration
import SymbolMap.Format.Registry

/-!
# A format of lines

Files of this format start with a line that holds a fixed header. Each of the other lines is empty
or declares one name:

    c CLASS NAME
    m CLASS METHOD DESCRIPTOR NAME

Parts stand between spaces. A line that declares nothing is reported and skipped.

No other white space separates anything: only a line feed ends a line and only a
space ends a part. A tab, or a carriage return in front of a line feed, belongs to
the part that it stands in.
-/

namespace SymbolMap.Format.Lines

/-- What a line says. -/
inductive Statement where
  | nothing
  | declares (subject : Subject) (name : String)
  | invalidDescriptor (cause : DescriptorError)
  | unknown
  deriving DecidableEq, Repr

/-- The non-empty parts of a text between the characters that `separates` picks. -/
def parts (separates : Char → Bool) (cs : List Char) : List String :=
  ((cs.splitOnP separates).filter (!·.isEmpty)).map String.ofList

/-- Reads one line. -/
def Statement.ofLine (line : String) : Statement :=
  match parts (· == ' ') line.toList with
  | [] => nothing
  | ["c", name, newName] => declares (.ofClass ⟨name⟩) newName
  | ["m", owner, name, descriptor, newName] =>
    match MethodDescriptor.parse descriptor with
    | .ok descriptor => declares (.ofMethod ⟨owner⟩ ⟨name⟩ descriptor) newName
    | .error cause => invalidDescriptor cause
  | _ => unknown

/-- Carries out what a line says. -/
def follow (d : MappingDraft) (number : Nat) (line : String) : Except MappingError MappingDraft :=
  match Statement.ofLine line with
  | .nothing => .ok d
  | .declares subject name => d.apply ⟨some (.base number), 1, subject, name, true⟩
  | .invalidDescriptor cause =>
    .ok (d.error ("invalid descriptor: " ++ cause.headline) (some (.base number 4)))
  | .unknown => .ok (d.warn ("unknown line " ++ Text.quoted line) (some (.base number 1)))

/-- Carries out the lines from the given number on. -/
def followAll (d : MappingDraft) (number : Nat) : List String → Except MappingError MappingDraft
  | [] => .ok d
  | line :: rest => do
    let d ← follow d number line
    followAll d (number + 1) rest

/-- The document that the text of a file gives, if the file starts with the header. -/
def document (header format : String) (id : SetId) (fileName : String) (bytes : ByteArray) :
    Option Document := do
  let text ← String.fromUTF8? bytes
  match (text.toList.splitOn '\n').map String.ofList with
  | first :: rest =>
    if first = header then
      (do
        let d ← DocumentDraft.create format fileName []
        let mappings ← followAll d.mappings 2 rest
        { d with mappings }.build id).toOption
    else none
  | [] => none

end SymbolMap.Format.Lines
