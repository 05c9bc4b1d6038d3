import SymbolMap.Descriptor.Printer

/-!
# Reading descriptors

The grammar is

    method  = "(" field* ")" return
    return  = field | "V"
    field   = "[" field | "L" name ";" | "B" | "C" | "D" | "F" | "I" | "J" | "S" | "Z"

with at most 255 brackets in front of a type, and names that are not empty. The `take` functions
read from the front of the input and leave the rest; the `parse` functions want the whole input to
be used up. What can go wrong is a `ReadError` inside of one type and a `DescriptorError` about the
whole text.
-/

namespace SymbolMap

open Text

/-- Why no type could be read. -/
inductive ReadError where
  | tooManyDimensions
  | endOfText
  | arrayOfVoid
  | unclosedName (name : String)
  | emptyName
  | unexpectedChar (c : Char)
  deriving DecidableEq, Repr

/-- The text of the cause. -/
def ReadError.message : ReadError → String
  | tooManyDimensions => "array dimension doesn't fit into 255"
  | endOfText => "unexpected abrupt ending of descriptor"
  | arrayOfVoid => "arrays of void are not allowed"
  | unclosedName name =>
    "unexpected abrupt ending of class name " ++ quoted name ++ ", expected ';'"
  | emptyName => "empty class name in descriptor"
  | unexpectedChar c => "unexpected char " ++ quotedChar c ++ " in descriptor"

/-- The type that a descriptor text is read in place of. -/
inductive ReadPart where
  | type
  | returns
  | methodParam
  | methodReturns
  deriving DecidableEq, Repr

/-- What messages call the type. -/
def ReadPart.title : ReadPart → String
  | type => "type descriptor "
  | returns => "return descriptor "
  | methodParam => "parameter descriptor of "
  | methodReturns => "return descriptor of "

/-- The descriptors that a text can be read as. -/
inductive DescriptorKind where
  | type
  | returns
  | method
  deriving DecidableEq, Repr

/-- What messages call the descriptor. -/
def DescriptorKind.title : DescriptorKind → String
  | type => "type descriptor "
  | returns => "return descriptor "
  | method => "method descriptor "

/-- Why a text is not a descriptor. Every cause carries the whole text. -/
inductive DescriptorError where
  | unreadable (part : ReadPart) (text : String) (cause : ReadError)
  | voidType (text : String)
  | voidParam (text : String)
  | noParams (text : String)
  | unclosedParams (text : String)
  | trailing (kind : DescriptorKind) (text rest : String)
  deriving DecidableEq, Repr

namespace DescriptorError

/-- The message without the cause inside of the type. -/
def headline : DescriptorError → String
  | unreadable part text _ => "failed to read " ++ part.title ++ quoted text
  | voidType text => "void is not allowed in type descriptor " ++ quoted text
  | voidParam text => "void is not allowed as parameter type in " ++ quoted text
  | noParams text => "method descriptor " ++ quoted text ++ " doesn't start with '('"
  | unclosedParams text => "unexpected abrupt ending of method descriptor " ++ quoted text
  | trailing kind text rest =>
    "expected end of " ++ kind.title ++ quoted text ++ ", got " ++ quoted rest ++ " remaining"

/-- The message with all causes. -/
def message (e : DescriptorError) : String :=
  match e with
  | unreadable _ _ cause => e.headline ++ ": " ++ cause.message
  | _ => e.headline

end DescriptorError

/-! ## One type -/

/-- Takes a class name up to the semicolon that closes it. -/
def takeName (cs : List Char) : Except ReadError (ClassName × List Char) :=
  match cs.takeWhile (· != ';'), cs.dropWhile (· != ';') with
  | name, [] => .error (.unclosedName (String.ofList name))
  | [], _ => .error .emptyName
  | name, _ :: rest => .ok (⟨String.ofList name⟩, rest)

/-- Takes the type that stands behind the brackets, of which there are `dimension` many. -/
def takeComponent (dimension : Nat) (cs : List Char) : Except ReadError (ReturnType × List Char) :=
  match cs with
  | [] => .error .endOfText
  | 'V' :: rest => if dimension = 0 then .ok (.void, rest) else .error .arrayOfVoid
  | 'L' :: rest => do
    let (name, rest) ← takeName rest
    return (.value (.arrayOf (.object name) (UInt8.ofNat dimension)), rest)
  | c :: rest =>
    match BaseType.ofLetter? c with
    | some type => .ok (.value (.arrayOf (.base type) (UInt8.ofNat dimension)), rest)
    | none => .error (.unexpectedChar c)

/-- Takes one type, or void, from the front of the input and leaves the rest. -/
def takeType (cs : List Char) : Except ReadError (ReturnType × List Char) :=
  if (cs.takeWhile (· == '[')).length > 255 then .error .tooManyDimensions
  else takeComponent (cs.takeWhile (· == '[')).length (cs.dropWhile (· == '['))

theorem length_of_takeName {cs rest : List Char} {name : ClassName}
    (h : takeName cs = .ok (name, rest)) : rest.length < cs.length := by
  have hle := (List.dropWhile_sublist (l := cs) (· != ';')).length_le
  unfold takeName at h
  split at h
  · simp at h
  · simp at h
  · rename_i hd _
    rw [hd, List.length_cons] at hle
    simp only [Except.ok.injEq, Prod.mk.injEq] at h
    rw [← h.2]
    exact hle

theorem length_of_takeComponent {dimension : Nat} {cs rest : List Char} {t : ReturnType}
    (h : takeComponent dimension cs = .ok (t, rest)) : rest.length < cs.length := by
  unfold takeComponent at h
  split at h
  · simp at h
  · split at h <;> simp_all
  · rename_i tail
    cases hn : takeName tail with
    | error e => simp [hn, bind, Except.bind] at h
    | ok p =>
      obtain ⟨name, r⟩ := p
      have := length_of_takeName hn
      simp only [hn, bind, Except.bind, pure, Except.pure, Except.ok.injEq, Prod.mk.injEq] at h
      simp only [← h.2, List.length_cons]
      omega
  · split at h <;> simp_all

/-- A type uses up some of the input. -/
theorem length_of_takeType {cs rest : List Char} {t : ReturnType}
    (h : takeType cs = .ok (t, rest)) : rest.length < cs.length := by
  have hle := (List.dropWhile_sublist (l := cs) (· == '[')).length_le
  unfold takeType at h
  split at h
  · simp at h
  · have := length_of_takeComponent h
    omega

/-! ## Whole descriptors -/

/-- Why the parameters of a method could not be read. -/
inductive ParamsError where
  | unclosed
  | void
  | unreadable (cause : ReadError)
  deriving DecidableEq, Repr

/-- The error of a method descriptor whose parameters could not be read. -/
def ParamsError.of (text : String) : ParamsError → DescriptorError
  | unclosed => .unclosedParams text
  | void => .voidParam text
  | unreadable cause => .unreadable .methodParam text cause

/-- Takes parameter types up to and with the parenthesis that closes them. -/
def takeParams (cs : List Char) : Except ParamsError (List FieldType × List Char) :=
  match cs with
  | ')' :: rest => .ok ([], rest)
  | [] => .error .unclosed
  | c :: cs =>
    match _h : takeType (c :: cs) with
    | .error cause => .error (.unreadable cause)
    | .ok (.void, _) => .error .void
    | .ok (.value type, rest) => do
      let (types, rest) ← takeParams rest
      return (type :: types, rest)
termination_by cs.length
decreasing_by exact length_of_takeType _h

/-- The type that a descriptor such as `I`, `[[D` or `Ljava/lang/Object;` spells. -/
def FieldType.parse (text : String) : Except DescriptorError FieldType :=
  match takeType text.toList with
  | .error cause => .error (.unreadable .type text cause)
  | .ok (.void, _) => .error (.voidType text)
  | .ok (.value type, []) => .ok type
  | .ok (.value _, rest) => .error (.trailing .type text (String.ofList rest))

/-- The return type that a descriptor spells. -/
def ReturnType.parse (text : String) : Except DescriptorError ReturnType :=
  match takeType text.toList with
  | .error cause => .error (.unreadable .returns text cause)
  | .ok (type, []) => .ok type
  | .ok (_, rest) => .error (.trailing .returns text (String.ofList rest))

/-- The parameter and return types that a descriptor such as `(I[J)V` spells. -/
def MethodDescriptor.parse (text : String) : Except DescriptorError MethodDescriptor :=
  match text.toList with
  | '(' :: cs =>
    match takeParams cs with
    | .error e => .error (e.of text)
    | .ok (params, cs) =>
      match takeType cs with
      | .error cause => .error (.unreadable .methodReturns text cause)
      | .ok (type, []) => .ok ⟨params, type⟩
      | .ok (_, rest) => .error (.trailing .method text (String.ofList rest))
  | _ => .error (.noParams text)

end SymbolMap
