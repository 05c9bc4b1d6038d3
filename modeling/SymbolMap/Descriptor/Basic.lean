import SymbolMap.Symbol

/-!
# Types of fields and methods

The types that descriptors spell: the eight base types, classes, and arrays of either. An array
carries its whole dimension, so nested arrays are best built by `FieldType.arrayOf`, which merges
the levels; the constructor `array` leaves them as they are given. A type is mappable when it
mentions a class, for only class names are spelled differently from one namespace to the next.
-/

namespace SymbolMap

/-- The types that are not built from others. -/
inductive BaseType where
  | boolean
  | char
  | byte
  | short
  | int
  | long
  | float
  | double
  deriving DecidableEq, Repr

namespace BaseType

/-- The letter that stands for the type in a descriptor. -/
def letter : BaseType → Char
  | boolean => 'Z'
  | char => 'C'
  | byte => 'B'
  | short => 'S'
  | int => 'I'
  | long => 'J'
  | float => 'F'
  | double => 'D'

/-- The type that a letter stands for. -/
def ofLetter? (c : Char) : Option BaseType :=
  match c with
  | 'Z' => some boolean
  | 'C' => some char
  | 'B' => some byte
  | 'S' => some short
  | 'I' => some int
  | 'J' => some long
  | 'F' => some float
  | 'D' => some double
  | _ => none

/-- The name of the type. -/
def title : BaseType → String
  | boolean => "Boolean"
  | char => "Char"
  | byte => "Byte"
  | short => "Short"
  | int => "Int"
  | long => "Long"
  | float => "Float"
  | double => "Double"

@[simp] theorem ofLetter?_letter (b : BaseType) : ofLetter? b.letter = some b := by
  cases b <;> rfl

theorem letter_of_ofLetter? {c : Char} {b : BaseType} (h : ofLetter? c = some b) :
    b.letter = c := by
  unfold ofLetter? at h
  split at h <;> simp_all <;> subst h <;> rfl

end BaseType

/-- The type of a field, a parameter or a local variable. -/
inductive FieldType where
  | base (type : BaseType)
  | object (name : ClassName)
  | array (component : FieldType) (dimension : UInt8)
  deriving DecidableEq, Repr

namespace FieldType

/-- The sum of two dimensions; a sum past the largest dimension stops there. -/
def addDimensions (a b : UInt8) : UInt8 := UInt8.ofNat (min (a.toNat + b.toNat) 255)

/-- An array of the given dimension over a type. An array of arrays becomes one array, and a
dimension of zero gives the type itself. -/
def arrayOf (component : FieldType) (dimension : UInt8) : FieldType :=
  if dimension = 0 then component
  else match component with
    | array inner d => array inner (addDimensions d dimension)
    | other => array other dimension

/-- The dimension of the outermost array, zero for any other type. -/
def dimension : FieldType → UInt8
  | array _ d => d
  | _ => 0

/-- Whether the type mentions a class. -/
def mentionsClass : FieldType → Bool
  | base _ => false
  | object _ => true
  | array component _ => component.mentionsClass

end FieldType

/-- What a method returns. -/
inductive ReturnType where
  | void
  | value (type : FieldType)
  deriving DecidableEq, Repr

/-- Whether the type mentions a class. -/
def ReturnType.mentionsClass : ReturnType → Bool
  | void => false
  | value type => type.mentionsClass

/-- The types of the parameters of a method and of what it returns. -/
structure MethodDescriptor where
  params : List FieldType
  returns : ReturnType
  deriving DecidableEq, Repr

/-- Whether any of the types mentions a class. -/
def MethodDescriptor.mentionsClass (d : MethodDescriptor) : Bool :=
  d.params.any FieldType.mentionsClass || d.returns.mentionsClass

end SymbolMap
