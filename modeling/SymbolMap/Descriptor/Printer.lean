import SymbolMap.Descriptor.Basic
import SymbolMap.Text.Quoted

/-!
# Writing descriptors

`descriptor` writes a type as class files do: a letter for a base type, `L…;` around a class name,
and one `[` for each dimension of an array. `outline` writes it by its constructors, which is how
messages show a descriptor inside of a reference.
-/

namespace SymbolMap

open Text

namespace FieldType

/-- The characters of the descriptor. -/
def spelling : FieldType → List Char
  | base type => [type.letter]
  | object name => 'L' :: (name.text.toList ++ [';'])
  | array component dimension => List.replicate dimension.toNat '[' ++ component.spelling

/-- The descriptor of the type. -/
def descriptor (t : FieldType) : String := String.ofList t.spelling

/-- The type by its constructors. -/
def outline : FieldType → String
  | base type => "Primitive(" ++ type.title ++ ")"
  | object name => "Class(ClassName(" ++ quoted name.text ++ "))"
  | array component dimension =>
    "Array \x7b component: " ++ component.outline ++ ", dimension: "
      ++ Nat.repr dimension.toNat ++ " \x7d"

end FieldType

namespace ReturnType

/-- The characters of the descriptor. -/
def spelling : ReturnType → List Char
  | void => ['V']
  | value type => type.spelling

/-- The descriptor of the type. -/
def descriptor (t : ReturnType) : String := String.ofList t.spelling

/-- The type by its constructors. -/
def outline : ReturnType → String
  | void => "Void"
  | value type => "Type(" ++ type.outline ++ ")"

end ReturnType

namespace MethodDescriptor

/-- The characters of the descriptor. -/
def spelling (d : MethodDescriptor) : List Char :=
  '(' :: (d.params.flatMap FieldType.spelling ++ ')' :: d.returns.spelling)

/-- The descriptor of the method. -/
def descriptor (d : MethodDescriptor) : String := String.ofList d.spelling

/-- The descriptor by its constructors. -/
def outline (d : MethodDescriptor) : String :=
  "MethodDescriptor \x7b params: " ++ bracketed (d.params.map FieldType.outline)
    ++ ", return_type: " ++ d.returns.outline ++ " \x7d"

end MethodDescriptor

end SymbolMap
