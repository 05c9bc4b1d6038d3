import SymbolMap.Text.Graphic

/-!
# Quoted text

Messages name the texts they are about between quotes, so that an empty name, a trailing space or a
control character can be told apart. A character that does not show on its own is written by its
code point.
-/

namespace SymbolMap.Text

/-- Lower-case hexadecimal digits without padding. -/
def hexDigits (n : Nat) : List Char := Nat.toDigits 16 n

/-- How a character is written between two `quote` characters. Only the quote character that
encloses the text needs a backslash. -/
def escape (quote : Char) (c : Char) : List Char :=
  if c == '\\' || c == quote then ['\\', c]
  else if c == '\t' then ['\\', 't']
  else if c == '\n' then ['\\', 'n']
  else if c == '\r' then ['\\', 'r']
  else if c == '\x00' then ['\\', '0']
  else if isGraphic c then [c]
  else ['\\', 'u', '\x7b'] ++ hexDigits c.toNat ++ ['\x7d']

/-- A text in double quotes. -/
def quoted (s : String) : String :=
  String.ofList ('"' :: s.toList.flatMap (escape '"') ++ ['"'])

/-- A character in single quotes. -/
def quotedChar (c : Char) : String :=
  String.ofList ('\'' :: escape '\'' c ++ ['\''])

/-- Items between brackets, separated by commas. -/
def bracketed (items : List String) : String :=
  "[" ++ ", ".intercalate items ++ "]"

/-- A list of texts, each in double quotes. -/
def quotedList (texts : List String) : String := bracketed (texts.map quoted)

/-- An optional value as messages spell it, by its constructor. -/
def optional (item : Option String) : String :=
  match item with
  | some text => "Some(" ++ text ++ ")"
  | none => "None"

end SymbolMap.Text
