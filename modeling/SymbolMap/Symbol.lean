/-!
# Symbols

The names of packages, classes, members and variables. All of them are texts, and each family is a
type of its own, so that a field name is never looked up among the classes. Packages and classes are
written with `/` between their segments; `ofSpelling` also takes the dots of source code.
-/

namespace SymbolMap

/-- The families of names. -/
inductive SymbolKind where
  | packages
  | classes
  | fields
  | methods
  | params
  | locals
  deriving DecidableEq, Repr

/-- A name of one family. -/
structure Symbol (kind : SymbolKind) where
  text : String
  deriving DecidableEq, Repr

abbrev PackageName := Symbol .packages
abbrev ClassName := Symbol .classes
abbrev FieldName := Symbol .fields
abbrev MethodName := Symbol .methods
abbrev ParamName := Symbol .params
abbrev LocalName := Symbol .locals

namespace Symbol

variable {kind : SymbolKind}

/-- Names are ordered by the code points of their texts. -/
instance : Ord (Symbol kind) := ⟨fun a b => compare a.text b.text⟩

/-- Whether `a` stands at or before `b` in the order of names. -/
def atOrBefore (a b : Symbol kind) : Bool := (compare a b).isLE

/-- The names in ascending order. -/
def sorted (names : List (Symbol kind)) : List (Symbol kind) := names.mergeSort atOrBefore

theorem sorted_perm (names : List (Symbol kind)) : (sorted names).Perm names :=
  List.mergeSort_perm names atOrBefore

theorem pairwise_sorted (names : List (Symbol kind)) :
    (sorted names).Pairwise fun a b => a.atOrBefore b = true := by
  apply List.pairwise_mergeSort
  · intro a b c hab hbc
    have hab : (compare a.text b.text).isLE := hab
    have hbc : (compare b.text c.text).isLE := hbc
    have hac : (compare a.text c.text).isLE := Std.TransCmp.isLE_trans hab hbc
    exact hac
  · intro a b
    have hswap : compare b.text a.text = (compare a.text b.text).swap :=
      Std.OrientedCmp.eq_swap
    show ((compare a.text b.text).isLE || (compare b.text a.text).isLE) = true
    rw [hswap]
    cases compare a.text b.text <;> rfl

end Symbol

/-! ## Segments of packages and classes -/

/-- A dot becomes the separator between segments. -/
def slashDots (c : Char) : Char := if c == '.' then '/' else c

/-- The separator between segments becomes a dot. -/
def dotSlashes (c : Char) : Char := if c == '/' then '.' else c

/-- The package a text names, in either spelling. The root package may be given by one separator or
by two, and is always `/`. -/
def PackageName.ofSpelling (text : String) : PackageName :=
  let slashed := text.map slashDots
  ⟨if slashed == "//" then "/" else slashed⟩

/-- The class a text names, in either spelling. -/
def ClassName.ofSpelling (text : String) : ClassName := ⟨text.map slashDots⟩

/-- The spelling of a class in source code. -/
def ClassName.sourceText (name : ClassName) : String := name.text.map dotSlashes

end SymbolMap
