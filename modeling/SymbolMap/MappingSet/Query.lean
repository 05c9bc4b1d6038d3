import SymbolMap.MappingSet.Respelling

/-!
# Queries

Packages and classes are found by a name in either spelling, in one namespace or in all of them.
Members are found inside of a class by a reference: with the namespace that the reference is spelled
in, or without one, where every namespace may be the one meant.
-/

namespace SymbolMap.MappingSet

/-! ## Names of elements -/

/-- The name of an element in a namespace. -/
def nameOf (s : MappingSet) (e : Element) (ns : Namespace) :
    Except MappingError (Option String) := do
  let ns ← s.indexOf ns
  return e.name? ns

/-- The name of an element in the namespace of a name. -/
def nameBy (s : MappingSet) (e : Element) (ns : String) :
    Except MappingError (Option String) := do
  let ns ← s.findNamespace ns
  return e.name? ns.index

/-! ## Packages and classes -/

/-- The packages that have the name in some namespace. -/
def findPackages (s : MappingSet) (name : String) : List (Entry Package) :=
  s.packages.named (PackageName.ofSpelling name).text

/-- The packages that have the name in the given namespace. -/
def findPackagesIn (s : MappingSet) (ns : Namespace) (name : String) :
    Except MappingError (List (Entry Package)) := do
  let ns ← s.indexOf ns
  return s.packages.namedAt ns (PackageName.ofSpelling name).text

/-- The classes that have the name in some namespace. -/
def findClasses (s : MappingSet) (name : String) : List (Entry Class) :=
  s.classes.named (ClassName.ofSpelling name).text

/-- The classes that have the name in the namespace at an index. -/
def findClassesAt (s : MappingSet) (ns : Nat) (name : String) : List (Entry Class) :=
  s.classes.namedAt ns (ClassName.ofSpelling name).text

/-- The classes that have the name in the given namespace. -/
def findClassesIn (s : MappingSet) (ns : Namespace) (name : String) :
    Except MappingError (List (Entry Class)) := do
  let ns ← s.indexOf ns
  return s.findClassesAt ns name

/-! ## Members of a class -/

section Members

variable {α σ : Type} {kind : SymbolKind} [IsMember α kind σ] [MentionsClasses σ] [DecidableEq σ]

/-- Whether a member is what a reference means that is spelled in the namespace at an index. Without
a signature the name decides alone. -/
def isMeantAt (s : MappingSet) (ns : Nat) (ref : MemberRef kind σ) (member : α) : Bool :=
  (IsElement.element member).name? ns == some ref.name.text &&
    match ref.signature with
    | none => true
    | some signature =>
      IsMember.signature? member == some (s.respellAt ns homeIndex signature)

/-- The members that a reference means that is spelled in the namespace at an index. -/
def membersAt (s : MappingSet) (pool : List α) (ns : Nat) (ref : MemberRef kind σ) :
    List (Entry α) :=
  (Entry.ofList pool).filter fun e => s.isMeantAt ns ref e.item

/-- The members that a reference means that is spelled in the given namespace. -/
def membersIn (s : MappingSet) (pool : List α) (ns : Namespace) (ref : MemberRef kind σ) :
    Except MappingError (List (Entry α)) := do
  let ns ← s.indexOf ns
  return s.membersAt pool ns ref

/-- The members that a reference means in some spelling. Without a signature it means
those that have the name in some slot. With one, the name and the signature have to
fit in the same namespace. -/
def members (s : MappingSet) (pool : List α) (ref : MemberRef kind σ) : List (Entry α) :=
  match ref.signature with
  | none =>
    (Entry.ofList pool).filter fun e => (IsElement.element e.item).names.contains ref.name.text
  | some signature =>
    let spellings := (List.range s.width).map fun ns => s.respellAt ns homeIndex signature
    (Entry.ofList pool).filter fun e =>
      spellings.zipIdx.any fun (spelling, ns) =>
        (IsElement.element e.item).name? ns == some ref.name.text
          && IsMember.signature? e.item == some spelling

/-- The first member that a reference means, where the namespaces are tried in order. -/
def member? (s : MappingSet) (pool : List α) (ref : MemberRef kind σ) : Option (Entry α) :=
  (List.range s.width).findSome? fun ns => (s.membersAt pool ns ref).head?

/-- The first member that a reference means that is spelled in the namespace at an index; `of` gives
the members of its class. The class is the first one of its name there. -/
def resolveAt (s : MappingSet) (of : Class → List α) (ns : Nat) (ref : QualifiedRef kind σ) :
    Option (Entry (Entry α)) := do
  let owner ← (s.findClassesAt ns ref.owner.text).head?
  let member ← (s.membersAt (of owner.item) ns ref.member).head?
  return ⟨owner.position, member⟩

/-- The first member that a reference means that is spelled in the given namespace. -/
def resolveIn (s : MappingSet) (of : Class → List α) (ns : Namespace) (ref : QualifiedRef kind σ) :
    Except MappingError (Option (Entry (Entry α))) := do
  let ns ← s.indexOf ns
  return s.resolveAt of ns ref

/-- The first member that a reference means, where the namespaces are tried in order. -/
def resolve? (s : MappingSet) (of : Class → List α) (ref : QualifiedRef kind σ) :
    Option (Entry (Entry α)) :=
  (List.range s.width).findSome? fun ns => s.resolveAt of ns ref

end Members

end SymbolMap.MappingSet
