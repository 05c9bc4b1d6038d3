import SymbolMap.Draft.Mapping

/-!
# Declarations as data

The two declarations that line formats are made of: the name of a class, and the name of a method of
some class. Both refer to what they name by its spelling in the first namespace and give the name in
the second one.
-/

namespace SymbolMap

/-- What a declaration names. -/
inductive Subject where
  | ofClass (name : ClassName)
  | ofMethod (owner : ClassName) (name : MethodName) (descriptor : MethodDescriptor)
  deriving DecidableEq, Repr

/-- The class that the subject is or belongs to. -/
def Subject.owner : Subject → ClassName
  | ofClass name => name
  | ofMethod owner _ _ => owner

/-- A name for a subject, given at some position of a file. -/
structure Declaration where
  line : Option Line
  column : Nat
  subject : Subject
  name : String
  overwrite : Bool
  deriving DecidableEq, Repr

/-- Gives the name of a declaration to a draft. -/
def Declaration.nameDraft {δ : Type} [Draft δ] (c : Declaration) (d : δ) :
    Except MappingError δ :=
  Draft.assign d 1 c.name c.overwrite

/-- Carries out a declaration inside of the class that it is about. -/
def Declaration.applyTo (c : Declaration) (owner : ClassDraft) : Except MappingError ClassDraft :=
  match c.subject with
  | .ofClass _ => c.nameDraft owner
  | .ofMethod _ name descriptor => do
    let (done, owner) ← owner.editMethod ⟨⟨name, some descriptor⟩, 0⟩ c.line c.column
      (Draft.attempt c.nameDraft)
    done
    return owner

/-- Carries out a declaration. -/
def MappingDraft.apply (d : MappingDraft) (c : Declaration) : Except MappingError MappingDraft := do
  let (done, d) ← d.editClass ⟨c.subject.owner, 0⟩ c.line c.column (Draft.attempt c.applyTo)
  done
  return d

end SymbolMap
