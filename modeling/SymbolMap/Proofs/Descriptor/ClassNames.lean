import SymbolMap.MappingSet.Respelling
import SymbolMap.Proofs.Descriptor.Flat

/-!
# The class names in a type

Which class names a type or a descriptor mentions (`classNames`), and what it
becomes when each of them is replaced (`substitute`): the innermost type is the
class of the other name, and all arrays are one. `FieldType.mapClasses` rebuilds
the arrays one by one from the inside, which comes to the same.
-/

namespace SymbolMap

namespace FieldType

/-- The class name in the type, if there is one. -/
def classNames : FieldType → List ClassName
  | base _ => []
  | object name => [name]
  | array component _ => component.classNames

/-- The type with another class name in it. Its arrays become one array of all
dimensions together, up to 255. -/
def substitute (f : ClassName → ClassName) (t : FieldType) : FieldType :=
  match t.innermost with
  | object name => (object (f name)).wrapped (min t.depth 255)
  | other => other.wrapped (min t.depth 255)

theorem mentionsClass_iff {t : FieldType} : t.mentionsClass = true ↔ t.classNames ≠ [] := by
  induction t with
  | base => simp [mentionsClass, classNames]
  | object => simp [mentionsClass, classNames]
  | array component dimension ih => exact ih

/-- Another name in the innermost type leaves a type that is no array. -/
theorem exists_substitute_eq_wrapped (f : ClassName → ClassName) (t : FieldType) :
    ∃ core : FieldType, core.isArray = false ∧
      ∀ u : FieldType, u.innermost = t.innermost →
        u.substitute f = core.wrapped (min u.depth 255) := by
  have hnot := t.isArray_innermost
  cases hcore : t.innermost with
  | base type =>
    refine ⟨base type, rfl, fun u hu => ?_⟩
    unfold substitute
    rw [hu]
  | object name =>
    refine ⟨object (f name), rfl, fun u hu => ?_⟩
    unfold substitute
    rw [hu]
  | array component dimension =>
    rw [hcore] at hnot
    cases hnot

/-- Substituting in an array merges it with what substituting in its component
gives. -/
theorem substitute_array (f : ClassName → ClassName) (component : FieldType) (d : UInt8) :
    (array component d).substitute f = arrayOf (component.substitute f) d := by
  obtain ⟨core, hcore, hsame⟩ := exists_substitute_eq_wrapped f component
  have hmin : min (min component.depth 255 + d.toNat) 255 =
      min (component.depth + d.toNat) 255 := by
    omega
  rw [hsame component rfl, hsame (array component d) rfl,
    arrayOf_wrapped hcore (Nat.min_le_right _ _), hmin]
  rfl

theorem mapClasses_eq_substitute (f : ClassName → ClassName) (t : FieldType) :
    t.mapClasses f = t.substitute f := by
  induction t with
  | base => rfl
  | object => rfl
  | array component dimension ih =>
    rw [substitute_array, ← ih]
    rfl

end FieldType

namespace ReturnType

def classNames : ReturnType → List ClassName
  | void => []
  | value type => type.classNames

def substitute (f : ClassName → ClassName) : ReturnType → ReturnType
  | void => void
  | value type => value (type.substitute f)

theorem mentionsClass_iff {t : ReturnType} : t.mentionsClass = true ↔ t.classNames ≠ [] := by
  cases t with
  | void => simp [mentionsClass, classNames]
  | value type => exact FieldType.mentionsClass_iff

theorem mapClasses_eq_substitute (f : ClassName → ClassName) (t : ReturnType) :
    t.mapClasses f = t.substitute f := by
  cases t with
  | void => rfl
  | value type => exact congrArg value (type.mapClasses_eq_substitute f)

end ReturnType

namespace MethodDescriptor

def classNames (d : MethodDescriptor) : List ClassName :=
  d.params.flatMap FieldType.classNames ++ d.returns.classNames

def substitute (f : ClassName → ClassName) (d : MethodDescriptor) : MethodDescriptor :=
  ⟨d.params.map (FieldType.substitute f), d.returns.substitute f⟩

theorem mentionsClass_iff {d : MethodDescriptor} : d.mentionsClass = true ↔ d.classNames ≠ [] := by
  unfold mentionsClass classNames
  rw [Bool.or_eq_true, List.any_eq_true, ReturnType.mentionsClass_iff, ne_eq, ne_eq,
    List.append_eq_nil_iff, List.flatMap_eq_nil_iff, Classical.not_and_iff_not_or_not,
    Classical.not_forall]
  simp only [FieldType.mentionsClass_iff, Classical.not_imp, ne_eq]

theorem mapClasses_eq_substitute (f : ClassName → ClassName) (d : MethodDescriptor) :
    d.mapClasses f = d.substitute f := by
  unfold mapClasses substitute
  rw [d.returns.mapClasses_eq_substitute f,
    List.map_congr_left fun p _ => p.mapClasses_eq_substitute f]

end MethodDescriptor

/-! ## All of them -/

/-- What mentions classes, with the names that it mentions and with what becomes of
it when they are replaced. -/
class NamesClasses (τ : Type) extends MentionsClasses τ where
  classNames : τ → List ClassName
  substitute : (ClassName → ClassName) → τ → τ
  mentionsClass_iff : ∀ v, mentionsClass v = true ↔ classNames v ≠ []
  mapClasses_eq : ∀ f v, mapClasses f v = substitute f v

instance : NamesClasses FieldType where
  classNames := FieldType.classNames
  substitute := FieldType.substitute
  mentionsClass_iff _ := FieldType.mentionsClass_iff
  mapClasses_eq := FieldType.mapClasses_eq_substitute

instance : NamesClasses ReturnType where
  classNames := ReturnType.classNames
  substitute := ReturnType.substitute
  mentionsClass_iff _ := ReturnType.mentionsClass_iff
  mapClasses_eq := ReturnType.mapClasses_eq_substitute

instance : NamesClasses MethodDescriptor where
  classNames := MethodDescriptor.classNames
  substitute := MethodDescriptor.substitute
  mentionsClass_iff _ := MethodDescriptor.mentionsClass_iff
  mapClasses_eq := MethodDescriptor.mapClasses_eq_substitute

end SymbolMap
