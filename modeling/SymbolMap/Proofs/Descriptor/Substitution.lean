import SymbolMap.Proofs.Descriptor.ClassNames
import SymbolMap.Proofs.Descriptor.RoundTrip

/-!
# Substitution after substitution

Replacing the class names of a type twice comes to replacing them once
(`FieldType.substitute_substitute`), for what a substitution leaves has its arrays
merged already. So a flat type is what it was after any number of substitutions
exactly if each of its names is (`substitute_eq_self_iff`).

The same holds for return types and descriptors of methods; `RenamesClasses` has
the laws that the three kinds of values share.
-/

namespace SymbolMap

namespace FieldType

variable {t : FieldType}

/-- Inside of all arrays is a base type or a class. -/
theorem innermost_cases (t : FieldType) :
    (∃ type, t.innermost = base type) ∨ ∃ name, t.innermost = object name := by
  induction t with
  | base type => exact .inl ⟨type, rfl⟩
  | object name => exact .inr ⟨name, rfl⟩
  | array component dimension ih => exact ih

theorem substitute_of_base {type : BaseType} (h : t.innermost = base type)
    (f : ClassName → ClassName) : t.substitute f = (base type).wrapped (min t.depth 255) := by
  unfold substitute
  rw [h]

theorem substitute_of_object {name : ClassName} (h : t.innermost = object name)
    (f : ClassName → ClassName) :
    t.substitute f = (object (f name)).wrapped (min t.depth 255) := by
  unfold substitute
  rw [h]

theorem classNames_innermost (t : FieldType) : t.innermost.classNames = t.classNames := by
  induction t with
  | base => rfl
  | object => rfl
  | array component dimension ih => exact ih

theorem classNames_wrapped (t : FieldType) (n : Nat) : (t.wrapped n).classNames = t.classNames := by
  unfold wrapped
  split
  · rfl
  · rfl

theorem classNames_substitute (f : ClassName → ClassName) (t : FieldType) :
    (t.substitute f).classNames = t.classNames.map f := by
  rcases t.innermost_cases with ⟨type, h⟩ | ⟨name, h⟩
  · rw [substitute_of_base h, classNames_wrapped, ← t.classNames_innermost, h]
    rfl
  · rw [substitute_of_object h, classNames_wrapped, ← t.classNames_innermost, h]
    rfl

/-- Two substitutions in a row are one. -/
theorem substitute_substitute (g f : ClassName → ClassName) (t : FieldType) :
    (t.substitute f).substitute g = t.substitute (g ∘ f) := by
  have hle : min t.depth 255 ≤ 255 := Nat.min_le_right _ _
  rcases t.innermost_cases with ⟨type, h⟩ | ⟨name, h⟩
  · have hinner : ((base type).wrapped (min t.depth 255)).innermost = base type :=
      innermost_wrapped rfl _
    rw [substitute_of_base h, substitute_of_base h, substitute_of_base hinner,
      depth_wrapped rfl hle, Nat.min_eq_left hle]
  · have hinner : ((object (f name)).wrapped (min t.depth 255)).innermost = object (f name) :=
      innermost_wrapped rfl _
    rw [substitute_of_object h, substitute_of_object h, substitute_of_object hinner,
      depth_wrapped rfl hle, Nat.min_eq_left hle]
    rfl

/-- A substitution that leaves the names as they are merges the arrays and does
nothing else. -/
theorem substitute_eq_flat {f : ClassName → ClassName} (h : ∀ name ∈ t.classNames, f name = name) :
    t.substitute f = t.flat := by
  rcases t.innermost_cases with ⟨type, hinner⟩ | ⟨name, hinner⟩
  · rw [substitute_of_base hinner, flat, hinner]
  · have hname : f name = name := by
      apply h
      rw [← t.classNames_innermost, hinner]
      exact List.mem_singleton_self name
    rw [substitute_of_object hinner, flat, hinner, hname]

end FieldType

namespace ReturnType

theorem classNames_substitute (f : ClassName → ClassName) (t : ReturnType) :
    (t.substitute f).classNames = t.classNames.map f := by
  cases t with
  | void => rfl
  | value type => exact type.classNames_substitute f

theorem substitute_substitute (g f : ClassName → ClassName) (t : ReturnType) :
    (t.substitute f).substitute g = t.substitute (g ∘ f) := by
  cases t with
  | void => rfl
  | value type => exact congrArg value (type.substitute_substitute g f)

theorem substitute_eq_flat {f : ClassName → ClassName} {t : ReturnType}
    (h : ∀ name ∈ t.classNames, f name = name) : t.substitute f = t.flat := by
  cases t with
  | void => rfl
  | value type => exact congrArg value (FieldType.substitute_eq_flat h)

theorem WellFormed.flat_eq {t : ReturnType} (h : t.WellFormed) : t.flat = t := by
  cases t with
  | void => rfl
  | value type => exact congrArg value (FieldType.WellFormed.flat_eq h)

end ReturnType

namespace MethodDescriptor

theorem classNames_substitute (f : ClassName → ClassName) (d : MethodDescriptor) :
    (d.substitute f).classNames = d.classNames.map f := by
  unfold classNames substitute
  rw [List.map_append, List.flatMap_map, List.map_flatMap, ReturnType.classNames_substitute]
  simp only [FieldType.classNames_substitute]

theorem substitute_substitute (g f : ClassName → ClassName) (d : MethodDescriptor) :
    (d.substitute f).substitute g = d.substitute (g ∘ f) := by
  unfold substitute
  rw [List.map_map, ReturnType.substitute_substitute]
  congr 1
  exact List.map_congr_left fun p _ => p.substitute_substitute g f

theorem substitute_eq_flat {f : ClassName → ClassName} {d : MethodDescriptor}
    (h : ∀ name ∈ d.classNames, f name = name) : d.substitute f = d.flat := by
  have hreturns : ∀ name ∈ d.returns.classNames, f name = name := fun name hname =>
    h name (List.mem_append_right _ hname)
  have hparams : ∀ p ∈ d.params, p.substitute f = p.flat := by
    intro p hp
    apply FieldType.substitute_eq_flat
    intro name hname
    exact h name (List.mem_append_left _ (List.mem_flatMap.2 ⟨p, hp, hname⟩))
  unfold substitute flat
  rw [ReturnType.substitute_eq_flat hreturns, List.map_congr_left hparams]

theorem WellFormed.flat_eq {d : MethodDescriptor} (h : d.WellFormed) : d.flat = d := by
  have hparams : d.params.map FieldType.flat = d.params := by
    rw [List.map_congr_left fun p hp => (h.1 p hp).flat_eq, List.map_id']
  unfold flat
  rw [hparams, ReturnType.WellFormed.flat_eq h.2]

end MethodDescriptor

/-! ## The laws in common -/

/-- The values that mention classes and are written as descriptors, with the laws of
replacing the names in them. -/
class RenamesClasses (τ : Type) extends NamesClasses τ, HasDescriptor τ where
  classNames_substitute : ∀ (f : ClassName → ClassName) (v : τ),
    classNames (substitute f v) = (classNames v).map f
  substitute_substitute : ∀ (g f : ClassName → ClassName) (v : τ),
    substitute g (substitute f v) = substitute (g ∘ f) v
  substitute_eq_flat : ∀ (f : ClassName → ClassName) (v : τ),
    (∀ name ∈ classNames v, f name = name) → substitute f v = flat v
  flat_eq : ∀ v : τ, WellFormed v → flat v = v

instance : RenamesClasses FieldType where
  classNames_substitute := FieldType.classNames_substitute
  substitute_substitute := FieldType.substitute_substitute
  substitute_eq_flat _ _ := FieldType.substitute_eq_flat
  flat_eq _ := FieldType.WellFormed.flat_eq

instance : RenamesClasses ReturnType where
  classNames_substitute := ReturnType.classNames_substitute
  substitute_substitute := ReturnType.substitute_substitute
  substitute_eq_flat _ _ := ReturnType.substitute_eq_flat
  flat_eq _ := ReturnType.WellFormed.flat_eq

instance : RenamesClasses MethodDescriptor where
  classNames_substitute := MethodDescriptor.classNames_substitute
  substitute_substitute := MethodDescriptor.substitute_substitute
  substitute_eq_flat _ _ := MethodDescriptor.substitute_eq_flat
  flat_eq _ := MethodDescriptor.WellFormed.flat_eq

section Laws

open NamesClasses HasDescriptor RenamesClasses

variable {τ : Type} [RenamesClasses τ] {v : τ}

/-- What a substitution leaves is flat. -/
theorem flat_substitute (f : ClassName → ClassName) (v : τ) :
    flat (substitute f v) = substitute f v := by
  have hid : substitute id (substitute f v) = flat (substitute f v) :=
    substitute_eq_flat id _ fun _ _ => rfl
  rw [← hid, substitute_substitute, Function.id_comp]

/-- A flat value is left as it is exactly if all names in it are. -/
theorem substitute_eq_self_iff (h : flat v = v) {f : ClassName → ClassName} :
    substitute f v = v ↔ ∀ name ∈ classNames v, f name = name := by
  constructor
  · intro hsame name hname
    have hnames : (classNames v).map f = (classNames v).map id := by
      rw [← classNames_substitute, hsame, List.map_id]
    exact List.map_inj_left.1 hnames name hname
  · intro hnames
    rw [substitute_eq_flat f v hnames, h]

end Laws

end SymbolMap
