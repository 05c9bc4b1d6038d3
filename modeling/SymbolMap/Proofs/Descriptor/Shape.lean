import Mathlib.Data.List.Forall2
import SymbolMap.Proofs.Descriptor.Substitution

/-!
# The shape of a descriptor

What of a type or a descriptor does not depend on the names of the classes in it:
which arrays it has, of how many dimensions, and which base types (`SameShape`). Other
class names in a well-formed value leave this as it is, and if the names can be spelled,
the value stays well-formed.

In the text of a descriptor the class names are what stands between each `L` and the
next semicolon. `NamesReplaced` relates two texts that differ there and nowhere else.
-/

namespace SymbolMap

/-! ## Texts -/

/-- The second text is the first one with `f name` in the place of each `name` between
an `L` and the semicolon that closes it. -/
inductive NamesReplaced (f : ClassName → ClassName) : List Char → List Char → Prop
  | nil : NamesReplaced f [] []
  | same {c : Char} {cs ds : List Char} : c ≠ 'L' → NamesReplaced f cs ds →
      NamesReplaced f (c :: cs) (c :: ds)
  | name {name : ClassName} {cs ds : List Char} : ';' ∉ name.text.toList →
      ';' ∉ (f name).text.toList → NamesReplaced f cs ds →
      NamesReplaced f ('L' :: (name.text.toList ++ ';' :: cs))
        ('L' :: ((f name).text.toList ++ ';' :: ds))

namespace NamesReplaced

variable {f : ClassName → ClassName}

theorem append {cs ds cs' ds' : List Char} (h : NamesReplaced f cs ds)
    (h' : NamesReplaced f cs' ds') : NamesReplaced f (cs ++ cs') (ds ++ ds') := by
  induction h with
  | nil => exact h'
  | same hc _ ih => exact .same hc ih
  | name hold hnew _ ih =>
    simp only [List.cons_append, List.append_assoc]
    exact .name hold hnew ih

/-- Where there is no `L`, there is no name. -/
theorem of_not_mem {cs : List Char} (h : 'L' ∉ cs) : NamesReplaced f cs cs := by
  induction cs with
  | nil => exact .nil
  | cons c cs ih =>
    rw [List.mem_cons, not_or] at h
    exact .same (Ne.symm h.1) (ih h.2)

end NamesReplaced

/-! ## Types -/

namespace FieldType

/-- The types differ at most in the name of a class: they are the same base type, or
two classes, or arrays of the same dimension of such types. -/
inductive SameShape : FieldType → FieldType → Prop
  | base (type : BaseType) : SameShape (base type) (base type)
  | object (name new : ClassName) : SameShape (object name) (object new)
  | array {component other : FieldType} (dimension : UInt8) : SameShape component other →
      SameShape (array component dimension) (array other dimension)

variable {f : ClassName → ClassName} {t : FieldType}

theorem isArray_mapClasses (h : t.isArray = false) : (t.mapClasses f).isArray = false := by
  cases t with
  | base => rfl
  | object => rfl
  | array => cases h

/-- In a well-formed array there is nothing to be merged, so the dimension stays. -/
theorem WellFormed.mapClasses_array {component : FieldType} {dimension : UInt8}
    (h : (array component dimension).WellFormed) :
    (array component dimension).mapClasses f = array (component.mapClasses f) dimension := by
  obtain ⟨hdim, hcomponent, _⟩ := h
  show arrayOf (component.mapClasses f) dimension = _
  rw [arrayOf_of_not_isArray (isArray_mapClasses hcomponent),
    wrapped_of_pos _ (Nat.pos_of_ne_zero (mt toNat_eq_zero_iff.1 hdim)), UInt8.ofNat_toNat]

theorem WellFormed.sameShape_mapClasses (h : t.WellFormed) (f : ClassName → ClassName) :
    t.SameShape (t.mapClasses f) := by
  induction t with
  | base type => exact .base type
  | object name => exact .object name (f name)
  | array component dimension ih =>
    rw [h.mapClasses_array]
    exact .array dimension (ih h.2.2)

theorem WellFormed.mapClasses (h : t.WellFormed)
    (hf : ∀ name ∈ t.classNames, (f name).Spellable) : (t.mapClasses f).WellFormed := by
  induction t with
  | base => trivial
  | object name => exact hf name (List.mem_singleton_self name)
  | array component dimension ih =>
    rw [h.mapClasses_array]
    exact ⟨h.1, isArray_mapClasses h.2.1, ih h.2.2 hf⟩

theorem Spellable.of_mem_classNames (h : t.Spellable) {name : ClassName}
    (hname : name ∈ t.classNames) : name.Spellable := by
  induction t with
  | base => cases hname
  | object own =>
    cases List.mem_singleton.1 hname
    exact h
  | array component dimension ih => exact ih h hname

/-- The spelling changes between `L` and semicolon only. -/
theorem WellFormed.namesReplaced_spelling (h : t.WellFormed)
    (hf : ∀ name ∈ t.classNames, (f name).Spellable) :
    NamesReplaced f t.spelling (t.mapClasses f).spelling := by
  induction t with
  | base type => exact .of_not_mem (by cases type <;> decide)
  | object name =>
    have hnew : (f name).Spellable := hf name (List.mem_singleton_self name)
    exact .name h.2 hnew.2 .nil
  | array component dimension ih =>
    -- the brackets stay as many as they are, and none of them begins a name
    have hbrackets : 'L' ∉ List.replicate dimension.toNat '[' := by
      intro hmem
      have hbracket : 'L' = '[' := List.eq_of_mem_replicate hmem
      cases hbracket
    rw [h.mapClasses_array]
    show NamesReplaced f (List.replicate dimension.toNat '[' ++ component.spelling)
      (List.replicate dimension.toNat '[' ++ (component.mapClasses f).spelling)
    exact (NamesReplaced.of_not_mem hbrackets).append (ih h.2.2 hf)

end FieldType

/-! ## Return types -/

namespace ReturnType

/-- Both are void, or types of the same shape. -/
inductive SameShape : ReturnType → ReturnType → Prop
  | void : SameShape void void
  | value {type other : FieldType} : type.SameShape other → SameShape (value type) (value other)

variable {f : ClassName → ClassName} {t : ReturnType}

theorem WellFormed.sameShape_mapClasses (h : t.WellFormed) (f : ClassName → ClassName) :
    t.SameShape (t.mapClasses f) := by
  cases t with
  | void => exact .void
  | value type => exact .value (FieldType.WellFormed.sameShape_mapClasses h f)

theorem WellFormed.mapClasses (h : t.WellFormed)
    (hf : ∀ name ∈ t.classNames, (f name).Spellable) : (t.mapClasses f).WellFormed := by
  cases t with
  | void => trivial
  | value type => exact FieldType.WellFormed.mapClasses h hf

theorem WellFormed.of_mem_classNames (h : t.WellFormed) {name : ClassName}
    (hname : name ∈ t.classNames) : name.Spellable := by
  cases t with
  | void => cases hname
  | value type => exact (FieldType.WellFormed.spellable h).of_mem_classNames hname

theorem WellFormed.namesReplaced_spelling (h : t.WellFormed)
    (hf : ∀ name ∈ t.classNames, (f name).Spellable) :
    NamesReplaced f t.spelling (t.mapClasses f).spelling := by
  cases t with
  | void => exact .of_not_mem (by decide)
  | value type => exact FieldType.WellFormed.namesReplaced_spelling h hf

end ReturnType

/-! ## Descriptors of methods -/

namespace MethodDescriptor

/-- There are as many parameters, each one has the shape of the other one in its place,
and so have the return types. -/
structure SameShape (d other : MethodDescriptor) : Prop where
  params : List.Forall₂ FieldType.SameShape d.params other.params
  returns : d.returns.SameShape other.returns

variable {f : ClassName → ClassName} {d : MethodDescriptor}

theorem classNames_of_param {p : FieldType} (hp : p ∈ d.params) {name : ClassName}
    (hname : name ∈ p.classNames) : name ∈ d.classNames :=
  List.mem_append_left _ (List.mem_flatMap.2 ⟨p, hp, hname⟩)

theorem classNames_of_returns {name : ClassName} (hname : name ∈ d.returns.classNames) :
    name ∈ d.classNames :=
  List.mem_append_right _ hname

theorem WellFormed.of_mem_classNames (h : d.WellFormed) {name : ClassName}
    (hname : name ∈ d.classNames) : name.Spellable := by
  rcases List.mem_append.1 hname with hname | hname
  · obtain ⟨p, hp, hname⟩ := List.mem_flatMap.1 hname
    exact (h.1 p hp).spellable.of_mem_classNames hname
  · exact ReturnType.WellFormed.of_mem_classNames h.2 hname

theorem WellFormed.sameShape_mapClasses (h : d.WellFormed) (f : ClassName → ClassName) :
    d.SameShape (d.mapClasses f) := by
  constructor
  · show List.Forall₂ _ d.params (d.params.map _)
    rw [List.forall₂_map_right_iff, List.forall₂_same]
    exact fun p hp => (h.1 p hp).sameShape_mapClasses f
  · exact ReturnType.WellFormed.sameShape_mapClasses h.2 f

theorem WellFormed.mapClasses (h : d.WellFormed)
    (hf : ∀ name ∈ d.classNames, (f name).Spellable) : (d.mapClasses f).WellFormed := by
  constructor
  · intro p' hp'
    obtain ⟨p, hp, rfl⟩ := List.mem_map.1 hp'
    exact (h.1 p hp).mapClasses fun name hname => hf name (classNames_of_param hp hname)
  · exact ReturnType.WellFormed.mapClasses h.2 fun name hname =>
      hf name (classNames_of_returns hname)

/-- Types in a row change between `L` and semicolon only. -/
theorem namesReplaced_flatMap_spelling {types : List FieldType} (h : ∀ t ∈ types, t.WellFormed)
    (hf : ∀ t ∈ types, ∀ name ∈ t.classNames, (f name).Spellable) :
    NamesReplaced f (types.flatMap FieldType.spelling)
      ((types.map (·.mapClasses f)).flatMap FieldType.spelling) := by
  induction types with
  | nil => exact .nil
  | cons t types ih =>
    rw [List.forall_mem_cons] at h hf
    rw [List.map_cons, List.flatMap_cons, List.flatMap_cons]
    exact (h.1.namesReplaced_spelling hf.1).append (ih h.2 hf.2)

theorem WellFormed.namesReplaced_spelling (h : d.WellFormed)
    (hf : ∀ name ∈ d.classNames, (f name).Spellable) :
    NamesReplaced f d.spelling (d.mapClasses f).spelling := by
  have hparams := namesReplaced_flatMap_spelling h.1 fun p hp name hname =>
    hf name (classNames_of_param hp hname)
  have hreturns := ReturnType.WellFormed.namesReplaced_spelling h.2 fun name hname =>
    hf name (classNames_of_returns hname)
  exact .same (by decide) (hparams.append (.same (by decide) hreturns))

end MethodDescriptor

end SymbolMap
