import SymbolMap.Descriptor.Basic

/-!
# Flat types

An array of arrays is spelled like one array of the summed dimension. The flat
form of a type (`FieldType.flat`) is the type that has at most one level: its
innermost type inside of an array of all dimensions together, of which there are
at most 255, or bare if there are none.

A type is merged if it has one level of arrays at most, and that level has a
dimension; then it is its own flat form (`FieldType.Merged.flat_eq`). It is
well-formed if besides all names in it can be spelled
(`FieldType.wellFormed_iff_merged`).
-/

namespace SymbolMap

/-- A name that a descriptor can spell: it is not empty, and does not contain the
character that closes it. -/
def ClassName.Spellable (name : ClassName) : Prop :=
  name.text ≠ "" ∧ ';' ∉ name.text.toList

namespace FieldType

/-- Whether the type is an array. -/
def isArray : FieldType → Bool
  | array _ _ => true
  | _ => false

/-- The type inside of all arrays. -/
def innermost : FieldType → FieldType
  | array component _ => component.innermost
  | other => other

/-- The dimensions of all arrays together. -/
def depth : FieldType → Nat
  | array component dimension => component.depth + dimension.toNat
  | _ => 0

/-- One array over a type, or the type itself for the dimension zero. -/
def wrapped (t : FieldType) (dimension : Nat) : FieldType :=
  if dimension = 0 then t else array t (UInt8.ofNat dimension)

/-- The dimensions of all arrays together are those of one array at most. -/
def Fits (t : FieldType) : Prop := t.depth ≤ 255

instance (t : FieldType) : Decidable t.Fits := inferInstanceAs (Decidable (t.depth ≤ 255))

/-- The type with all its arrays merged. A dimension stops at 255. -/
def flat (t : FieldType) : FieldType := t.innermost.wrapped (min t.depth 255)

/-- All class names in the type can be spelled. -/
def Spellable : FieldType → Prop
  | base _ => True
  | object name => name.Spellable
  | array component _ => component.Spellable

/-- All class names in the type can be spelled, and each array has a dimension and
is not over another array. -/
def WellFormed : FieldType → Prop
  | base _ => True
  | object name => name.Spellable
  | array component dimension =>
    dimension ≠ 0 ∧ component.isArray = false ∧ component.WellFormed

/-- Each array in the type has a dimension, and is not over another array. -/
def Merged : FieldType → Prop
  | base _ => True
  | object _ => True
  | array component dimension => dimension ≠ 0 ∧ component.isArray = false ∧ component.Merged

/-! ## The innermost type -/

@[simp] theorem isArray_innermost (t : FieldType) : t.innermost.isArray = false := by
  induction t with
  | base => rfl
  | object => rfl
  | array component dimension ih => exact ih

theorem innermost_of_not_isArray {t : FieldType} (h : t.isArray = false) : t.innermost = t := by
  cases t with
  | base => rfl
  | object => rfl
  | array => cases h

theorem depth_of_not_isArray {t : FieldType} (h : t.isArray = false) : t.depth = 0 := by
  cases t with
  | base => rfl
  | object => rfl
  | array => cases h

theorem spellable_innermost {t : FieldType} : t.innermost.Spellable ↔ t.Spellable := by
  induction t with
  | base => exact Iff.rfl
  | object => exact Iff.rfl
  | array component dimension ih => exact ih

/-! ## One array over a type -/

section Wrapped

variable {t : FieldType} {n : Nat}

theorem wrapped_zero (t : FieldType) : t.wrapped 0 = t := rfl

theorem wrapped_of_pos (t : FieldType) (h : 0 < n) : t.wrapped n = array t (UInt8.ofNat n) :=
  if_neg (Nat.ne_of_gt h)

theorem spellable_wrapped (t : FieldType) (n : Nat) : (t.wrapped n).Spellable ↔ t.Spellable := by
  unfold wrapped
  split
  · exact Iff.rfl
  · exact Iff.rfl

theorem innermost_wrapped (h : t.isArray = false) (n : Nat) : (t.wrapped n).innermost = t := by
  unfold wrapped
  split
  · exact innermost_of_not_isArray h
  · exact innermost_of_not_isArray h

theorem toNat_ofNat_of_le (h : n ≤ 255) : (UInt8.ofNat n).toNat = n := by
  rw [UInt8.toNat_ofNat']
  exact Nat.mod_eq_of_lt (Nat.lt_succ_of_le h)

theorem depth_wrapped (h : t.isArray = false) (hn : n ≤ 255) : (t.wrapped n).depth = n := by
  unfold wrapped
  split
  · rename_i hzero
    rw [hzero]
    exact depth_of_not_isArray h
  · show t.depth + (UInt8.ofNat n).toNat = n
    rw [depth_of_not_isArray h, Nat.zero_add, toNat_ofNat_of_le hn]

theorem toNat_eq_zero_iff {d : UInt8} : d.toNat = 0 ↔ d = 0 :=
  ⟨fun h => UInt8.toNat_inj.1 h, fun h => h ▸ rfl⟩

/-- Merging is wrapping where there is nothing to be merged. -/
theorem arrayOf_of_not_isArray (h : t.isArray = false) (d : UInt8) :
    arrayOf t d = t.wrapped d.toNat := by
  unfold arrayOf wrapped
  by_cases hd : d = 0
  · rw [if_pos hd, if_pos (toNat_eq_zero_iff.2 hd)]
  · rw [if_neg hd, if_neg (mt toNat_eq_zero_iff.1 hd), UInt8.ofNat_toNat]
    cases t with
    | base => rfl
    | object => rfl
    | array => cases h

/-- Merging a further array adds its dimension, up to 255. -/
theorem arrayOf_wrapped (h : t.isArray = false) (hn : n ≤ 255) (d : UInt8) :
    arrayOf (t.wrapped n) d = t.wrapped (min (n + d.toNat) 255) := by
  by_cases hzero : n = 0
  · have hd : min (0 + d.toNat) 255 = d.toNat := by
      have := d.toNat_lt
      omega
    rw [hzero, wrapped_zero, hd]
    exact arrayOf_of_not_isArray h d
  · -- there is an array already, so the dimensions are added
    rw [wrapped_of_pos t (Nat.pos_of_ne_zero hzero), wrapped_of_pos t (by omega)]
    unfold arrayOf
    by_cases hd : d = 0
    · have hsame : min (n + d.toNat) 255 = n := by
        rw [toNat_eq_zero_iff.2 hd]
        omega
      rw [if_pos hd, hsame]
    · rw [if_neg hd]
      show array t (UInt8.ofNat (min ((UInt8.ofNat n).toNat + d.toNat) 255)) = _
      rw [toNat_ofNat_of_le hn]

end Wrapped

/-! ## The flat form -/

/-- Flattening an array merges it with the flat form of what is in it. -/
theorem flat_array (component : FieldType) (d : UInt8) :
    (array component d).flat = arrayOf component.flat d := by
  have hmin : min (min component.depth 255 + d.toNat) 255 =
      min (component.depth + d.toNat) 255 := by
    omega
  show component.innermost.wrapped (min (component.depth + d.toNat) 255) = _
  unfold flat
  rw [arrayOf_wrapped component.isArray_innermost (Nat.min_le_right _ _), hmin]

theorem flat_of_not_isArray {t : FieldType} (h : t.isArray = false) : t.flat = t := by
  unfold flat
  rw [depth_of_not_isArray h, innermost_of_not_isArray h]
  rfl

/-! ## Well-formed types -/

theorem merged_of_not_isArray {t : FieldType} (h : t.isArray = false) : t.Merged := by
  cases t with
  | base => trivial
  | object => trivial
  | array => cases h

theorem merged_wrapped {t : FieldType} (h : t.isArray = false) {n : Nat} (hn : n ≤ 255) :
    (t.wrapped n).Merged := by
  have ht := merged_of_not_isArray h
  unfold wrapped
  split
  · exact ht
  · rename_i hpos
    refine ⟨fun hzero => hpos ?_, h, ht⟩
    rw [← toNat_ofNat_of_le hn, hzero]
    rfl

/-- Well-formed types are the merged ones whose names can be spelled. -/
theorem wellFormed_iff_merged {t : FieldType} : t.WellFormed ↔ t.Spellable ∧ t.Merged := by
  induction t with
  | base => exact (and_iff_left trivial).symm
  | object => exact (and_iff_left trivial).symm
  | array component dimension ih =>
    show dimension ≠ 0 ∧ component.isArray = false ∧ component.WellFormed ↔
      component.Spellable ∧ dimension ≠ 0 ∧ component.isArray = false ∧ component.Merged
    rw [ih]
    constructor
    · rintro ⟨hdim, harray, hspell, hmerged⟩
      exact ⟨hspell, hdim, harray, hmerged⟩
    · rintro ⟨hspell, hdim, harray, hmerged⟩
      exact ⟨hdim, harray, hspell, hmerged⟩

theorem wellFormed_wrapped {t : FieldType} (h : t.isArray = false) (hs : t.Spellable) {n : Nat}
    (hn : n ≤ 255) : (t.wrapped n).WellFormed :=
  wellFormed_iff_merged.2 ⟨(spellable_wrapped t n).2 hs, merged_wrapped h hn⟩

theorem wellFormed_flat {t : FieldType} (h : t.Spellable) : t.flat.WellFormed :=
  wellFormed_wrapped t.isArray_innermost (spellable_innermost.2 h) (Nat.min_le_right _ _)

theorem WellFormed.spellable {t : FieldType} (h : t.WellFormed) : t.Spellable :=
  (wellFormed_iff_merged.1 h).1

/-- The arrays of a merged type are one level at most. -/
theorem Merged.flat_eq {t : FieldType} (h : t.Merged) : t.flat = t := by
  cases t with
  | base => rfl
  | object => rfl
  | array component dimension =>
    obtain ⟨hdim, harray, _⟩ := h
    rw [flat_array, flat_of_not_isArray harray, arrayOf_of_not_isArray harray,
      wrapped_of_pos _ (Nat.pos_of_ne_zero (mt toNat_eq_zero_iff.1 hdim)), UInt8.ofNat_toNat]

theorem WellFormed.flat_eq {t : FieldType} (h : t.WellFormed) : t.flat = t :=
  (wellFormed_iff_merged.1 h).2.flat_eq

theorem WellFormed.fits {t : FieldType} (h : t.WellFormed) : t.Fits := by
  show t.depth ≤ 255
  rw [← h.flat_eq]
  unfold flat
  rw [depth_wrapped t.isArray_innermost (Nat.min_le_right _ _)]
  exact Nat.min_le_right _ _

end FieldType

/-! ## Return types and descriptors of methods -/

namespace ReturnType

def Spellable : ReturnType → Prop
  | void => True
  | value type => type.Spellable

def Fits : ReturnType → Prop
  | void => True
  | value type => type.Fits

def flat : ReturnType → ReturnType
  | void => void
  | value type => value type.flat

def WellFormed : ReturnType → Prop
  | void => True
  | value type => type.WellFormed

end ReturnType

namespace MethodDescriptor

def Spellable (d : MethodDescriptor) : Prop :=
  (∀ p ∈ d.params, p.Spellable) ∧ d.returns.Spellable

def Fits (d : MethodDescriptor) : Prop := (∀ p ∈ d.params, p.Fits) ∧ d.returns.Fits

def flat (d : MethodDescriptor) : MethodDescriptor :=
  ⟨d.params.map FieldType.flat, d.returns.flat⟩

def WellFormed (d : MethodDescriptor) : Prop :=
  (∀ p ∈ d.params, p.WellFormed) ∧ d.returns.WellFormed

end MethodDescriptor

end SymbolMap
