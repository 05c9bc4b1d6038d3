import SymbolMap.Proofs.Descriptor.Substitution
import SymbolMap.Proofs.MappingSet.Respelling

/-!
# Merged arrays

A merged type is its innermost type inside of one array
(`FieldType.Merged.eq_wrapped`), so it is told by that type and one number up to 255.
On these numbers `FieldType.arrayOf` is addition that stops at 255
(`FieldType.Merged.arrayOf_eq`), and all that there is to know of it comes from there.

Respelling rebuilds the arrays of a type from the inside out, whatever levels it was
given with, and leaves it merged (`arrays_merge_by_sum`).
-/

namespace SymbolMap

namespace FieldType

variable {t : FieldType}

/-! ## One array over a type -/

section Wrapped

variable {n : Nat}

theorem dimension_of_not_isArray (h : t.isArray = false) : t.dimension = 0 := by
  cases t with
  | base => rfl
  | object => rfl
  | array => cases h

theorem dimension_wrapped (h : t.isArray = false) (hn : n ≤ 255) :
    (t.wrapped n).dimension.toNat = n := by
  unfold wrapped
  split
  · rename_i hzero
    rw [hzero, dimension_of_not_isArray h]
    rfl
  · exact toNat_ofNat_of_le hn

theorem mentionsClass_wrapped (t : FieldType) (n : Nat) :
    (t.wrapped n).mentionsClass = t.mentionsClass := by
  unfold wrapped
  split
  · rfl
  · rfl

theorem mentionsClass_innermost (t : FieldType) : t.innermost.mentionsClass = t.mentionsClass := by
  induction t with
  | base => rfl
  | object => rfl
  | array component dimension ih => exact ih

end Wrapped

/-! ## Dimensions of merged types -/

theorem Merged.dimension_eq (h : t.Merged) : t.dimension.toNat = min t.depth 255 := by
  have hflat : t.flat.dimension.toNat = min t.depth 255 :=
    dimension_wrapped t.isArray_innermost (Nat.min_le_right _ _)
  rwa [h.flat_eq] at hflat

/-- A merged type is told by its innermost type and its dimension. -/
theorem Merged.eq_wrapped (h : t.Merged) : t = t.innermost.wrapped t.dimension.toNat := by
  rw [h.dimension_eq]
  exact h.flat_eq.symm

/-- An array over a merged type adds to the dimension, up to 255. -/
theorem Merged.arrayOf_eq (h : t.Merged) (a : UInt8) :
    arrayOf t a = t.innermost.wrapped (min (t.dimension.toNat + a.toNat) 255) := by
  have hle : t.dimension.toNat ≤ 255 := Nat.le_of_lt_succ t.dimension.toNat_lt
  conv_lhs => rw [h.eq_wrapped]
  exact arrayOf_wrapped t.isArray_innermost hle a

/-- What arrays over a type are, by their dimensions. No dimension is no array, and two
arrays are one of both dimensions together, of which there are 255 at most. The array
has the dimensions of the type and its own and, like the type, one level of them; what
is in it stays as it is. -/
structure MergesBySum (t : FieldType) : Prop where
  zero : arrayOf t 0 = t
  twice : ∀ a b, arrayOf (arrayOf t a) b = arrayOf t (UInt8.ofNat (min (a.toNat + b.toNat) 255))
  merged : ∀ a, (arrayOf t a).Merged
  dimension : ∀ a, (arrayOf t a).dimension.toNat = min (t.dimension.toNat + a.toNat) 255
  innermost : ∀ a, (arrayOf t a).innermost = t.innermost
  mentionsClass : ∀ a, (arrayOf t a).mentionsClass = t.mentionsClass

theorem Merged.arrayOf_arrayOf (h : t.Merged) (a b : UInt8) :
    arrayOf (arrayOf t a) b = arrayOf t (UInt8.ofNat (min (a.toNat + b.toNat) 255)) := by
  have hsum : min (min (t.dimension.toNat + a.toNat) 255 + b.toNat) 255 =
      min (t.dimension.toNat + min (a.toNat + b.toNat) 255) 255 := by
    omega
  rw [h.arrayOf_eq a, h.arrayOf_eq, arrayOf_wrapped t.isArray_innermost (Nat.min_le_right _ _),
    toNat_ofNat_of_le (Nat.min_le_right _ _), hsum]

theorem Merged.mergesBySum (h : t.Merged) : t.MergesBySum := by
  have hinner := t.isArray_innermost
  have hle : ∀ a : UInt8, min (t.dimension.toNat + a.toNat) 255 ≤ 255 := fun _ =>
    Nat.min_le_right _ _
  constructor
  · exact if_pos rfl
  · exact h.arrayOf_arrayOf
  · intro a
    rw [h.arrayOf_eq]
    exact merged_wrapped hinner (hle a)
  · intro a
    rw [h.arrayOf_eq]
    exact dimension_wrapped hinner (hle a)
  · intro a
    rw [h.arrayOf_eq]
    exact innermost_wrapped hinner _
  · intro a
    rw [h.arrayOf_eq, mentionsClass_wrapped, mentionsClass_innermost]

/-! ## Other class names -/

/-- Replacing the class name leaves one array at most, of all dimensions together. -/
theorem exists_mapClasses_eq_wrapped (f : ClassName → ClassName) (t : FieldType) :
    ∃ core : FieldType, core.isArray = false ∧ t.mapClasses f = core.wrapped (min t.depth 255) := by
  obtain ⟨core, hcore, hsame⟩ := exists_substitute_eq_wrapped f t
  exact ⟨core, hcore, (mapClasses_eq_substitute f t).trans (hsame t rfl)⟩

end FieldType

/-- The value is respelled, and what comes out is merged, with all dimensions of the
value in one. -/
def MappingSet.RespellsMerged (s : MappingSet) (source target : Namespace) (t : FieldType) :
    Prop :=
  ∃ u : FieldType, s.respell source target t = .ok u ∧ u.Merged ∧
    u.dimension.toNat = min t.depth 255

theorem MappingSet.respellsMerged {s : MappingSet} {source target : Namespace} {a b : Nat}
    (hsource : s.indexOf source = .ok a) (htarget : s.indexOf target = .ok b) (hne : a ≠ b)
    {t : FieldType} (hclass : t.mentionsClass = true) : s.RespellsMerged source target t := by
  have hrespell : s.respell source target t = .ok (t.mapClasses (s.respellName a b)) := by
    have hnames := FieldType.mentionsClass_iff.1 hclass
    rw [respell_of_names hnames, hsource, htarget, FieldType.mapClasses_eq_substitute]
    exact congrArg Except.ok (respellAt_of_names hnames hne)
  obtain ⟨core, hcore, hmap⟩ := FieldType.exists_mapClasses_eq_wrapped (s.respellName a b) t
  have hle : min t.depth 255 ≤ 255 := Nat.min_le_right _ _
  refine ⟨_, hrespell, ?_, ?_⟩
  · rw [hmap]
    exact FieldType.merged_wrapped hcore hle
  · rw [hmap]
    exact FieldType.dimension_wrapped hcore hle

/-- **Arrays merge by the sum of their dimensions.** On merged types, arrays over arrays
are sums of dimensions that stop at 255. A type that mentions a class, with any levels of
arrays, is respelled between two different namespaces as a merged type, whose dimension
is the sum of all that were given, up to 255. -/
theorem arrays_merge_by_sum :
    (∀ t : FieldType, t.Merged → t.MergesBySum) ∧
      ∀ (s : MappingSet) (source target : Namespace) (a b : Nat) (t : FieldType),
        s.indexOf source = .ok a → s.indexOf target = .ok b → a ≠ b → t.mentionsClass = true →
          s.RespellsMerged source target t :=
  ⟨fun _ h => h.mergesBySum, fun _ _ _ _ _ _ hsource htarget hne hclass =>
    MappingSet.respellsMerged hsource htarget hne hclass⟩

/-- Sums stop at 255 from two sides. A level without a dimension inside of a type is
gone after respelling, and 300 dimensions are 255. -/
theorem arrays_merge_by_sum_nested :
    let t : FieldType := .array (.object ⟨"x/A"⟩) 200
    let raw : FieldType := .array (.array (.array t 0) 100) 0
    let full := Class.bare ⟨⟨3⟩, 0⟩ ⟨[some "x/A", some "y/B"]⟩ .unknown none
    let s : MappingSet := ⟨⟨3⟩, ["a", "b"], .empty 2, (Table.empty 2).push full⟩
    t.Merged ∧ ¬ raw.Merged ∧
      FieldType.arrayOf (FieldType.arrayOf t 40) 40 = .array (.object ⟨"x/A"⟩) 255 ∧
      FieldType.arrayOf (FieldType.arrayOf t 40) 40 = FieldType.arrayOf t 80 ∧
      s.indexOf ⟨"a", 0, ⟨3⟩⟩ = .ok 0 ∧ s.indexOf ⟨"b", 1, ⟨3⟩⟩ = .ok 1 ∧
      s.respell ⟨"a", 0, ⟨3⟩⟩ ⟨"b", 1, ⟨3⟩⟩ raw = .ok (.array (.object ⟨"y/B"⟩) 255) ∧
      s.RespellsMerged ⟨"a", 0, ⟨3⟩⟩ ⟨"b", 1, ⟨3⟩⟩ raw := by
  intro t raw full s
  obtain ⟨hmerge, hrespell⟩ := arrays_merge_by_sum
  have ht : t.Merged := ⟨by decide, rfl, trivial⟩
  have hraw : ¬ raw.Merged := fun h => h.1 rfl
  have hvalue : s.respell ⟨"a", 0, ⟨3⟩⟩ ⟨"b", 1, ⟨3⟩⟩ raw = .ok (.array (.object ⟨"y/B"⟩) 255) := by
    decide +kernel
  exact ⟨ht, hraw, by decide, (hmerge t ht).twice 40 40, rfl, rfl, hvalue,
    hrespell s _ _ 0 1 raw rfl rfl (by decide) rfl⟩

end SymbolMap
