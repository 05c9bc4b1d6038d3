import SymbolMap.Draft.Heading

/-!
# Giving names

What `Draft.assign` does to a heading. A name goes into a slot of the row or
nowhere, so a change of names never changes the number of slots
(`Heading.Aligned`).
-/

namespace SymbolMap

theorem NameRow.slot?_eq_none_iff {n : NameRow} {ns : Nat} :
    n.slot? ns = none ↔ n.size ≤ ns :=
  List.getElem?_eq_none_iff

/-- Names are in slots that exist. -/
theorem NameRow.lt_size_of_get? {n : NameRow} {ns : Nat} {name : String}
    (h : n.get? ns = some name) : ns < n.size := by
  refine Nat.lt_of_not_le fun hout => ?_
  unfold get? at h
  rw [slot?_eq_none_iff.2 hout] at h
  cases h

/-- The heading is one of the given namespaces and has a slot for each. -/
structure Heading.Aligned (namespaces : List String) (h : Heading) : Prop where
  spaces : h.namespaces = namespaces
  size : h.names.size = namespaces.length

theorem Heading.aligned_blank (namespaces : List String) (coords : Coords) :
    (Heading.blank namespaces coords).Aligned namespaces :=
  ⟨rfl, NameRow.size_vacant _⟩

/-- A blank heading made for the namespaces of an aligned one. -/
theorem Heading.Aligned.blank {namespaces : List String} {h : Heading}
    (ha : h.Aligned namespaces) (coords : Coords) :
    (Heading.blank h.namespaces coords).Aligned namespaces := by
  rw [ha.spaces]
  exact Heading.aligned_blank _ _

/-- A change that is not refused is the same when it is tried. -/
theorem Draft.attempt_of_ok {δ : Type} {change : δ → Except MappingError δ} {d e : δ}
    (h : change d = .ok e) : attempt change d = (.ok (), e) := by
  unfold attempt
  rw [h]

namespace Draft

variable {δ : Type} [Draft δ] {d e : δ} {namespaces : List String}

/-- The draft with a name put into a slot. -/
def put (d : δ) (ns : Nat) (name : String) : δ :=
  withHeading d { heading d with names := (heading d).names.set ns (some name) }

theorem heading_put (d : δ) (ns : Nat) (name : String) :
    heading (put d ns name) =
      { heading d with names := (heading d).names.set ns (some name) } :=
  heading_withHeading _ _

/-- A name that is put into a slot that exists is there. -/
theorem name?_put_self {ns : Nat} (h : ns < (heading d).names.size) (name : String) :
    name? (put d ns name) ns = some name := by
  have hslot : ((heading d).names.slots.set ns (some name))[ns]? = some (some name) :=
    List.getElem?_set_self h
  simp [name?, heading_put, NameRow.get?, NameRow.slot?, NameRow.set, hslot]

/-- A name that is put into a slot leaves the other slots as they are. -/
theorem name?_put_of_ne {ns other : Nat} (h : ns ≠ other) (name : String) :
    name? (put d ns name) other = name? d other := by
  have hslot : ((heading d).names.slots.set ns (some name))[other]? =
      (heading d).names.slots[other]? := List.getElem?_set_ne h
  simp [name?, heading_put, NameRow.get?, NameRow.slot?, NameRow.set, hslot]

/-- In a slot that exists, a name that may overwrite is put there. -/
theorem assign_eq_put {ns : Nat} {name : String} (h : ns < (heading d).names.size) :
    assign d ns name true = .ok (put d ns name) := by
  unfold assign
  cases hslot : (heading d).names.slot? ns with
  | none => exact absurd (NameRow.slot?_eq_none_iff.1 hslot) (Nat.not_le_of_lt h)
  | some slot => rfl

/-- In a slot that exists, no name is refused. -/
theorem exists_assign {ns : Nat} (h : ns < (heading d).names.size) (name : String)
    (overwrite : Bool) : ∃ e, assign d ns name overwrite = .ok e := by
  unfold assign
  split
  · rename_i hslot
    exact absurd (NameRow.slot?_eq_none_iff.1 hslot) (Nat.not_le_of_lt h)
  · split
    · exact ⟨_, rfl⟩
    · exact ⟨_, rfl⟩

/-- What a name that is not refused leaves: the draft as it was, or the draft
with the name in its slot. -/
theorem assign_cases {ns : Nat} {name : String} {overwrite : Bool}
    (h : assign d ns name overwrite = .ok e) : e = d ∨ e = put d ns name := by
  unfold assign at h
  split at h
  · cases h
  · split at h
    · exact .inr (Except.ok.inj h).symm
    · exact .inl (Except.ok.inj h).symm

theorem aligned_put {ns : Nat} {name : String} (h : (heading d).Aligned namespaces) :
    (heading (put d ns name)).Aligned namespaces := by
  rw [heading_put]
  exact ⟨h.spaces, by rw [NameRow.size_set]; exact h.size⟩

end Draft

end SymbolMap
