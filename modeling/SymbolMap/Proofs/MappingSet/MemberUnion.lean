import SymbolMap.Proofs.MappingSet.MemberLookup
import SymbolMap.Proofs.MappingSet.NameQueries

/-!
# Members in all namespaces

A reference is spelled in some namespace. Where it is not known in which one, the members that it
means are looked for in all of them. That is a walk of its own: without a signature any name slot
may hold the name, and with one the signature is first read in each namespace, and then all of
these readings are tried on each member.

It finds what the look-ups in the single namespaces find together (`MappingSet.Unites`), because a
member has a name slot for each namespace and none besides (`MappingSet.members_eq_filter`).
-/

namespace SymbolMap

/-! ## Walks over indices -/

/-- A list of readings, one for each index, is tried like the indices themselves. -/
theorem any_zipIdx_map_range {β : Type} (reading : Nat → β) (fits : β × Nat → Bool) (n : Nat) :
    ((List.range n).map reading).zipIdx.any fits =
      (List.range n).any fun i => fits (reading i, i) := by
  have hpairs : ((List.range n).map reading).zipIdx =
      (List.range n).map fun i => (reading i, i) := by
    apply List.ext_getElem <;> simp
  rw [hpairs, List.any_map]
  rfl

/-- The first result over the indices is that of the least one that has any. -/
theorem findSome?_range_eq_some_iff {β : Type} {f : Nat → Option β} {n : Nat} {b : β} :
    (List.range n).findSome? f = some b ↔ ∃ i < n, f i = some b ∧ ∀ j < i, f j = none := by
  induction n with
  | zero => simp
  | succ n ih =>
    rw [List.range_succ, List.findSome?_append, Option.or_eq_some_iff, ih]
    have hnone : (List.range n).findSome? f = none ↔ ∀ j < n, f j = none := by
      simp [List.findSome?_eq_none_iff]
    have hlast : [n].findSome? f = f n := by
      rw [List.findSome?_singleton]
    rw [hnone, hlast]
    -- the last index counts if there is no result in front of it
    constructor
    · rintro (⟨i, hi, hfirst⟩ | ⟨hbefore, hb⟩)
      · exact ⟨i, Nat.lt_succ_of_lt hi, hfirst⟩
      · exact ⟨n, Nat.lt_succ_self n, hb, hbefore⟩
    · rintro ⟨i, hi, hb, hbefore⟩
      rcases Nat.lt_succ_iff_lt_or_eq.1 hi with hlt | rfl
      · exact .inl ⟨i, hlt, hb, hbefore⟩
      · exact .inr ⟨hbefore, hb⟩

namespace MappingSet

section Members

variable {α σ : Type} {kind : SymbolKind} [IsMember α kind σ] [MentionsClasses σ] [DecidableEq σ]

/-- What a reference means that is spelled in a namespace: a member that has the name there, and,
where the reference has a signature, the one that this is in the first namespace. -/
def Means (s : MappingSet) (ns : Namespace) (ref : MemberRef kind σ) (x : α) : Prop :=
  (IsElement.element x).name? ns.index = some ref.name.text ∧
    ∀ signature, ref.signature = some signature →
      ∃ kept, s.respellToHome ns signature = .ok kept ∧ IsMember.signature? x = some kept

/-- The member is the first one that is found in a namespace, and in none of those before it any
is found. -/
def FoundFirst (s : MappingSet) (pool : List α) (ref : MemberRef kind σ) (e : Entry α) : Prop :=
  ∃ (i : Nat) (ns : Namespace) (found : List (Entry α)), s.namespaces[i]? = some ns ∧
    s.membersIn pool ns ref = .ok found ∧ found.head? = some e ∧
    ∀ j < i, ∀ other, s.namespaces[j]? = some other → s.membersIn pool other ref = .ok []

/-- What is found of a reference in all namespaces, by what is found in each of them: the members
that are found in some namespace, each one once and in the order of the class; and the first of
them, where the namespaces are tried in order. In a namespace of the set those are found that the
reference means there. -/
structure Unites (s : MappingSet) (pool : List α) (ref : MemberRef kind σ) : Prop where
  found : ∀ ns ∈ s.namespaces, ∃ found, s.membersIn pool ns ref = .ok found ∧
    ∀ e, e ∈ found ↔ e ∈ Entry.ofList pool ∧ s.Means ns ref e.item
  mem : ∀ e, e ∈ s.members pool ref ↔
    ∃ ns ∈ s.namespaces, ∃ found, s.membersIn pool ns ref = .ok found ∧ e ∈ found
  order : (s.members pool ref).Sublist (Entry.ofList pool)
  once : (s.members pool ref).Nodup
  none : s.member? pool ref = none ↔ s.members pool ref = []
  first : ∀ e, s.member? pool ref = some e ↔ s.FoundFirst pool ref e
  mem_of_first : ∀ e, s.member? pool ref = some e → e ∈ s.members pool ref

variable {s : MappingSet} {pool : List α} {ref : MemberRef kind σ} {e : Entry α}

/-- A member is meant at the index of a namespace if it is meant in the namespace. -/
theorem isMeantAt_index_iff {ns : Namespace} (hns : ns ∈ s.namespaces) {x : α} :
    s.isMeantAt ns.index ref x = true ↔ s.Means ns ref x := by
  have hindex := indexOf_of_mem hns
  have hwidth : homeIndex < s.width := Nat.lt_of_le_of_lt (Nat.zero_le _) (indexOf_lt hindex)
  have hkept : ∀ signature : σ, s.respellToHome ns signature =
      .ok (s.respellAt ns.index homeIndex signature) :=
    fun signature => respell_eq_respellAt hindex (indexOf_home hwidth) signature
  unfold isMeantAt Means
  rw [Bool.and_eq_true, beq_iff_eq]
  cases ref.signature with
  | none => simp
  | some signature => simp [hkept]

/-! ## One walk instead of two -/

/-- Without a signature, a member with one name slot for each namespace is meant in some of them if
any of its slots holds the name. -/
theorem contains_eq_any_isMeantAt {x : α} (hsize : (IsElement.element x).names.size = s.width)
    (hbare : ref.signature = none) :
    (IsElement.element x).names.contains ref.name.text =
      (List.range s.width).any fun ns => s.isMeantAt ns ref x := by
  rw [Bool.eq_iff_iff, NameRow.contains_iff, hsize, List.any_eq_true]
  have hmeant : ∀ ns, s.isMeantAt ns ref x = true ↔
      (IsElement.element x).names.get? ns = some ref.name.text := by
    intro ns
    unfold isMeantAt
    rw [hbare, Bool.and_true, beq_iff_eq]
    rfl
  simp only [List.mem_range, hmeant]

/-- With a signature, each reading of it is tried in its own namespace. -/
theorem any_spelling_eq_any_isMeantAt {signature : σ} (hsignature : ref.signature = some signature)
    (x : α) :
    (((List.range s.width).map fun ns => s.respellAt ns homeIndex signature).zipIdx.any
        fun (spelling, ns) => (IsElement.element x).name? ns == some ref.name.text &&
          IsMember.signature? x == some spelling) =
      (List.range s.width).any fun ns => s.isMeantAt ns ref x := by
  rw [any_zipIdx_map_range]
  unfold isMeantAt
  rw [hsignature]

/-- The members that a reference means are those that it means in some namespace. -/
theorem members_eq_filter (hsize : ∀ x ∈ pool, (IsElement.element x).names.size = s.width)
    (ref : MemberRef kind σ) :
    s.members pool ref = (Entry.ofList pool).filter fun e =>
      (List.range s.width).any fun ns => s.isMeantAt ns ref e.item := by
  unfold members
  split
  · rename_i hbare
    refine List.filter_congr fun e he => contains_eq_any_isMeantAt (hsize e.item ?_) hbare
    exact List.mem_of_getElem? (Entry.mem_ofList.1 he)
  · rename_i signature hsignature
    exact List.filter_congr fun e _ => any_spelling_eq_any_isMeantAt hsignature e.item

theorem mem_members_iff (hsize : ∀ x ∈ pool, (IsElement.element x).names.size = s.width) :
    e ∈ s.members pool ref ↔ ∃ i < s.width, e ∈ s.membersAt pool i ref := by
  rw [members_eq_filter hsize, List.mem_filter, List.any_eq_true]
  simp only [membersAt, List.mem_filter, List.mem_range]
  constructor
  · rintro ⟨he, i, hi, hmeant⟩
    exact ⟨i, hi, he, hmeant⟩
  · rintro ⟨i, hi, he, hmeant⟩
    exact ⟨he, i, hi, hmeant⟩

/-- There are none if there are none in any namespace. -/
theorem members_eq_nil_iff (hsize : ∀ x ∈ pool, (IsElement.element x).names.size = s.width) :
    s.members pool ref = [] ↔ ∀ i < s.width, s.membersAt pool i ref = [] := by
  simp only [List.eq_nil_iff_forall_not_mem, mem_members_iff hsize]
  constructor
  · intro hnone i hi e he
    exact hnone e ⟨i, hi, he⟩
  · rintro hnone e ⟨i, hi, he⟩
    exact hnone i hi e he

/-! ## The first member -/

theorem member?_eq_some_iff :
    s.member? pool ref = some e ↔
      ∃ i < s.width, (s.membersAt pool i ref).head? = some e ∧
        ∀ j < i, s.membersAt pool j ref = [] := by
  unfold member?
  rw [findSome?_range_eq_some_iff]
  simp only [List.head?_eq_none_iff]

theorem member?_eq_none_iff :
    s.member? pool ref = none ↔ ∀ i < s.width, s.membersAt pool i ref = [] := by
  unfold member?
  rw [List.findSome?_eq_none_iff]
  simp only [List.mem_range, List.head?_eq_none_iff]

/-- The indices that are tried are those of the namespaces. -/
theorem foundFirst_iff :
    s.FoundFirst pool ref e ↔
      ∃ i < s.width, (s.membersAt pool i ref).head? = some e ∧
        ∀ j < i, s.membersAt pool j ref = [] := by
  constructor
  · rintro ⟨i, ns, found, hns, hfound, hfirst, hbefore⟩
    have hi : i < s.width := index_of_getElem? hns ▸
      indexOf_lt (indexOf_of_mem (List.mem_of_getElem? hns))
    rw [membersIn_of_getElem? hns] at hfound
    cases hfound
    refine ⟨i, hi, hfirst, fun j hj => ?_⟩
    obtain ⟨other, hother⟩ := exists_namespace (Nat.lt_trans hj hi)
    have hnone := hbefore j hj other hother
    rw [membersIn_of_getElem? hother] at hnone
    exact Except.ok.inj hnone
  · rintro ⟨i, hi, hfirst, hbefore⟩
    obtain ⟨ns, hns⟩ := exists_namespace hi
    refine ⟨i, ns, _, hns, membersIn_of_getElem? hns _ _, hfirst, fun j hj other hother => ?_⟩
    rw [membersIn_of_getElem? hother, hbefore j hj]

/-! ## All look-ups together -/

/-- Where members have one name slot for each namespace, the look-ups go together. -/
theorem unites (hsize : ∀ x ∈ pool, (IsElement.element x).names.size = s.width)
    (ref : MemberRef kind σ) : s.Unites pool ref := by
  refine ⟨fun ns hns => ⟨_, membersIn_of_mem hns _ _, fun e => ?_⟩, fun e => ?_, ?_, ?_, ?_,
    fun e => ?_, fun e he => ?_⟩
  · rw [mem_membersAt_iff, Entry.mem_ofList, isMeantAt_index_iff hns]
  · rw [mem_members_iff hsize]
    constructor
    · rintro ⟨i, hi, he⟩
      obtain ⟨ns, hns⟩ := exists_namespace hi
      exact ⟨ns, List.mem_of_getElem? hns, _, membersIn_of_getElem? hns _ _, he⟩
    · rintro ⟨ns, hns, found, hfound, he⟩
      rw [membersIn_of_mem hns] at hfound
      cases hfound
      exact ⟨ns.index, indexOf_lt (indexOf_of_mem hns), he⟩
  · rw [members_eq_filter hsize]
    exact List.filter_sublist
  · rw [members_eq_filter hsize]
    exact Entry.nodup_of_ascending ((Entry.ascending_ofList pool).filter _)
  · rw [member?_eq_none_iff, members_eq_nil_iff hsize]
  · rw [member?_eq_some_iff, foundFirst_iff]
  · obtain ⟨i, hi, hfirst, _⟩ := member?_eq_some_iff.1 he
    exact (mem_members_iff hsize).2 ⟨i, hi, List.mem_of_head? hfirst⟩

end Members

end MappingSet

/-- **Looking up members in all namespaces unites the look-ups in each of them.** In a reachable
set, a reference finds the fields of a class that it means in a namespace: those that have the name
there and, if the reference has a type, the type that it is there. Without a namespace it finds the
fields that it finds in some namespace, each one once and in the order of the class. There is a
first one unless there are none, and it is the first one in the first namespace in which there is
any. The same is so for methods, with or without a descriptor. -/
theorem member_lookups_unite {s : MappingSet} (h : s.Reachable) {k : Nat} {c : Class}
    (hc : s.classes.get? k = some c) :
    (∀ ref : FieldRef, s.Unites c.fields ref) ∧ ∀ ref : MethodRef, s.Unites c.methods ref := by
  have hmembers := h.structured.members k c hc
  constructor
  · intro ref
    exact MappingSet.unites (fun f hf => (hmembers.fields f hf).2) ref
  · intro ref
    refine MappingSet.unites (fun m hm => ?_) ref
    obtain ⟨i, hi⟩ := List.getElem?_of_mem hm
    exact (hmembers.methods i m hi).2.names

/-- The first field has no type, and one name in two namespaces. `D` is what the second namespace
calls the class `C`, so spelled there it is the type of the second field, and spelled in the third
namespace that of the last one. `C` is the same type in all namespaces. A method takes a `C`. -/
theorem member_lookups_unite_readings :
    let row (a b c : Option String) : NameRow := ⟨[a, b, c]⟩
    let owner : ClassId := ⟨⟨7⟩, 0⟩
    let object (name : String) : FieldType := .object ⟨name⟩
    let additions : List Addition :=
      [.newClass (row (some "C") (some "D") none) .unknown none,
        .newField owner (row (some "f") (some "f") none) .unknown none .unknown,
        .newField owner (row (some "g") (some "f") (some "f")) .unknown (some (object "C"))
          .unknown,
        .newField owner (row none none (some "f")) .unknown (some (object "D")) .unknown,
        .newMethod owner (row (some "m") (some "n") none) .unknown ⟨[object "C"], .void⟩ .unknown]
    let start : MappingSet := ⟨⟨7⟩, ["a", "b", "c"], .empty 3, .empty 3⟩
    let s := additions.foldl MappingSet.attempt start
    let fields (type : Option FieldType) : Option (List Nat × Option Nat) :=
      (s.classes.get? 0).map fun c =>
        ((s.members c.fields ⟨⟨"f"⟩, type⟩).map Entry.position,
          (s.member? c.fields ⟨⟨"f"⟩, type⟩).map Entry.position)
    let methods (descriptor : MethodDescriptor) : Option (List Nat) :=
      (s.classes.get? 0).map fun c =>
        (s.members c.methods ⟨⟨"n"⟩, some descriptor⟩).map Entry.position
    s.Reachable ∧
      (∃ c, s.classes.get? 0 = some c ∧ (∀ ref : FieldRef, s.Unites c.fields ref) ∧
        ∀ ref : MethodRef, s.Unites c.methods ref) ∧
      fields none = some ([0, 1, 2], some 0) ∧ fields (some (object "C")) = some ([1], some 1) ∧
      fields (some (object "D")) = some ([1, 2], some 1) ∧
      fields (some (object "E")) = some ([], none) ∧
      methods ⟨[object "D"], .void⟩ = some [0] := by
  intro row owner object additions start s fields methods
  have hstart : MappingSet.create ⟨7⟩ ["a", "b", "c"] = .ok start := rfl
  have hreachable : s.Reachable := MappingSet.Reachable.attemptAll (.create hstart) additions
  have hsome : (s.classes.get? 0).isSome = true := by decide +kernel
  obtain ⟨c, hc⟩ := Option.isSome_iff_exists.1 hsome
  refine ⟨hreachable, ⟨c, hc, member_lookups_unite hreachable hc⟩, ?_, ?_, ?_, ?_, ?_⟩ <;>
    decide +kernel

end SymbolMap
