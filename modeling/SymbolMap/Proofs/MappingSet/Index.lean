import SymbolMap.Proofs.Draft.Pool
import SymbolMap.Proofs.Grouping
import SymbolMap.Table

/-!
# Look-ups by name

A table notes the position of each element under its names when the element is
added, and never again. This is enough: elements are added at the end, and one
that takes the place of another one has the same names. So the noted positions
are those that a walk over all elements would find, in each namespace
(`Table.Indexed`) and over all of them (`Table.IndexedAnywhere`), and looking up
a name gives the elements that such a walk gives (`Table.Indexed.namedAt_eq_filter`,
`Table.IndexedAnywhere.named_eq_filter`).

What a walk finds is told by `Table.fitting` for any way in which an element may
fit; the two kinds of look-ups are cases of it.
-/

namespace SymbolMap

variable {α : Type}

/-! ## All positions -/

/-- Reading a list position by position gives all of its entries. -/
theorem Entry.filterMap_range (items : List α) :
    (List.range items.length).filterMap (fun i => items[i]?.map (Entry.mk i)) =
      Entry.ofList items := by
  have hbelow : ∀ n ≤ items.length,
      (List.range n).filterMap (fun i => items[i]?.map (Entry.mk i)) =
        Entry.ofList (items.take n) := by
    intro n
    induction n with
    | zero => exact fun _ => rfl
    | succ n ih =>
      intro hn
      have hlt : n < items.length := hn
      rw [List.range_succ, List.filterMap_append, ih (Nat.le_of_lt hlt),
        ← List.take_append_getElem hlt, Entry.ofList, Entry.ofList, List.mapIdx_append]
      simp [List.getElem?_eq_getElem hlt, Nat.min_eq_left (Nat.le_of_lt hlt)]
  have hall := hbelow items.length (Nat.le_refl _)
  rw [List.take_length] at hall
  exact hall

/-! ## Names that are noted together -/

namespace NameIndex

/-- Names that differ are each noted once. -/
theorem positions_noteAll {names : List String} (h : names.Nodup) (index : NameIndex)
    (position : Nat) (name : String) :
    (names.foldl (fun index name => index.note name position) index).positions name =
      index.positions name ++ if name ∈ names then [position] else [] := by
  induction names generalizing index with
  | nil => simp
  | cons other rest ih =>
    obtain ⟨hother, hrest⟩ := List.nodup_cons.1 h
    rw [List.foldl_cons, ih hrest, positions_note]
    by_cases hname : other = name
    · subst hname
      simp [hother]
    · simp [hname, Ne.symm hname]

end NameIndex

/-- The names that a row is noted under differ. -/
theorem NameRow.nodup_distinct (n : NameRow) : n.distinct.Nodup := nodup_eraseDups _

theorem NameRow.mem_distinct_iff {n : NameRow} {name : String} :
    name ∈ n.distinct ↔ n.contains name = true := by
  unfold distinct contains
  rw [List.mem_eraseDups, List.contains_iff_mem]
  simp

namespace Table

theorem get?_empty (width position : Nat) :
    (Table.empty width : Table α).get? position = none := rfl

/-! ## Elements that fit -/

/-- The positions of the elements that fit, in ascending order. -/
def fitting (t : Table α) (fits : α → Bool) : List Nat :=
  (List.range t.size).filter fun position => (t.get? position).any fits

/-- Only the position of the new element can be new. -/
theorem fitting_push [IsElement α] (t : Table α) (x : α) (fits : α → Bool) :
    (t.push x).fitting fits = t.fitting fits ++ if fits x then [t.size] else [] := by
  have hold : (List.range t.size).filter (fun i => ((t.push x).get? i).any fits) =
      t.fitting fits := by
    refine List.filter_congr fun i hi => ?_
    rw [get?_push, if_neg (Nat.ne_of_lt (List.mem_range.1 hi))]
  have hnew : ((t.push x).get? t.size).any fits = fits x := by
    rw [get?_push, if_pos rfl]
    rfl
  show (List.range (t.push x).size).filter (fun i => ((t.push x).get? i).any fits) = _
  rw [size_push, List.range_succ, List.filter_append, hold, List.filter_cons, hnew, List.filter_nil]

/-- An element that fits exactly if the one before it did changes nothing. -/
theorem fitting_replace {t : Table α} {position : Nat} {old new : α} {fits : α → Bool}
    (hold : t.get? position = some old) (hfits : fits new = fits old) :
    (t.replace position new).fitting fits = t.fitting fits := by
  unfold fitting
  rw [size_replace]
  refine List.filter_congr fun i hi => ?_
  rw [get?_replace]
  by_cases hi' : position = i
  · rw [if_pos ⟨hi', List.mem_range.1 hi⟩, ← hi', hold]
    exact hfits
  · rw [if_neg fun hboth => hi' hboth.1]

/-- To read the elements at those positions is to walk over all elements. -/
theorem select_fitting (t : Table α) (fits : α → Bool) :
    t.select (t.fitting fits) = t.entries.filter fun e => fits e.item := by
  have hentries : t.entries =
      (List.range t.size).filterMap fun i => (t.get? i).map (Entry.mk i) := by
    unfold entries
    rw [← Entry.filterMap_range, Array.length_toList]
    simp only [Array.getElem?_toList]
    rfl
  unfold select fitting
  rw [hentries, List.filterMap_filter, List.filter_filterMap]
  congr 1
  funext i
  cases t.get? i with
  | none => rfl
  | some x =>
    show (if _ then _ else _) = Option.filter _ (some _)
    rw [Option.filter_some]
    rfl

/-! ## In one namespace -/

section Indexed

variable [IsElement α] {t : Table α} {width : Nat}

/-- Whether the element at a position has the name in the namespace at an index. -/
def hasAt (t : Table α) (ns : Nat) (name : String) (position : Nat) : Bool :=
  (t.get? position).any fun x => (IsElement.element x).name? ns == some name

/-- For each of the given number of namespaces, the positions noted for a name are
those of the elements that have it, in the order of the elements. -/
structure Indexed (t : Table α) (width : Nat) : Prop where
  spaces : t.perNamespace.length = width
  positions : ∀ ns < width, ∀ name, (t.perNamespace[ns]?.getD ∅).positions name =
    (List.range t.size).filter (t.hasAt ns name)

theorem filter_hasAt (t : Table α) (ns : Nat) (name : String) :
    (List.range t.size).filter (t.hasAt ns name) =
      t.fitting fun x => (IsElement.element x).name? ns == some name := rfl

theorem indexed_empty (width : Nat) : (Table.empty width : Table α).Indexed width := by
  refine ⟨List.length_replicate, fun ns hns name => ?_⟩
  show ((List.replicate width (∅ : NameIndex))[ns]?.getD ∅).positions name = []
  rw [List.getElem?_replicate, if_pos hns]
  exact NameIndex.positions_empty name

/-- The positions noted for a name in one namespace, after an element is added. -/
theorem positions_push (t : Table α) (x : α) {ns : Nat} (hns : ns < t.perNamespace.length)
    (name : String) :
    (((t.push x).perNamespace[ns]?).getD ∅).positions name =
      (t.perNamespace[ns]?.getD ∅).positions name ++
        if (IsElement.element x).name? ns = some name then [t.size] else [] := by
  have hget : (t.push x).perNamespace[ns]? =
      some (((IsElement.element x).names.get? ns).elim t.perNamespace[ns] fun name =>
        t.perNamespace[ns].note name t.size) := by
    show (t.perNamespace.mapIdx _)[ns]? = _
    rw [List.getElem?_mapIdx, List.getElem?_eq_getElem hns]
    cases (IsElement.element x).names.get? ns <;> rfl
  rw [hget, List.getElem?_eq_getElem hns]
  unfold Element.name?
  cases (IsElement.element x).names.get? ns with
  | none => simp
  | some other =>
    show (t.perNamespace[ns].note other t.size).positions name = _
    rw [NameIndex.positions_note]
    by_cases h : other = name <;> simp [h]

/-- An element at the end is noted at the end. -/
theorem Indexed.push (h : t.Indexed width) (x : α) : (t.push x).Indexed width := by
  refine ⟨(List.length_mapIdx ..).trans h.spaces, fun ns hns name => ?_⟩
  rw [positions_push t x (h.spaces.symm ▸ hns), h.positions ns hns, filter_hasAt, filter_hasAt,
    fitting_push]
  simp

/-- An element that takes the place of one with the same names needs no note. -/
theorem Indexed.replace (h : t.Indexed width) {position : Nat} {old new : α}
    (hold : t.get? position = some old)
    (hnames : (IsElement.element new).names = (IsElement.element old).names) :
    (t.replace position new).Indexed width := by
  refine ⟨h.spaces, fun ns hns name => ?_⟩
  refine (h.positions ns hns name).trans (Eq.symm ?_)
  rw [filter_hasAt, filter_hasAt]
  apply fitting_replace hold
  simp only [Element.name?, hnames]

/-- A look-up gives the elements that have the name, in the order in which they
were added. -/
theorem Indexed.namedAt_eq_filter (h : t.Indexed width) {ns : Nat} (hns : ns < width)
    (name : String) :
    t.namedAt ns name =
      t.entries.filter fun e => (IsElement.element e.item).name? ns == some name := by
  unfold namedAt
  rw [h.positions ns hns, filter_hasAt, select_fitting]

/-- The first result of a look-up is the first element that has the name. -/
theorem Indexed.head?_namedAt (h : t.Indexed width) {ns : Nat} (hns : ns < width)
    (name : String) :
    (t.namedAt ns name).head? =
      firstFit (fun x => (IsElement.element x).name? ns == some name) t.elements.toList := by
  rw [h.namedAt_eq_filter hns, List.head?_filter]
  rfl

end Indexed

/-! ## In some namespace -/

section Anywhere

variable [IsElement α] {t : Table α}

/-- Over all namespaces, the positions noted for a name are those of the elements that
have it in some slot, each once and in the order of the elements. -/
def IndexedAnywhere (t : Table α) : Prop :=
  ∀ name, t.anywhere.positions name =
    t.fitting fun x => (IsElement.element x).names.contains name

theorem indexedAnywhere_empty (width : Nat) : (Table.empty width : Table α).IndexedAnywhere :=
  fun name => NameIndex.positions_empty name

/-- An element that has a name in several slots is noted for it once. -/
theorem IndexedAnywhere.push (h : t.IndexedAnywhere) (x : α) : (t.push x).IndexedAnywhere := by
  intro name
  have hnoted := NameIndex.positions_noteAll (IsElement.element x).names.nodup_distinct
    t.anywhere t.size name
  refine hnoted.trans ?_
  rw [h name, fitting_push]
  simp only [NameRow.mem_distinct_iff]

theorem IndexedAnywhere.replace (h : t.IndexedAnywhere) {position : Nat} {old new : α}
    (hold : t.get? position = some old)
    (hnames : (IsElement.element new).names = (IsElement.element old).names) :
    (t.replace position new).IndexedAnywhere := by
  intro name
  refine (h name).trans (Eq.symm ?_)
  apply fitting_replace hold
  rw [hnames]

/-- A look-up over all namespaces gives the elements that have the name in some slot. -/
theorem IndexedAnywhere.named_eq_filter (h : t.IndexedAnywhere) (name : String) :
    t.named name = t.entries.filter fun e => (IsElement.element e.item).names.contains name := by
  unfold named
  rw [h name, select_fitting]

end Anywhere

end Table

end SymbolMap
