import SymbolMap.MappingSet.Query
import SymbolMap.Proofs.MappingSet.Structure

/-!
# Queries by name

Packages and classes are found by way of an index over their names. A walk over the
elements, with none of the index, tells what a query has to give: each element that
has the name, once and in the order of insertion (`Table.Lists`). In a reachable set
queries give just that (`queries_eq_scans`).

A query takes its name in either spelling and looks for the one of class files, while
elements are kept under the names that they were given. So an element whose name is not
spelled like that is not what a query for its own name looks for
(`found_by_own_name_iff`).
-/

namespace SymbolMap

/-! ## Own names in queries -/

/-- A class is looked for under its own name if there are no dots in it. -/
theorem ClassName.ofSpelling_eq_iff {name : String} :
    (ClassName.ofSpelling name).text = name ↔ '.' ∉ name.toList := map_slashDots_eq_self_iff

/-- A package is looked for under its own name if there are no dots in it and it is not the
root package, spelled by two separators. -/
theorem PackageName.ofSpelling_eq_iff {name : String} :
    (PackageName.ofSpelling name).text = name ↔ '.' ∉ name.toList ∧ name ≠ "//" := by
  rw [← map_slashDots_eq_self_iff]
  unfold PackageName.ofSpelling
  by_cases hroot : name.map slashDots = "//"
  · -- what the root package is looked for under is shorter than the name
    have hlength : name.length = 2 := by
      have hlength := congrArg String.length hroot
      rwa [String.length_map] at hlength
    have hne : "/" ≠ name := fun h => absurd (h ▸ hlength) (by decide)
    simp only [hroot, beq_self_eq_true, if_true, hne, false_iff]
    exact fun h => h.2 h.1.symm
  · have hslashed : (name.map slashDots == "//") = false := beq_false_of_ne hroot
    simp only [hslashed, Bool.false_eq_true, if_false]
    exact ⟨fun h => ⟨h, fun hname => hroot (h.trans hname)⟩, And.left⟩

/-! ## Lists of elements -/

/-- A row contains a name if one of its slots holds it. -/
theorem NameRow.contains_iff {n : NameRow} {name : String} :
    n.contains name = true ↔ ∃ ns < n.size, n.get? ns = some name := by
  unfold contains get? slot?
  rw [List.contains_iff_mem, List.mem_iff_getElem?]
  constructor
  · rintro ⟨ns, hslot⟩
    exact ⟨ns, (List.getElem?_eq_some_iff.1 hslot).1, Option.join_eq_some_iff.2 hslot⟩
  · rintro ⟨ns, _, hname⟩
    exact ⟨ns, Option.join_eq_some_iff.1 hname⟩

namespace Entry

variable {α : Type}

/-- Items are listed by their positions. -/
theorem ascending_ofList (items : List α) :
    (ofList items).Pairwise fun e f => e.position < f.position := by
  unfold ofList
  rw [List.pairwise_iff_getElem]
  intro i j _ _ hlt
  simpa using hlt

/-- What is listed by positions has no repetitions. -/
theorem nodup_of_ascending {entries : List (Entry α)}
    (h : entries.Pairwise fun e f => e.position < f.position) : entries.Nodup :=
  h.imp fun hlt heq => Nat.ne_of_lt hlt (congrArg Entry.position heq)

end Entry

namespace Table

variable {α : Type}

/-- The elements of a table of which something holds: all of them, each one once, and in
the order of insertion. -/
structure Lists (t : Table α) (holds : α → Prop) (found : List (Entry α)) : Prop where
  mem : ∀ e, e ∈ found ↔ t.get? e.position = some e.item ∧ holds e.item
  ascending : found.Pairwise fun e f => e.position < f.position

variable {t : Table α} {holds : α → Prop}

/-- A walk lists the elements that fit. -/
theorem lists_filter (fits : α → Bool)
    (h : ∀ k x, t.get? k = some x → (fits x = true ↔ holds x)) :
    t.Lists holds (t.entries.filter fun e => fits e.item) := by
  refine ⟨fun e => ?_, (Entry.ascending_ofList _).filter _⟩
  have hat : e ∈ t.entries ↔ t.get? e.position = some e.item := by
    unfold entries get?
    rw [Entry.mem_ofList, Array.getElem?_toList]
  rw [List.mem_filter, hat]
  exact and_congr_right fun hx => h _ _ hx

/-- There is one such list. -/
theorem Lists.unique {found other : List (Entry α)} (h : t.Lists holds found)
    (h' : t.Lists holds other) : found = other := by
  have hmem : ∀ e, e ∈ found ↔ e ∈ other := fun e => (h.mem e).trans (h'.mem e).symm
  have hperm := (List.perm_ext_iff_of_nodup (Entry.nodup_of_ascending h.ascending)
    (Entry.nodup_of_ascending h'.ascending)).2 hmem
  refine hperm.eq_of_pairwise (fun e f _ _ hlt hgt => ?_) h.ascending h'.ascending
  exact absurd hlt (Nat.lt_asymm hgt)

section LookUps

variable [IsElement α] {width : Nat}

/-- An element is among those of a name if the name is its own. -/
theorem Lists.mem_own_iff {ns k : Nat} {name other : String} {found : List (Entry α)} {x : α}
    (h : t.Lists (fun x => (IsElement.element x).name? ns = some other) found)
    (hx : t.get? k = some x) (hname : (IsElement.element x).name? ns = some name) :
    ⟨k, x⟩ ∈ found ↔ other = name := by
  rw [h.mem ⟨k, x⟩, and_iff_right hx, hname, Option.some.injEq, eq_comm]

/-- Over all namespaces, it may also have the name that is looked for in another one. -/
theorem Lists.mem_anywhere_iff {ns k : Nat} {name other : String} {found : List (Entry α)} {x : α}
    (h : t.Lists (fun x => ∃ ns < width, (IsElement.element x).name? ns = some other) found)
    (hx : t.get? k = some x) (hns : ns < width)
    (hname : (IsElement.element x).name? ns = some name) :
    ⟨k, x⟩ ∈ found ↔
      other = name ∨ ∃ ns < width, (IsElement.element x).name? ns = some other := by
  rw [h.mem ⟨k, x⟩, and_iff_right hx]
  refine (or_iff_right_of_imp ?_).symm
  rintro rfl
  exact ⟨ns, hns, hname⟩

theorem Indexed.lists_namedAt (h : t.Indexed width) {ns : Nat} (hns : ns < width)
    (name : String) :
    t.Lists (fun x => (IsElement.element x).name? ns = some name) (t.namedAt ns name) := by
  rw [h.namedAt_eq_filter hns]
  exact lists_filter _ fun _ _ _ => beq_iff_eq

theorem IndexedAnywhere.lists_named (h : t.IndexedAnywhere)
    (hsize : ∀ k x, t.get? k = some x → (IsElement.element x).names.size = width)
    (name : String) :
    t.Lists (fun x => ∃ ns < width, (IsElement.element x).name? ns = some name)
      (t.named name) := by
  rw [h.named_eq_filter]
  -- a slot that holds the name is that of a namespace, for there are no other slots
  refine lists_filter (fun x => (IsElement.element x).names.contains name) fun k x hx => ?_
  rw [NameRow.contains_iff, hsize k x hx]
  rfl

end LookUps

end Table

/-! ## Queries in reachable sets -/

namespace MappingSet

variable {s : MappingSet}

/-- Additions keep the index over the names of all namespaces. -/
theorem Reachable.indexedAnywhere (h : s.Reachable) :
    s.packages.IndexedAnywhere ∧ s.classes.IndexedAnywhere := by
  induction h with
  | create h =>
    obtain ⟨valid, _, rfl⟩ := create_eq_ok h
    exact ⟨Table.indexedAnywhere_empty _, Table.indexedAnywhere_empty _⟩
  | addPackage _ h ih =>
    obtain ⟨rfl, _⟩ := addPackage_eq_ok h
    exact ⟨ih.1.push _, ih.2⟩
  | addClass _ h ih =>
    obtain ⟨rfl, _⟩ := addClass_eq_ok h
    exact ⟨ih.1, ih.2.push _⟩
  | addField _ h ih =>
    obtain ⟨c, _, hc, hedit, rfl⟩ := addField_eq_ok h
    have hremains := Class.keepsRest_insertField.remains hedit
    exact ⟨ih.1, ih.2.replace (class?_eq_some_iff.1 hc).2 hremains.names⟩
  | addMethod _ _ h ih =>
    obtain ⟨c, _, hc, hedit, rfl⟩ := addMethod_eq_ok h
    have hremains := Class.keepsRest_insertMethod.remains hedit
    exact ⟨ih.1, ih.2.replace (class?_eq_some_iff.1 hc).2 hremains.names⟩
  | editMethod _ _ h ih =>
    obtain ⟨c, _, _, hc, _, _, rfl⟩ := editMethod_eq_ok h
    exact ⟨ih.1, ih.2.replace (class?_eq_some_iff.1 hc).2 rfl⟩

variable {ns : Namespace} {i : Nat}

theorem Reachable.findClassesIn_lists (h : s.Reachable) (hns : s.indexOf ns = .ok i)
    (query : String) :
    ∃ found, s.findClassesIn ns query = .ok found ∧
      s.classes.Lists (fun c => c.name? i = some (ClassName.ofSpelling query).text) found := by
  unfold findClassesIn
  rw [hns]
  exact ⟨_, rfl, h.sound.classes.lists_namedAt (indexOf_lt hns) _⟩

theorem Reachable.findPackagesIn_lists (h : s.Reachable) (hns : s.indexOf ns = .ok i)
    (query : String) :
    ∃ found, s.findPackagesIn ns query = .ok found ∧
      s.packages.Lists (fun p => p.name? i = some (PackageName.ofSpelling query).text) found := by
  unfold findPackagesIn
  rw [hns]
  exact ⟨_, rfl, h.sound.packages.lists_namedAt (indexOf_lt hns) _⟩

theorem Reachable.findClasses_lists (h : s.Reachable) (query : String) :
    s.classes.Lists (fun c => ∃ i < s.width, c.name? i = some (ClassName.ofSpelling query).text)
      (s.findClasses query) :=
  h.indexedAnywhere.2.lists_named h.structured.names _

theorem Reachable.findPackages_lists (h : s.Reachable) (query : String) :
    s.packages.Lists
      (fun p => ∃ i < s.width, p.name? i = some (PackageName.ofSpelling query).text)
      (s.findPackages query) := by
  refine h.indexedAnywhere.1.lists_named (fun k p hp => ?_) _
  exact h.structured.packages p (Array.mem_toList_iff.2 (Array.mem_of_getElem? hp))

end MappingSet

/-- **Queries are scans.** In a reachable set, a query for a name in one namespace lists the
elements that have the name there, and one for a name in any namespace those that have it in
some namespace. The name is that of the query in the spelling of class files. A query in a
namespace fails only if the namespace does not resolve. -/
theorem queries_eq_scans {s : MappingSet} (h : s.Reachable) (query : String) :
    (∀ ns i, s.indexOf ns = .ok i →
      (∃ found, s.findClassesIn ns query = .ok found ∧
        s.classes.Lists (fun c => c.name? i = some (ClassName.ofSpelling query).text) found) ∧
      ∃ found, s.findPackagesIn ns query = .ok found ∧
        s.packages.Lists (fun p => p.name? i = some (PackageName.ofSpelling query).text) found) ∧
    (∀ ns e, s.indexOf ns = .error e →
      s.findClassesIn ns query = .error e ∧ s.findPackagesIn ns query = .error e) ∧
    s.classes.Lists (fun c => ∃ i < s.width, c.name? i = some (ClassName.ofSpelling query).text)
      (s.findClasses query) ∧
    s.packages.Lists
      (fun p => ∃ i < s.width, p.name? i = some (PackageName.ofSpelling query).text)
      (s.findPackages query) := by
  refine ⟨fun ns i hns => ⟨h.findClassesIn_lists hns query, h.findPackagesIn_lists hns query⟩,
    fun ns e hns => ?_, h.findClasses_lists query, h.findPackages_lists query⟩
  unfold MappingSet.findClassesIn MappingSet.findPackagesIn
  rw [hns]
  exact ⟨rfl, rfl⟩

/-- One class has the name in both namespaces and is listed once. The namespace of another
set stands for the one of its name. -/
theorem queries_eq_scans_twice_named :
    let twice := Class.bare ⟨⟨3⟩, 0⟩ ⟨[some "x/Y", some "x/Y"]⟩ .unknown none
    let once := Class.bare ⟨⟨3⟩, 1⟩ ⟨[some "z", some "x/Y"]⟩ .unknown (some ⟨⟨3⟩, 0⟩)
    let s : MappingSet := ⟨⟨3⟩, ["a", "b"], .empty 2, ((Table.empty 2).push twice).push once⟩
    s.Reachable ∧ s.findClassesIn ⟨"a", 5, ⟨8⟩⟩ "x.Y" = .ok [⟨0, twice⟩] ∧
      s.findClasses "x.Y" = [⟨0, twice⟩, ⟨1, once⟩] := by
  intro twice once s
  have hcreate : MappingSet.create ⟨3⟩ ["a", "b"] = .ok ⟨⟨3⟩, ["a", "b"], .empty 2, .empty 2⟩ := rfl
  have htwice : MappingSet.addClass ⟨⟨3⟩, ["a", "b"], .empty 2, .empty 2⟩
      ⟨[some "x/Y", some "x/Y"]⟩ .unknown none =
        .ok (⟨⟨3⟩, 0⟩, ⟨⟨3⟩, ["a", "b"], .empty 2, (Table.empty 2).push twice⟩) := rfl
  have honce : MappingSet.addClass ⟨⟨3⟩, ["a", "b"], .empty 2, (Table.empty 2).push twice⟩
      ⟨[some "z", some "x/Y"]⟩ .unknown (some ⟨⟨3⟩, 0⟩) = .ok (⟨⟨3⟩, 1⟩, s) := rfl
  have hreachable : s.Reachable := .addClass (.addClass (.create hcreate) htwice) honce
  have hname : (ClassName.ofSpelling "x.Y").text = "x/Y" := map_slashDots_eq_iff.2 rfl
  obtain ⟨hin, _, hanywhere, _⟩ := queries_eq_scans hreachable "x.Y"
  obtain ⟨⟨found, hfound, hlists⟩, _⟩ := hin ⟨"a", 5, ⟨8⟩⟩ 0 rfl
  rw [hname] at hlists hanywhere
  have hscan := Table.lists_filter (t := s.classes) (fun c => c.name? 0 == some "x/Y")
    fun _ _ _ => beq_iff_eq
  have hscanAnywhere := Table.lists_filter (t := s.classes) (fun c => c.names.contains "x/Y")
    fun k c hc => NameRow.contains_iff.trans (by rw [hreachable.structured.names k c hc])
  exact ⟨hreachable, hfound.trans (congrArg Except.ok (hlists.unique hscan)),
    hanywhere.unique hscanAnywhere⟩

/-! ## Queries for an own name -/

/-- **What is found by its own name.** In a reachable set, a query in a namespace for the name
that a class has there finds the class exactly if there are no dots in the name. A query for
the name in any namespace also finds it if it has the name, with its dots replaced, in some
namespace. Packages are found in the same way, but never by `//` itself. -/
theorem found_by_own_name_iff {s : MappingSet} (h : s.Reachable) {ns : Namespace} {i : Nat}
    (hns : s.indexOf ns = .ok i) {name : String} :
    (∀ k c, s.classes.get? k = some c → c.name? i = some name →
      (∃ found, s.findClassesIn ns name = .ok found ∧ (⟨k, c⟩ ∈ found ↔ '.' ∉ name.toList)) ∧
      (⟨k, c⟩ ∈ s.findClasses name ↔ '.' ∉ name.toList ∨
        ∃ j < s.width, c.name? j = some (ClassName.ofSpelling name).text)) ∧
    ∀ k p, s.packages.get? k = some p → p.name? i = some name →
      (∃ found, s.findPackagesIn ns name = .ok found ∧
        (⟨k, p⟩ ∈ found ↔ '.' ∉ name.toList ∧ name ≠ "//")) ∧
      (⟨k, p⟩ ∈ s.findPackages name ↔ '.' ∉ name.toList ∧ name ≠ "//" ∨
        ∃ j < s.width, p.name? j = some (PackageName.ofSpelling name).text) := by
  have hi := MappingSet.indexOf_lt hns
  constructor
  · intro k c hc hname
    obtain ⟨found, hfound, hlists⟩ := h.findClassesIn_lists hns name
    have hown : (ClassName.ofSpelling name).text = name ↔ _ := ClassName.ofSpelling_eq_iff
    refine ⟨⟨found, hfound, (hlists.mem_own_iff hc hname).trans hown⟩, ?_⟩
    have hanywhere := (h.findClasses_lists name).mem_anywhere_iff hc hi hname
    exact hanywhere.trans (or_congr_left hown)
  · intro k p hp hname
    obtain ⟨found, hfound, hlists⟩ := h.findPackagesIn_lists hns name
    have hown : (PackageName.ofSpelling name).text = name ↔ _ := PackageName.ofSpelling_eq_iff
    refine ⟨⟨found, hfound, (hlists.mem_own_iff hp hname).trans hown⟩, ?_⟩
    have hanywhere := (h.findPackages_lists name).mem_anywhere_iff hp hi hname
    exact hanywhere.trans (or_congr_left hown)

/-- A class that is kept under a name with a dot is not found by it where it has this name. It
is found over all namespaces, by its name in the other one. -/
theorem found_by_own_name_iff_dotted :
    let c := Class.bare ⟨⟨3⟩, 0⟩ ⟨[some "x.Y", some "x/Y"]⟩ .unknown none
    let p : Package := ⟨⟨[some "x", some "//"]⟩, .unknown⟩
    let s : MappingSet := ⟨⟨3⟩, ["a", "b"], (Table.empty 2).push p, (Table.empty 2).push c⟩
    s.Reachable ∧
      (∃ found, s.findClassesIn ⟨"a", 0, ⟨3⟩⟩ "x.Y" = .ok found ∧ ⟨0, c⟩ ∉ found) ∧
      ⟨0, c⟩ ∈ s.findClasses "x.Y" ∧
      ∃ found, s.findPackagesIn ⟨"a", 0, ⟨3⟩⟩ "x" = .ok found ∧ ⟨0, p⟩ ∈ found := by
  intro c p s
  have hcreate : MappingSet.create ⟨3⟩ ["a", "b"] = .ok ⟨⟨3⟩, ["a", "b"], .empty 2, .empty 2⟩ := rfl
  have hpackage : MappingSet.addPackage ⟨⟨3⟩, ["a", "b"], .empty 2, .empty 2⟩
      ⟨[some "x", some "//"]⟩ .unknown =
        .ok (0, ⟨⟨3⟩, ["a", "b"], (Table.empty 2).push p, .empty 2⟩) := rfl
  have hclass : MappingSet.addClass ⟨⟨3⟩, ["a", "b"], (Table.empty 2).push p, .empty 2⟩
      ⟨[some "x.Y", some "x/Y"]⟩ .unknown none = .ok (⟨⟨3⟩, 0⟩, s) := rfl
  have hreachable : s.Reachable := .addClass (.addPackage (.create hcreate) hpackage) hclass
  have hslashed : (ClassName.ofSpelling "x.Y").text = "x/Y" := map_slashDots_eq_iff.2 rfl
  have hspace : s.indexOf ⟨"a", 0, ⟨3⟩⟩ = .ok 0 := rfl
  obtain ⟨⟨found, hfound, hiff⟩, hanywhere⟩ :=
    (found_by_own_name_iff hreachable hspace).1 0 c rfl (rfl : c.name? 0 = some "x.Y")
  obtain ⟨⟨found', hfound', hiff'⟩, _⟩ :=
    (found_by_own_name_iff hreachable hspace).2 0 p rfl (rfl : p.name? 0 = some "x")
  refine ⟨hreachable, ⟨found, hfound, fun hmem => absurd (hiff.1 hmem) (by decide)⟩,
    hanywhere.2 (.inr ⟨1, by decide, ?_⟩), found', hfound', hiff'.2 (by decide)⟩
  rw [hslashed]
  rfl

/-- A class kept under a name with a dot, and the root package kept under two separators, are
found by these names neither where they have them nor over all namespaces. In respelling, the
class is found by it. -/
theorem not_found_by_own_name_of_dotted :
    let c := Class.bare ⟨⟨3⟩, 0⟩ ⟨[some "x.Y", some "z"]⟩ .unknown none
    let p : Package := ⟨⟨[some "//", some "q"]⟩, .unknown⟩
    let s : MappingSet := ⟨⟨3⟩, ["a", "b"], (Table.empty 2).push p, (Table.empty 2).push c⟩
    s.Reachable ∧ s.indexOf ⟨"a", 0, ⟨3⟩⟩ = .ok 0 ∧
      s.classes.get? 0 = some c ∧ c.name? 0 = some "x.Y" ∧
      s.findClassesIn ⟨"a", 0, ⟨3⟩⟩ "x.Y" = .ok [] ∧ s.findClasses "x.Y" = [] ∧
      s.packages.get? 0 = some p ∧ p.name? 0 = some "//" ∧
      s.findPackagesIn ⟨"a", 0, ⟨3⟩⟩ "//" = .ok [] ∧ s.findPackages "//" = [] ∧
      s.respellName 0 1 ⟨"x.Y"⟩ = ⟨"z"⟩ := by
  intro c p s
  have hcreate : MappingSet.create ⟨3⟩ ["a", "b"] = .ok ⟨⟨3⟩, ["a", "b"], .empty 2, .empty 2⟩ := rfl
  have hpackage : MappingSet.addPackage ⟨⟨3⟩, ["a", "b"], .empty 2, .empty 2⟩
      ⟨[some "//", some "q"]⟩ .unknown =
        .ok (0, ⟨⟨3⟩, ["a", "b"], (Table.empty 2).push p, .empty 2⟩) := rfl
  have hclass : MappingSet.addClass ⟨⟨3⟩, ["a", "b"], (Table.empty 2).push p, .empty 2⟩
      ⟨[some "x.Y", some "z"]⟩ .unknown none = .ok (⟨⟨3⟩, 0⟩, s) := rfl
  have hreachable : s.Reachable := .addClass (.addPackage (.create hcreate) hpackage) hclass
  have hslashed : (ClassName.ofSpelling "x.Y").text = "x/Y" := map_slashDots_eq_iff.2 rfl
  have hroot : (PackageName.ofSpelling "//").text = "/" := by
    have hsame : "//".map slashDots = "//" := map_slashDots_eq_self_iff.2 (by decide)
    unfold PackageName.ofSpelling
    rw [hsame]
    rfl
  have hclassesAt : s.classes.namedAt 0 "x/Y" = [] := by decide +kernel
  have hclasses : s.classes.named "x/Y" = [] := by decide +kernel
  have hpackagesAt : s.packages.namedAt 0 "/" = [] := by decide +kernel
  have hpackages : s.packages.named "/" = [] := by decide +kernel
  have hfirst : s.FirstNamed 0 "x.Y" c :=
    ⟨0, rfl, rfl, fun j hj => absurd hj (Nat.not_lt_zero j)⟩
  have hrespelled : s.Respelled 0 1 ⟨"x.Y"⟩ (.slashed ["z"]) :=
    .named hfirst (.outermost rfl) rfl
  refine ⟨hreachable, rfl, rfl, rfl, ?_, ?_, rfl, rfl, ?_, ?_, ?_⟩
  · exact congrArg Except.ok ((congrArg _ hslashed).trans hclassesAt)
  · exact (congrArg s.classes.named hslashed).trans hclasses
  · exact congrArg Except.ok ((congrArg _ hroot).trans hpackagesAt)
  · exact (congrArg s.packages.named hroot).trans hpackages
  · rw [← (hreachable.sound.respelled_iff (by decide)).1 hrespelled,
      ClassName.slashed_singleton (by decide)]

end SymbolMap
