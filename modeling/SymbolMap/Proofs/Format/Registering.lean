import SymbolMap.Format.Registry

/-!
# Registering more formats

Which formats are tried for a file depends on how many of them expect its name: a single
one is tried in any case, and of several only those that accept the contents. So a format
that is registered later can put those in front of it to a test that they did not have to
pass before.

A format that accepts what it can read passes the test (`Registry.tries_iff_expects`). If
all formats of a registry do, a file that one of them reads is read by the same one of them
after others have been registered, and gives the same document
(`registering_keeps_reading`).
-/

namespace SymbolMap

namespace Registry

variable {r : Registry} {id : SetId} {fileName : String} {bytes : ByteArray} {d : Document}

/-! ## The formats that are tried -/

/-- Whether a format is tried for a file. It has to expect the name, and also to accept
the contents if it is not the only one that expects the name. -/
def Tries (r : Registry) (fileName : String) (bytes : ByteArray) (f : Format) : Prop :=
  f.expects fileName = true ∧
    ((r.formats.filter (·.expects fileName)).length ≤ 1 ∨ f.accepts bytes = true)

instance (r : Registry) (fileName : String) (bytes : ByteArray) :
    DecidablePred (r.Tries fileName bytes) := fun f =>
  inferInstanceAs (Decidable (f.expects fileName = true ∧
    ((r.formats.filter (·.expects fileName)).length ≤ 1 ∨ f.accepts bytes = true)))

theorem candidates_eq_filter (r : Registry) (fileName : String) (bytes : ByteArray) :
    r.candidates fileName bytes = r.formats.filter fun f => r.Tries fileName bytes f := by
  unfold candidates
  by_cases hsole : (r.formats.filter (·.expects fileName)).length ≤ 1
  · rw [if_pos hsole]
    apply List.filter_congr
    intro f _
    simp [Tries, hsole]
  · rw [if_neg hsole, List.filter_filter]
    apply List.filter_congr
    intro f _
    simp [Tries, hsole, Bool.and_comm]

/-- A format that accepts the contents is tried if it expects the name, however many others
do. -/
theorem tries_iff_expects {f : Format} (h : f.accepts bytes = true) :
    r.Tries fileName bytes f ↔ f.expects fileName = true := by
  simp [Tries, h]

/-! ## The format that reads a file -/

/-- The file is read by a format behind the given ones: it is tried, and those that are
tried before cannot read the file. -/
structure ReadBy (r : Registry) (id : SetId) (fileName : String) (bytes : ByteArray)
    (before : List Format) (f : Format) (d : Document) : Prop where
  registered : before ++ [f] <+: r.formats
  tried : r.Tries fileName bytes f
  reads : f.read id fileName bytes = some d
  passed : ∀ g ∈ before, r.Tries fileName bytes g → g.read id fileName bytes = none

theorem read_eq_some_iff : r.read id fileName bytes = some d ↔
    ∃ before f, r.ReadBy id fileName bytes before f d := by
  unfold read
  rw [candidates_eq_filter, List.findSome?_eq_some_iff]
  constructor
  · rintro ⟨earlier, f, later, hsplit, hreads, hpassed⟩
    -- in front of `f` stand those that are tried before it, and others that are not tried
    obtain ⟨front, back, hformats, hfront, hback⟩ := List.filter_eq_append_iff.1 hsplit
    obtain ⟨skipped, rest, rfl, hskipped, htried, _⟩ := List.filter_eq_cons_iff.1 hback
    refine ⟨front ++ skipped, f, ⟨rest, ?_⟩, of_decide_eq_true htried, hreads, ?_⟩
    · rw [hformats]
      simp
    · intro g hg htries
      rcases List.mem_append.1 hg with hg | hg
      · apply hpassed
        rw [← hfront]
        exact List.mem_filter.2 ⟨hg, decide_eq_true htries⟩
      · exact absurd (decide_eq_true htries) (hskipped g hg)
  · rintro ⟨before, f, ⟨rest, hformats⟩, htried, hreads, hpassed⟩
    refine ⟨before.filter fun g => r.Tries fileName bytes g, f,
      rest.filter fun g => r.Tries fileName bytes g, ?_, hreads, ?_⟩
    · rw [← hformats, List.append_assoc, List.filter_append, List.singleton_append]
      simp [htried]
    · intro g hg
      obtain ⟨hmem, htries⟩ := List.mem_filter.1 hg
      exact hpassed g hmem (of_decide_eq_true htries)

section Unique

variable {before other : List Format} {f g : Format} {e : Document}

/-- A format that stands further back reads no file that is read in front of it. -/
theorem ReadBy.length_le (h : r.ReadBy id fileName bytes before f d)
    (h' : r.ReadBy id fileName bytes other g e) : other.length ≤ before.length := by
  apply Nat.le_of_not_lt
  intro hlt
  have hother : other <+: r.formats := (List.prefix_append other [g]).trans h'.registered
  have hinside : before ++ [f] <+: other := by
    apply List.prefix_of_prefix_length_le h.registered hother
    rw [List.length_append]
    exact hlt
  have hnone := h'.passed f (hinside.subset (by simp)) h.tried
  rw [h.reads] at hnone
  cases hnone

/-- There is one format that reads a file. -/
theorem ReadBy.unique (h : r.ReadBy id fileName bytes before f d)
    (h' : r.ReadBy id fileName bytes other g e) : before = other ∧ f = g ∧ d = e := by
  have hlength : (before ++ [f]).length = (other ++ [g]).length := by
    have hle := h.length_le h'
    have hge := h'.length_le h
    simp only [List.length_append, List.length_singleton]
    omega
  have hsame : before ++ [f] = other ++ [g] :=
    (List.prefix_of_prefix_length_le h.registered h'.registered (Nat.le_of_eq hlength)).eq_of_length
      hlength
  obtain ⟨rfl, hfg⟩ := List.append_inj' hsame rfl
  cases hfg
  exact ⟨rfl, rfl, Option.some.inj (h.reads.symm.trans h'.reads)⟩

end Unique

/-! ## Registration -/

theorem formats_registerAll (r : Registry) (more : List Format) :
    (more.foldl Registry.register r).formats = r.formats ++ more := by
  induction more generalizing r with
  | nil => simp
  | cons f more ih =>
    rw [List.foldl_cons, ih]
    simp [register]

/-- What reads a file goes on doing so, if all formats accept what they can read. -/
theorem ReadBy.registerAll {before : List Format} {f : Format}
    (h : r.ReadBy id fileName bytes before f d)
    (haccepts : ∀ g ∈ r.formats, (g.read id fileName bytes).isSome = true →
      g.accepts bytes = true) (more : List Format) :
    (more.foldl Registry.register r).ReadBy id fileName bytes before f d := by
  have hmem : ∀ g ∈ before ++ [f], g ∈ r.formats := fun g hg => h.registered.subset hg
  constructor
  · rw [formats_registerAll]
    exact h.registered.trans (List.prefix_append _ _)
  · have haccepted : f.accepts bytes = true :=
      haccepts f (hmem f (by simp)) (by rw [h.reads]; rfl)
    rw [tries_iff_expects haccepted]
    exact h.tried.1
  · exact h.reads
  · intro g hg htried
    cases hreads : g.read id fileName bytes with
    | none => rfl
    | some e =>
      -- it accepts the file, so it was tried before as well
      have haccepted : g.accepts bytes = true :=
        haccepts g (hmem g (List.mem_append_left _ hg)) (by rw [hreads]; rfl)
      have hnone := h.passed g hg ((tries_iff_expects haccepted).2 htried.1)
      rw [hreads] at hnone
      cases hnone

end Registry

/-- **Registering more formats never changes a file that could be read.** If all formats
that can read a file accept its contents, what the registry reads of it stays the same
whatever is registered afterwards, and so does the format that reads it. -/
theorem registering_keeps_reading {r : Registry} {id : SetId} {fileName : String}
    {bytes : ByteArray} {d : Document}
    (haccepts : ∀ f ∈ r.formats, (f.read id fileName bytes).isSome = true →
      f.accepts bytes = true)
    (h : r.read id fileName bytes = some d) (more : List Format) :
    (more.foldl Registry.register r).read id fileName bytes = some d ∧
      ∃ before f, r.ReadBy id fileName bytes before f d ∧
        (more.foldl Registry.register r).ReadBy id fileName bytes before f d := by
  obtain ⟨before, f, hread⟩ := Registry.read_eq_some_iff.1 h
  have hafter := hread.registerAll haccepts more
  exact ⟨Registry.read_eq_some_iff.2 ⟨before, f, hafter⟩, before, f, hread, hafter⟩

/-- The only format that expects the name reads the file. Two others are registered that
expect it and accept all contents, of which one reads everything. Then it is one of three
candidates, and still the one that reads the file. -/
theorem registering_keeps_reading_contested :
    let document (format : String) (id : SetId) (fileName : String) : Document :=
      ⟨⟨id, ["a", "b"], .empty 2, .empty 2⟩, ⟨fileName, format, [], []⟩⟩
    let tiny : Format := ⟨"tiny", [".tiny"], Format.acceptsNothing, fun _ _ _ => none⟩
    let simple : Format :=
      ⟨"simple", [".map"], fun bytes => bytes.size == 3, fun id name _ => document "simple" id name⟩
    let greedy : Format := ⟨"greedy", [".tiny", ".map"], fun _ => true, fun _ _ _ => none⟩
    let rival : Format :=
      ⟨"rival", ["map"], fun _ => true, fun id name _ => document "rival" id name⟩
    let bytes : ByteArray := ⟨#[97, 98, 99]⟩
    let r : Registry := ⟨[tiny, simple]⟩
    let d := document "simple" ⟨4⟩ "a.map"
    let r' := [greedy, rival].foldl Registry.register r
    (r.candidates "a.map" bytes).map Format.id = ["simple"] ∧
      (r'.candidates "a.map" bytes).map Format.id = ["simple", "greedy", "rival"] ∧
      r.read ⟨4⟩ "a.map" bytes = some d ∧ r'.read ⟨4⟩ "a.map" bytes = some d ∧
      r'.ReadBy ⟨4⟩ "a.map" bytes [tiny] simple d := by
  intro document tiny simple greedy rival bytes r d r'
  have haccepts : ∀ f ∈ r.formats, (f.read ⟨4⟩ "a.map" bytes).isSome = true →
      f.accepts bytes = true := by decide +kernel
  have hread : r.ReadBy ⟨4⟩ "a.map" bytes [tiny] simple d := by
    refine ⟨List.prefix_rfl, by decide +kernel, rfl, fun g hg _ => ?_⟩
    rw [List.mem_singleton.1 hg]
  have h : r.read ⟨4⟩ "a.map" bytes = some d := Registry.read_eq_some_iff.2 ⟨_, _, hread⟩
  obtain ⟨hafter, before, f, hbefore, hby⟩ := registering_keeps_reading haccepts h [greedy, rival]
  obtain ⟨rfl, rfl, -⟩ := hread.unique hbefore
  exact ⟨by decide +kernel, by decide +kernel, h, hafter, hby⟩

end SymbolMap
