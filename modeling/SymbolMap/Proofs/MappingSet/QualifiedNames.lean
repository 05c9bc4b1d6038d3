import SymbolMap.Proofs.MappingSet.Respelling

/-!
# Qualified names along parents

A class knows the class around it by an id alone, and ids could lead anywhere: to no
class at all, to a class of another set, or round in a circle. `MappingSet.climb` follows
them without looking where they lead, as long as it is given steps, and tells these
endings apart.

In a reachable set it always comes to an end at an outermost class, with as many steps as
there are classes on the way (`MappingSet.Lineage.climb_eq`), and gives the qualified name
that `MappingSet.qualifiedName?` finds by going down positions. What that name is, and
when there is none, is told by the names of the classes on the way
(`qualifiedName_follows_parents`).
-/

namespace SymbolMap

/-- What following the parents of a class comes to. -/
inductive Climb where
  /-- an outermost class was reached, or one without a name -/
  | ended (name : Option String)
  /-- the set has no class of that id -/
  | astray (parent : ClassId)
  /-- there were too few steps -/
  | unfinished
  deriving DecidableEq, Repr

/-- The outcome for a class in the place of that for the class around it. -/
def Climb.inside (own : String) : Climb → Climb
  | ended around => ended (around.map fun name => name ++ "." ++ own)
  | other => other

namespace MappingSet

variable {s : MappingSet}

/-- Follows the parents of a class from id to id, with at most the given number of classes,
and puts their names in a row. -/
def climb (s : MappingSet) (ns : Nat) : Nat → Class → Climb
  | 0, _ => .unfinished
  | steps + 1, c =>
    match c.name? ns with
    | none => .ended none
    | some name =>
      match c.parent with
      | none => .ended (some (ClassName.sourceText ⟨name⟩))
      | some parent =>
        match s.class? parent with
        | none => .astray parent
        | some outer => (s.climb ns steps outer).inside (ClassName.sourceText ⟨name⟩)

/-! ## The classes on the way -/

/-- Positions go down along parents, so there are no more classes than positions. -/
theorem Lineage.length_le (hs : s.Sound) {c : Class} {chain : List Class} (h : s.Lineage c chain)
    (hc : c ∈ s.classes.elements.toList) : chain.length ≤ c.id.index + 1 := by
  induction h with
  | outermost => exact Nat.le_add_left 1 _
  | @inside c outer chain hmem hparent _ ih =>
    have hlt : outer.id.index < c.id.index :=
      (hs.parents _ c _ (hs.get?_of_mem hc) hparent).2
    have hlength := ih hmem
    rw [List.length_append, List.length_singleton]
    omega

/-- No parent of a class on the way is unknown or of another set. -/
theorem Lineage.exists_parent (hs : s.Sound) {c : Class} {chain : List Class}
    (h : s.Lineage c chain) :
    ∀ d ∈ chain, ∀ p ∈ d.parent, ∃ outer ∈ chain, s.class? p = some outer := by
  induction h with
  | outermost hparent =>
    intro d hd p hp
    rw [List.mem_singleton.1 hd, hparent] at hp
    cases hp
  | @inside c outer chain hmem hparent hchain ih =>
    intro d hd p hp
    rcases List.mem_append.1 hd with hd | hd
    · obtain ⟨around, haround, hfound⟩ := ih d hd p hp
      exact ⟨around, List.mem_append_left _ haround, hfound⟩
    · rw [List.mem_singleton.1 hd, hparent] at hp
      cases hp
      exact ⟨outer, List.mem_append_left _ hchain.self_mem, hs.class?_of_mem hmem⟩

/-- With a step for each class on the way, following the parents ends with the qualified
name. -/
theorem Lineage.climb_eq (hs : s.Sound) {c : Class} {chain : List Class} (h : s.Lineage c chain)
    (hc : c ∈ s.classes.elements.toList) (ns : Nat) {steps : Nat} (hsteps : chain.length ≤ steps) :
    s.climb ns steps c = .ended (s.qualifiedName? ns c.id.index) := by
  induction h generalizing steps with
  | @outermost c hparent =>
    obtain ⟨more, rfl⟩ : ∃ more, steps = more + 1 := Nat.exists_eq_add_of_le' hsteps
    rw [hs.qualifiedName?_outermost hc hparent, climb]
    cases c.name? ns with
    | none => rfl
    | some name => simp only [hparent, Option.map_some]
  | @inside c outer chain hmem hparent _ ih =>
    rw [List.length_append, List.length_singleton] at hsteps
    obtain ⟨more, rfl⟩ : ∃ more, steps = more + 1 := ⟨steps - 1, by omega⟩
    have houter : s.climb ns more outer = .ended (s.qualifiedName? ns outer.id.index) :=
      ih hmem (Nat.le_of_succ_le_succ hsteps)
    rw [hs.qualifiedName?_inside hc hparent, climb]
    cases c.name? ns with
    | none => cases s.qualifiedName? ns outer.id.index <;> rfl
    | some name =>
      simp only [hparent, hs.class?_of_mem hmem, houter, Climb.inside]
      cases s.qualifiedName? ns outer.id.index <;> rfl

/-! ## The names on the way -/

theorem Qualified.eq_none_iff {ns : Nat} {chain : List Class} {name : Option String}
    (h : Qualified ns chain name) : name = none ↔ ∃ d ∈ chain, d.name? ns = none := by
  cases h with
  | named hnames =>
    constructor
    · intro hnone
      cases hnone
    · rintro ⟨d, hd, hnone⟩
      exact absurd hnone (name?_ne_none_of_map_eq hnames hd)
  | unnamed hd hnone => exact ⟨fun _ => ⟨_, hd, hnone⟩, fun _ => rfl⟩

theorem Qualified.eq_some_iff {ns : Nat} {chain : List Class} {name : Option String}
    (h : Qualified ns chain name) {text : String} :
    name = some text ↔
      ∃ names : List String, chain.map (fun d => d.name? ns) = names.map some ∧
        text = ClassName.dotted names := by
  cases h with
  | @named names hnames =>
    constructor
    · rintro ⟨⟩
      exact ⟨names, hnames, rfl⟩
    · rintro ⟨other, hother, rfl⟩
      have hsame : names = other :=
        (List.map_inj_right fun _ _ => Option.some.inj).1 (hnames.symm.trans hother)
      rw [hsame]
  | unnamed hd hnone =>
    constructor
    · intro hsome
      cases hsome
    · rintro ⟨names, hnames, _⟩
      exact absurd hnone (name?_ne_none_of_map_eq hnames hd)

/-- What holds of the qualified names of a class, where `chain` has the classes around it
from the outermost one down to itself. Following the parents ends, and never at an id that
the set has no class for. There is no qualified name exactly if some class of the chain has
no name; otherwise it is the names of all of them in a row. That of a nested class is that
of the class around it, a dot, and its own name as source code spells it. -/
structure QualifiedByParents (s : MappingSet) (c : Class) (chain : List Class) : Prop where
  lineage : s.Lineage c chain
  length_le : chain.length ≤ c.id.index + 1
  resolves : ∀ d ∈ chain, ∀ p ∈ d.parent, ∃ outer ∈ chain, s.class? p = some outer
  ends : ∀ ns steps, chain.length ≤ steps →
    s.climb ns steps c = .ended (s.qualifiedName? ns c.id.index)
  unnamed_iff : ∀ ns, s.qualifiedName? ns c.id.index = none ↔ ∃ d ∈ chain, d.name? ns = none
  named_iff : ∀ ns text, s.qualifiedName? ns c.id.index = some text ↔
    ∃ names : List String, chain.map (fun d => d.name? ns) = names.map some ∧
      text = ClassName.dotted names
  nested : ∀ p ∈ c.parent, ∃ outer ∈ chain, s.class? p = some outer ∧
    ∀ ns, s.qualifiedName? ns c.id.index =
      (s.qualifiedName? ns outer.id.index).bind fun around =>
        (c.name? ns).map fun own => around ++ "." ++ ClassName.sourceText ⟨own⟩

theorem Lineage.qualifiedByParents (hs : s.Sound) {c : Class} {chain : List Class}
    (h : s.Lineage c chain) (hc : c ∈ s.classes.elements.toList) :
    s.QualifiedByParents c chain := by
  have hresolves := h.exists_parent hs
  refine ⟨h, h.length_le hs hc, hresolves, fun ns _ => h.climb_eq hs hc ns,
    fun ns => (h.qualified hs hc ns).eq_none_iff,
    fun ns _ => (h.qualified hs hc ns).eq_some_iff, ?_⟩
  intro p hp
  obtain ⟨outer, houter, hfound⟩ := hresolves c h.self_mem p hp
  have hid : outer.id = p := by
    obtain ⟨hset, hat⟩ := class?_eq_some_iff.1 hfound
    rw [hs.ids _ outer hat, ← hset]
  refine ⟨outer, houter, hfound, fun ns => hs.qualifiedName?_inside hc ?_ ns⟩
  rw [hid]
  exact hp

end MappingSet

/-- **Qualified names follow the parents.** Around each class of a reachable set there is
one chain of classes, at whose end the search for a qualified name always arrives, in
every namespace, and which alone decides what is found. -/
theorem qualifiedName_follows_parents {s : MappingSet} (h : s.Reachable) {c : Class}
    (hc : c ∈ s.classes.elements.toList) :
    ∃ chain, s.QualifiedByParents c chain ∧ ∀ other, s.Lineage c other → other = chain := by
  have hs := h.sound
  obtain ⟨chain, hchain⟩ := hs.exists_chain _ c (hs.get?_of_mem hc)
  exact ⟨chain, hchain.qualifiedByParents hs hc, fun _ hother => hs.lineage_unique hother hchain⟩

/-- Three classes, one inside of the other. The one between has no name in the second
namespace, so the innermost one has no qualified name there. -/
theorem qualifiedName_follows_parents_nested :
    let outer := Class.bare ⟨⟨3⟩, 0⟩ ⟨[some "x/Out", some "y/O"]⟩ .unknown none
    let middle := Class.bare ⟨⟨3⟩, 1⟩ ⟨[some "Mid", none]⟩ .unknown (some ⟨⟨3⟩, 0⟩)
    let inner := Class.bare ⟨⟨3⟩, 2⟩ ⟨[some "a/In", some "I"]⟩ .unknown (some ⟨⟨3⟩, 1⟩)
    let s : MappingSet :=
      ⟨⟨3⟩, ["a", "b"], .empty 2, (((Table.empty 2).push outer).push middle).push inner⟩
    s.Reachable ∧ inner ∈ s.classes.elements.toList ∧
      s.QualifiedByParents inner [outer, middle, inner] ∧
      s.climb 0 3 inner = .ended (some "x.Out.Mid.a.In") ∧ s.climb 0 2 inner = .unfinished ∧
      s.qualifiedName? 0 2 = some "x.Out.Mid.a.In" ∧ s.qualifiedName? 1 2 = none := by
  intro outer middle inner s
  have hcreate : MappingSet.create ⟨3⟩ ["a", "b"] = .ok ⟨⟨3⟩, ["a", "b"], .empty 2, .empty 2⟩ := rfl
  have houter : MappingSet.addClass ⟨⟨3⟩, ["a", "b"], .empty 2, .empty 2⟩
      ⟨[some "x/Out", some "y/O"]⟩ .unknown none =
        .ok (⟨⟨3⟩, 0⟩, ⟨⟨3⟩, ["a", "b"], .empty 2, (Table.empty 2).push outer⟩) := rfl
  have hmiddle : MappingSet.addClass ⟨⟨3⟩, ["a", "b"], .empty 2, (Table.empty 2).push outer⟩
      ⟨[some "Mid", none]⟩ .unknown (some ⟨⟨3⟩, 0⟩) = .ok (⟨⟨3⟩, 1⟩,
        ⟨⟨3⟩, ["a", "b"], .empty 2, ((Table.empty 2).push outer).push middle⟩) := rfl
  have hinner : MappingSet.addClass
      ⟨⟨3⟩, ["a", "b"], .empty 2, ((Table.empty 2).push outer).push middle⟩
      ⟨[some "a/In", some "I"]⟩ .unknown (some ⟨⟨3⟩, 1⟩) = .ok (⟨⟨3⟩, 2⟩, s) := rfl
  have hreachable : s.Reachable :=
    .addClass (.addClass (.addClass (.create hcreate) houter) hmiddle) hinner
  have hmem : inner ∈ s.classes.elements.toList := by decide
  have hfirst : outer ∈ s.classes.elements.toList := by decide
  have hsecond : middle ∈ s.classes.elements.toList := by decide
  have hlineage : s.Lineage inner [outer, middle, inner] :=
    .inside hsecond rfl (.inside hfirst rfl (.outermost rfl))
  obtain ⟨chain, hqualified, hunique⟩ := qualifiedName_follows_parents hreachable hmem
  cases hunique _ hlineage
  have hnamed : s.qualifiedName? 0 2 = some "x.Out.Mid.a.In" :=
    (hqualified.named_iff 0 _).2 ⟨["x/Out", "Mid", "a/In"], rfl, by decide +kernel⟩
  have hunnamed : s.qualifiedName? 1 2 = none :=
    (hqualified.unnamed_iff 1).2 ⟨middle, by decide, rfl⟩
  have hclimb := hqualified.ends 0 3 (Nat.le_refl 3)
  exact ⟨hreachable, hmem, hqualified, hclimb.trans (congrArg Climb.ended hnamed),
    by decide +kernel, hnamed, hunnamed⟩

end SymbolMap
