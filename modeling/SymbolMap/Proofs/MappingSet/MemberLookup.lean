import SymbolMap.MappingSet.Query
import SymbolMap.Proofs.MappingSet.ThereAndBack

/-!
# Looking up a method by its own spelling

A set spells the descriptor of a method in any of its namespaces, and looks a method
up by a descriptor that is spelled in any of them. To spell a descriptor, an inner
class is given by its qualified name, with the names of the classes around it in
front. A look-up takes each class name for the plain name of a class. So a method is
found by its own spelling exactly if all class names in its descriptor come back
(`MappingSet.mem_membersIn_own_iff`), and only those of inner classes can fail to
(`found_by_own_spelling_iff`).
-/

namespace SymbolMap

namespace MappingSet

variable {s : MappingSet}

/-! ## Members that a reference means -/

section Members

variable {α σ : Type} {kind : SymbolKind} [IsMember α kind σ] [MentionsClasses σ] [DecidableEq σ]

/-- A look-up in a namespace of the set gives the members that are meant there. -/
theorem membersIn_of_mem {space : Namespace} (h : space ∈ s.namespaces) (pool : List α)
    (ref : MemberRef kind σ) :
    s.membersIn pool space ref = .ok (s.membersAt pool space.index ref) := by
  unfold membersIn
  rw [indexOf_of_mem h]
  rfl

/-- The namespace at a position is resolved to this position. -/
theorem membersIn_of_getElem? {space : Namespace} {ns : Nat}
    (h : s.namespaces[ns]? = some space) (pool : List α) (ref : MemberRef kind σ) :
    s.membersIn pool space ref = .ok (s.membersAt pool ns ref) := by
  rw [membersIn_of_mem (List.mem_of_getElem? h), index_of_getElem? h]

theorem mem_membersAt_iff {pool : List α} {ns : Nat} {ref : MemberRef kind σ} {e : Entry α} :
    e ∈ s.membersAt pool ns ref ↔
      pool[e.position]? = some e.item ∧ s.isMeantAt ns ref e.item = true := by
  unfold membersAt
  rw [List.mem_filter, Entry.mem_ofList]

end Members

/-- A method is meant by a name that it has and the descriptor that it has in the
first namespace. -/
theorem isMeantAt_iff {m : Method} {ns : Nat} {name : MethodName} {spelled : MethodDescriptor} :
    s.isMeantAt ns ⟨name, some spelled⟩ m = true ↔
      m.name? ns = some name.text ∧ s.respellAt ns homeIndex spelled = m.descriptor := by
  have hname : (IsElement.element m).name? ns = m.name? ns := rfl
  have hsignature : IsMember.signature? m = some m.descriptor := rfl
  rw [eq_comm (b := m.descriptor)]
  simp [isMeantAt, hname, hsignature]

/-! ## The own spelling of a method -/

theorem indexOf_home (h : homeIndex < s.width) : s.indexOf s.home = .ok homeIndex := by
  have hset : s.home.set = s.id := rfl
  unfold indexOf
  rw [if_pos hset]
  exact if_pos h

/-- In each namespace of the set a method has a spelling of its descriptor. -/
theorem descriptorOf_eq {space : Namespace} (h : space ∈ s.namespaces) (m : Method) :
    s.descriptorOf m space = .ok (s.respellAt homeIndex space.index m.descriptor) := by
  have hspace := indexOf_of_mem h
  have hwidth : homeIndex < s.width := Nat.lt_of_le_of_lt (Nat.zero_le _) (indexOf_lt hspace)
  exact respell_eq_respellAt (indexOf_home hwidth) hspace m.descriptor

/-- A method is found by its own spelling exactly if each class name in its
descriptor comes back. -/
theorem mem_membersIn_own_iff {pool : List Method} {i : Nat} {m : Method} (hm : pool[i]? = some m)
    (hwell : m.descriptor.WellFormed) {space : Namespace} (hspace : space ∈ s.namespaces)
    {name : String} (hname : m.name? space.index = some name) :
    ∃ own found, s.descriptorOf m space = .ok own ∧
      s.membersIn pool space ⟨⟨name⟩, some own⟩ = .ok found ∧
      ((⟨i, m⟩ : Entry Method) ∈ found ↔ ∀ mentioned ∈ m.descriptor.classNames,
        s.translateName space.index homeIndex
          (s.translateName homeIndex space.index mentioned) = mentioned) := by
  refine ⟨_, _, descriptorOf_eq hspace m, membersIn_of_mem hspace _ _, ?_⟩
  rw [mem_membersAt_iff, isMeantAt_iff]
  have hback := respellAt_respellAt_eq_iff (s := s)
    (RenamesClasses.flat_eq m.descriptor hwell) homeIndex space.index
  constructor
  · rintro ⟨-, -, hsame⟩
    exact hback.1 hsame
  · intro hnames
    exact ⟨hm, hname, hback.2 hnames⟩

/-! ## Class names that come back -/

/-- Each class has a name of its own in each namespace, and none of them has a dot in
it. -/
structure FullyNamed (s : MappingSet) : Prop where
  named : ∀ c ∈ s.classes.elements.toList, ∀ ns < s.width, c.name? ns ≠ none
  dotless : s.Dotless
  distinct : ∀ ns < s.width, s.DistinctNames ns

instance : Decidable s.FullyNamed :=
  decidable_of_iff ((∀ c ∈ s.classes.elements.toList, ∀ ns < s.width, c.name? ns ≠ none) ∧
    s.Dotless ∧ ∀ ns < s.width, s.DistinctNames ns)
    ⟨fun h => ⟨h.1, h.2.1, h.2.2⟩, fun h => ⟨h.named, h.dotless, h.distinct⟩⟩

/-- The name is that of a class in the first namespace, or no class has it in any
namespace. -/
def HomeSpelled (s : MappingSet) (name : ClassName) : Prop :=
  (∃ c ∈ s.classes.elements.toList, c.name? homeIndex = some name.text) ∨
    ∀ c ∈ s.classes.elements.toList, ∀ ns < s.width, c.name? ns ≠ some name.text

instance (name : ClassName) : Decidable (s.HomeSpelled name) :=
  inferInstanceAs (Decidable ((∃ c ∈ s.classes.elements.toList,
    c.name? homeIndex = some name.text) ∨
      ∀ c ∈ s.classes.elements.toList, ∀ ns < s.width, c.name? ns ≠ some name.text))

/-- The name is that of an inner class in the first namespace. -/
def NamesInner (s : MappingSet) (name : ClassName) : Prop :=
  ∃ c ∈ s.classes.elements.toList, c.name? homeIndex = some name.text ∧ c.parent ≠ none

instance (name : ClassName) : Decidable (s.NamesInner name) :=
  inferInstanceAs (Decidable (∃ c ∈ s.classes.elements.toList,
    c.name? homeIndex = some name.text ∧ c.parent ≠ none))

/-- What the name of the first namespace is in another one, is that name in the first
namespace. -/
def Returns (s : MappingSet) (ns : Nat) (name : ClassName) : Prop :=
  ∃ spelled, s.Respelled homeIndex ns name spelled ∧ s.Respelled ns homeIndex spelled name

theorem Sound.returns_iff (hs : s.Sound) (hwidth : homeIndex < s.width) {ns : Nat}
    (hns : ns < s.width) {name : ClassName} :
    s.Returns ns name ↔ s.respellName ns homeIndex (s.respellName homeIndex ns name) = name := by
  constructor
  · rintro ⟨spelled, hthere, hback⟩
    obtain rfl := (hs.respelled_iff hwidth).1 hthere
    exact ((hs.respelled_iff hns).1 hback).symm
  · intro hsame
    exact ⟨_, (hs.respelled_iff hwidth).2 rfl, (hs.respelled_iff hns).2 hsame.symm⟩

/-- A class name can fail to come back only from another namespace, and only if it is
that of an inner class. -/
theorem Sound.translateName_back_iff (hs : s.Sound) (hnames : s.FullyNamed) {ns : Nat}
    (hns : ns < s.width) {name : ClassName} (hname : s.HomeSpelled name) :
    s.translateName ns homeIndex (s.translateName homeIndex ns name) = name ↔
      ns = homeIndex ∨ (s.NamesInner name → s.Returns ns name) := by
  have hwidth : homeIndex < s.width := Nat.lt_of_le_of_lt (Nat.zero_le _) hns
  by_cases hhome : ns = homeIndex
  · subst hhome
    simp [translateName_self]
  · rw [hs.returns_iff hwidth hns, or_iff_right hhome, translateName_of_ne hhome,
      translateName_of_ne (Ne.symm hhome)]
    constructor
    · exact fun hback _ => hback
    · intro hinner
      rcases hname with ⟨c, hc, hcname⟩ | hunknown
      · by_cases houter : c.parent = none
        · have hback := hs.translateName_back_of_outermost hnames.dotless hwidth
            hns (hnames.distinct _ hwidth) (hnames.distinct _ hns) hc houter hcname
            (hnames.named c hc ns hns)
          rwa [translateName_of_ne hhome, translateName_of_ne (Ne.symm hhome)] at hback
        · exact hinner ⟨c, hc, hcname, houter⟩
      · have hthere : s.respellName homeIndex ns name = name :=
          hs.respellName_of_unknown hwidth (fun c hc => hunknown c hc _ hwidth) ns
        rw [hthere]
        exact hs.respellName_of_unknown hns (fun c hc => hunknown c hc _ hns) homeIndex

end MappingSet

open MappingSet (homeIndex)

/-- **A method is found by its own spelling exactly if the inner classes in its
descriptor are.** In a reachable set whose classes all have names of their own,
without dots, take a method whose well-formed descriptor names classes as the first
namespace does, or such as no class is named. Spelled in the first namespace it is
always found. Spelled in another one it is found exactly if each name of an inner
class comes back to what it was. -/
theorem found_by_own_spelling_iff {s : MappingSet} (h : s.Reachable) (hnames : s.FullyNamed)
    {c : Class} {i : Nat} {m : Method} (hm : c.methods[i]? = some m)
    (hwell : m.descriptor.WellFormed)
    (hspelled : ∀ mentioned ∈ m.descriptor.classNames, s.HomeSpelled mentioned)
    {space : Namespace} (hspace : space ∈ s.namespaces) {name : String}
    (hname : m.name? space.index = some name) :
    ∃ own found, s.descriptorOf m space = .ok own ∧
      s.membersIn c.methods space ⟨⟨name⟩, some own⟩ = .ok found ∧
      ((⟨i, m⟩ : Entry Method) ∈ found ↔ space.index = homeIndex ∨
        ∀ mentioned ∈ m.descriptor.classNames, s.NamesInner mentioned →
          s.Returns space.index mentioned) := by
  obtain ⟨own, found, hown, hfound, hiff⟩ :=
    MappingSet.mem_membersIn_own_iff hm hwell hspace hname
  refine ⟨own, found, hown, hfound, hiff.trans ?_⟩
  have hns : space.index < s.width := MappingSet.indexOf_lt (MappingSet.indexOf_of_mem hspace)
  have hback := fun mentioned hmentioned =>
    h.sound.translateName_back_iff hnames hns (hspelled mentioned hmentioned)
  constructor
  · intro hall
    by_cases hhome : space.index = homeIndex
    · exact .inl hhome
    · refine .inr fun mentioned hmentioned => ?_
      exact ((hback mentioned hmentioned).1 (hall mentioned hmentioned)).resolve_left hhome
  · intro hcase mentioned hmentioned
    exact (hback mentioned hmentioned).2 (hcase.imp_right fun hall => hall mentioned hmentioned)

/-! ## An inner class in a descriptor -/

namespace MappingSet

/-- A method of the first class of a set, with a name in both namespaces. -/
def firstMethod (d : MethodDescriptor) : Method :=
  { names := ⟨[some "m", some "n"]⟩, origin := .unknown, id := ⟨⟨⟨3⟩, 0⟩, 0⟩, descriptor := d,
    flags := .unknown, toVariables := .none }

/-- A class with one method, that is named in both namespaces. -/
def aroundClass (home other : String) (d : MethodDescriptor) : Class :=
  { Class.bare ⟨⟨3⟩, 0⟩ ⟨[some home, some other]⟩ .unknown none with methods := [firstMethod d] }

/-- A class inside of the first one of its set. -/
def insideClass (home other : String) : Class :=
  .bare ⟨⟨3⟩, 1⟩ ⟨[some home, some other]⟩ .unknown (some ⟨⟨3⟩, 0⟩)

/-- A set of two namespaces with these two classes. -/
def twoClasses (around inside : Class) : MappingSet :=
  ⟨⟨3⟩, ["a", "b"], .empty 2, ((Table.empty 2).push around).push inside⟩

theorem reachable_twoClasses (h o h' o' : String) (d : MethodDescriptor) :
    (twoClasses (aroundClass h o d) (insideClass h' o')).Reachable := by
  let around := Class.bare ⟨⟨3⟩, 0⟩ ⟨[some h, some o]⟩ .unknown none
  have hcreate : create ⟨3⟩ ["a", "b"] = .ok ⟨⟨3⟩, ["a", "b"], .empty 2, .empty 2⟩ := rfl
  have haround : addClass ⟨⟨3⟩, ["a", "b"], .empty 2, .empty 2⟩ ⟨[some h, some o]⟩ .unknown none =
      .ok (⟨⟨3⟩, 0⟩, ⟨⟨3⟩, ["a", "b"], .empty 2, (Table.empty 2).push around⟩) := rfl
  have hinside : addClass ⟨⟨3⟩, ["a", "b"], .empty 2, (Table.empty 2).push around⟩
      ⟨[some h', some o']⟩ .unknown (some ⟨⟨3⟩, 0⟩) =
        .ok (⟨⟨3⟩, 1⟩, twoClasses around (insideClass h' o')) := rfl
  have hmethod : (twoClasses around (insideClass h' o')).addMethod ⟨⟨3⟩, 0⟩ ⟨[some "m", some "n"]⟩
      .unknown d .unknown (fun m => .ok ((), m)) =
        .ok ((), twoClasses (aroundClass h o d) (insideClass h' o')) := rfl
  have hfill : ∀ (m : Method) (a : Unit) (n : Method),
      (.ok ((), m) : Except MappingError (Unit × Method)) = .ok (a, n) → m.Grows n := by
    rintro m a n ⟨⟩
    exact .refl m
  exact .addMethod (.addClass (.addClass (.create hcreate) haround) hinside) hfill hmethod

end MappingSet

open MappingSet (firstMethod aroundClass insideClass twoClasses reachable_twoClasses)

/-- The qualified name of the inner class in the second namespace is its name in the
first one, so it comes back although the class is not looked up by it. -/
theorem found_by_own_spelling_iff_inner :
    let d : MethodDescriptor :=
      ⟨[.object ⟨"p/O"⟩, .array (.object ⟨"x/I"⟩) 1], .value (.object ⟨"q/U"⟩)⟩
    let around := aroundClass "p/O" "x" d
    let s := twoClasses around (insideClass "x/I" "I")
    s.Reachable ∧ ∃ own found, s.descriptorOf (firstMethod d) ⟨"b", 1, ⟨3⟩⟩ = .ok own ∧
      s.membersIn around.methods ⟨"b", 1, ⟨3⟩⟩ ⟨⟨"n"⟩, some own⟩ = .ok found ∧
      ⟨0, firstMethod d⟩ ∈ found := by
  intro d around s
  have hreachable : s.Reachable := reachable_twoClasses _ _ _ _ _
  have hnames : s.FullyNamed := by decide
  have hwell : d.WellFormed := by
    refine ⟨?_, by decide, by decide⟩
    simp [d, FieldType.WellFormed, FieldType.isArray, ClassName.Spellable]
  have hspelled : ∀ mentioned ∈ d.classNames, s.HomeSpelled mentioned := by decide
  obtain ⟨own, found, hown, hfound, hiff⟩ :=
    found_by_own_spelling_iff hreachable hnames (rfl : around.methods[0]? = some (firstMethod d))
      hwell hspelled (by decide : (⟨"b", 1, ⟨3⟩⟩ : Namespace) ∈ s.namespaces)
      (rfl : (firstMethod d).name? 1 = some "n")
  refine ⟨hreachable, own, found, hown, hfound, hiff.2 (.inr ?_)⟩
  intro mentioned hmentioned hinner
  have hone : ∀ name ∈ d.classNames, s.NamesInner name → name = ⟨"x/I"⟩ := by decide
  cases hone mentioned hmentioned hinner
  -- to the qualified name of the class, which is no plain name in the second namespace
  have hfirst : s.FirstNamed homeIndex "x/I" (insideClass "x/I" "I") :=
    (hnames.distinct 0 (by decide)).firstNamed (by decide) rfl
  have hchain : s.Lineage (insideClass "x/I" "I") [around, insideClass "x/I" "I"] :=
    .inside List.mem_cons_self rfl (.outermost rfl)
  have hqualified : ClassName.slashed ["x", "I"] = ⟨"x/I"⟩ := by
    refine congrArg Symbol.mk (String.toList_inj.1 ?_)
    rw [String.toList_map]
    rfl
  refine ⟨.slashed ["x", "I"], .named hfirst hchain rfl, ?_⟩
  rw [hqualified]
  exact .unknown (by decide)

/-- An inner class is spelled by its qualified name in the second namespace, but it is
looked up by its plain one, so the method is not found. -/
theorem not_found_by_own_spelling_of_inner :
    let d : MethodDescriptor := ⟨[.object ⟨"x/I"⟩], .void⟩
    let around := aroundClass "x/O" "y/P" d
    let s := twoClasses around (insideClass "x/I" "y/Q")
    s.Reachable ∧ s.FullyNamed ∧ around ∈ s.classes.elements.toList ∧
      around.methods = [firstMethod d] ∧ d.WellFormed ∧
      (∀ mentioned ∈ d.classNames, s.HomeSpelled mentioned) ∧
      (⟨"b", 1, ⟨3⟩⟩ : Namespace) ∈ s.namespaces ∧ (firstMethod d).name? 1 = some "n" ∧
      s.descriptorOf (firstMethod d) ⟨"b", 1, ⟨3⟩⟩ = .ok ⟨[.object ⟨"y/P/y/Q"⟩], .void⟩ ∧
      s.membersIn around.methods ⟨"b", 1, ⟨3⟩⟩
        ⟨⟨"n"⟩, some ⟨[.object ⟨"y/P/y/Q"⟩], .void⟩⟩ = .ok [] := by
  intro d around s
  have hnames : s.FullyNamed := by decide
  have hwell : d.WellFormed := by
    refine ⟨?_, trivial⟩
    simp [d, FieldType.WellFormed, ClassName.Spellable]
  have hspelled : ∀ mentioned ∈ d.classNames, s.HomeSpelled mentioned := by decide
  have hspace : (⟨"b", 1, ⟨3⟩⟩ : Namespace) ∈ s.namespaces := by decide
  refine ⟨reachable_twoClasses _ _ _ _ _, hnames, List.mem_cons_self, rfl, hwell, hspelled, hspace,
    rfl, ?_, ?_⟩
  · rw [MappingSet.descriptorOf_eq hspace]
    exact congrArg Except.ok (by decide +kernel)
  · rw [MappingSet.membersIn_of_mem hspace]
    exact congrArg Except.ok (by decide +kernel)

end SymbolMap
