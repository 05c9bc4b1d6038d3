import SymbolMap.Proofs.Descriptor.ClassNames
import SymbolMap.Proofs.MappingSet.Reachable

/-!
# Respelling by walks over the classes

What a class name becomes in another namespace can be told without any index and
without counting positions: walk over the classes up to the first one that has
the name, follow the classes around it to the outermost one
(`MappingSet.Lineage`), and put their names in a row. In a reachable set
`MappingSet.respellName` gives exactly that (`MappingSet.Respelled`).

* `MappingSet.Sound.exists_lineage`: the classes around a class, and its
  qualified name told by them;
* `MappingSet.Sound.respelled_iff`: the spelling of one class name;
* `respell_eq_substitution`: types and descriptors.
-/

namespace SymbolMap

/-! ## Rows of names -/

/-- Names in a row, as class files spell them. -/
def ClassName.slashed (names : List String) : ClassName :=
  ⟨("/".intercalate names).map slashDots⟩

/-- Names in a row, as source code spells them. -/
def ClassName.dotted (names : List String) : String :=
  ".".intercalate (names.map fun name => ClassName.sourceText ⟨name⟩)

theorem slashDots_dotSlashes (c : Char) : slashDots (dotSlashes c) = slashDots c := by
  unfold slashDots dotSlashes
  by_cases hslash : c = '/'
  · rw [hslash]
    rfl
  · simp [hslash]

theorem map_slashDots_eq_iff {text other : String} :
    text.map slashDots = other ↔ text.toList.map slashDots = other.toList := by
  rw [← String.toList_inj, String.toList_map]

/-- A text without dots, and no other one, is alike in both spellings. -/
theorem map_slashDots_eq_self_iff {text : String} :
    text.map slashDots = text ↔ '.' ∉ text.toList := by
  have hchars : ∀ chars : List Char, chars.map slashDots = chars ↔ '.' ∉ chars := by
    intro chars
    induction chars with
    | nil => simp
    | cons c rest ih =>
      have hc : slashDots c = c ↔ '.' ≠ c := by
        unfold slashDots
        by_cases hdot : c = '.'
        · subst hdot
          decide
        · simp [hdot, Ne.symm hdot]
      rw [List.map_cons, List.cons.injEq, ih, hc, List.mem_cons, not_or]
  rw [map_slashDots_eq_iff, hchars]

/-- A text in source spelling is the same class as the text itself. -/
theorem map_slashDots_map_dotSlashes (text : String) :
    (text.map dotSlashes).map slashDots = text.map slashDots := by
  rw [String.map_map]
  exact congrArg (String.map · text) (funext slashDots_dotSlashes)

theorem Text.map_append (f : Char → Char) (s t : String) :
    (s ++ t).map f = s.map f ++ t.map f := by
  apply String.toList_inj.1
  simp only [String.toList_map, String.toList_append, List.map_append]

/-- A name without dots makes a row as it is. -/
theorem ClassName.slashed_singleton {name : String} (h : '.' ∉ name.toList) :
    slashed [name] = ⟨name⟩ := by
  unfold slashed
  rw [String.intercalate_singleton, map_slashDots_eq_self_iff.2 h]

/-- A row in source spelling is the row in the spelling of class files. -/
theorem ClassName.ofSpelling_dotted (names : List String) :
    ClassName.ofSpelling (dotted names) = slashed names := by
  have hone : ∀ name : String, (ClassName.sourceText ⟨name⟩).map slashDots = name.map slashDots :=
    map_slashDots_map_dotSlashes
  have hseparator : ".".map slashDots = "/".map slashDots := by
    apply String.toList_inj.1
    rw [String.toList_map, String.toList_map]
    rfl
  have hrow : (dotted names).map slashDots = ("/".intercalate names).map slashDots := by
    unfold dotted
    induction names with
    | nil => rfl
    | cons name rest ih =>
      cases rest with
      | nil =>
        rw [List.map_singleton, String.intercalate_singleton, String.intercalate_singleton]
        exact hone name
      | cons next rest =>
        rw [List.map_cons] at ih
        rw [List.map_cons, List.map_cons, String.intercalate_cons_cons,
          String.intercalate_cons_cons]
        simp only [Text.map_append, hone, ih, hseparator]
  exact congrArg Symbol.mk hrow

/-- A name at the end of a row. -/
theorem ClassName.dotted_append_singleton {names : List String} (h : names ≠ [])
    (name : String) :
    dotted (names ++ [name]) = dotted names ++ "." ++ ClassName.sourceText ⟨name⟩ := by
  unfold dotted
  rw [List.map_append, String.intercalate_append_of_ne_nil (by simp [h]) (by simp),
    List.map_singleton, String.intercalate_singleton]

namespace MappingSet

/-! ## The classes around a class -/

/-- The classes from the outermost one around a class down to the class itself. -/
inductive Lineage (s : MappingSet) : Class → List Class → Prop
  | outermost {c : Class} : c.parent = none → Lineage s c [c]
  | inside {c outer : Class} {chain : List Class} : outer ∈ s.classes.elements.toList →
      c.parent = some outer.id → Lineage s outer chain → Lineage s c (chain ++ [c])

/-- The qualified name that a chain of classes gives in a namespace: the names of
all of them, or nothing if one of them has no name there. -/
inductive Qualified (ns : Nat) (chain : List Class) : Option String → Prop
  | named {names : List String} : chain.map (fun c => c.name? ns) = names.map some →
      Qualified ns chain (some (ClassName.dotted names))
  | unnamed {c : Class} : c ∈ chain → c.name? ns = none → Qualified ns chain none

theorem Lineage.ne_nil {s : MappingSet} {c : Class} {chain : List Class}
    (h : s.Lineage c chain) : chain ≠ [] := by
  cases h with
  | outermost => exact List.cons_ne_nil _ _
  | inside => simp

/-- The chain ends with the class itself. -/
theorem Lineage.self_mem {s : MappingSet} {c : Class} {chain : List Class}
    (h : s.Lineage c chain) : c ∈ chain := by
  cases h with
  | outermost => exact List.mem_singleton_self c
  | inside => exact List.mem_append_right _ (List.mem_singleton_self c)

/-- How the qualified name of the class at a position is found. -/
theorem qualifiedName?_eq {s : MappingSet} {ns position : Nat} {c : Class}
    (h : s.classes.get? position = some c) :
    s.qualifiedName? ns position =
      (c.name? ns).bind fun name =>
        match c.parent with
        | none => some (ClassName.sourceText ⟨name⟩)
        | some parent => (s.position? parent).bind fun outer =>
          if outer < position then
            (s.qualifiedName? ns outer).bind fun outerName =>
              some (outerName ++ "." ++ ClassName.sourceText ⟨name⟩)
          else none := by
  rw [qualifiedName?, h]
  rfl

/-- A class stands at the position that its id tells. -/
theorem Sound.get?_of_mem {s : MappingSet} (hs : s.Sound) {c : Class}
    (hc : c ∈ s.classes.elements.toList) : s.classes.get? c.id.index = some c := by
  obtain ⟨i, hi⟩ := List.getElem?_of_mem hc
  rw [Array.getElem?_toList] at hi
  rw [hs.ids i c hi]
  exact hi

/-- The class of an id is the one that carries it. -/
theorem Sound.class?_of_mem {s : MappingSet} (hs : s.Sound) {c : Class}
    (hc : c ∈ s.classes.elements.toList) : s.class? c.id = some c := by
  have hat := hs.get?_of_mem hc
  exact class?_eq_some_iff.2 ⟨congrArg ClassId.set (hs.ids _ c hat), hat⟩

/-- No two classes of the set have the same id. -/
theorem Sound.eq_of_id_eq {s : MappingSet} (hs : s.Sound) {c d : Class}
    (hc : c ∈ s.classes.elements.toList) (hd : d ∈ s.classes.elements.toList)
    (h : c.id = d.id) : c = d :=
  Option.some.inj ((hs.class?_of_mem hc).symm.trans (h ▸ hs.class?_of_mem hd))

/-- The qualified name of a class that is nested in no other one is its own name. -/
theorem Sound.qualifiedName?_outermost {s : MappingSet} (hs : s.Sound) {c : Class}
    (hc : c ∈ s.classes.elements.toList) (hparent : c.parent = none) (ns : Nat) :
    s.qualifiedName? ns c.id.index =
      (c.name? ns).map fun own => ClassName.sourceText ⟨own⟩ := by
  rw [qualifiedName?_eq (hs.get?_of_mem hc), hparent]
  cases c.name? ns with
  | none => rfl
  | some own => rfl

/-- The qualified name of a nested class is that of the class around it, with its own
name behind. -/
theorem Sound.qualifiedName?_inside {s : MappingSet} (hs : s.Sound) {c outer : Class}
    (hc : c ∈ s.classes.elements.toList) (hparent : c.parent = some outer.id) (ns : Nat) :
    s.qualifiedName? ns c.id.index =
      (s.qualifiedName? ns outer.id.index).bind fun around =>
        (c.name? ns).map fun own => around ++ "." ++ ClassName.sourceText ⟨own⟩ := by
  have hat := hs.get?_of_mem hc
  obtain ⟨hset, hlt⟩ := hs.parents _ c outer.id hat hparent
  have hposition : s.position? outer.id = some outer.id.index := if_pos hset
  rw [qualifiedName?_eq hat]
  simp only [hparent, hposition, Option.bind_some, if_pos hlt]
  cases c.name? ns with
  | none => cases s.qualifiedName? ns outer.id.index <;> rfl
  | some own => rfl

/-- The search for a qualified name gives what the classes around the class tell. -/
theorem Lineage.qualified {s : MappingSet} (hs : s.Sound) {c : Class} {chain : List Class}
    (h : s.Lineage c chain) (hc : c ∈ s.classes.elements.toList) (ns : Nat) :
    Qualified ns chain (s.qualifiedName? ns c.id.index) := by
  induction h with
  | @outermost c hparent =>
    rw [hs.qualifiedName?_outermost hc hparent]
    cases hname : c.name? ns with
    | none => exact .unnamed List.mem_cons_self hname
    | some name =>
      have hchain : [c].map (fun c => c.name? ns) = [name].map some := by
        simp [hname]
      exact .named hchain
  | @inside c outer chain hmem hparent hchain ih =>
    have hqualified := ih hmem
    rw [hs.qualifiedName?_inside hc hparent]
    generalize s.qualifiedName? ns outer.id.index = around at hqualified
    cases hqualified with
    | unnamed hd hnone => exact .unnamed (List.mem_append_left _ hd) hnone
    | @named names hnames =>
      cases hname : c.name? ns with
      | none => exact .unnamed (List.mem_append_right _ List.mem_cons_self) hname
      | some name =>
        have hne : names ≠ [] := by
          rintro rfl
          exact hchain.ne_nil (List.map_eq_nil_iff.1 hnames)
        show Qualified ns _ (some (ClassName.dotted names ++ "." ++ _))
        rw [← ClassName.dotted_append_singleton hne]
        refine .named ?_
        rw [List.map_append, List.map_append, hnames]
        simp [hname]

/-- The classes around a class end with an outermost one, since each stands behind the one
that it is nested in. -/
theorem Sound.exists_chain {s : MappingSet} (hs : s.Sound) :
    ∀ (position : Nat) (c : Class), s.classes.get? position = some c →
      ∃ chain, s.Lineage c chain := by
  intro position
  induction position using Nat.strongRecOn with
  | ind position ih =>
    intro c hc
    cases hparent : c.parent with
    | none => exact ⟨[c], .outermost hparent⟩
    | some parent =>
      obtain ⟨outer, _, hlt, houter, hid⟩ := hs.exists_parent hc hparent
      obtain ⟨chain, hchain⟩ := ih parent.index hlt outer houter
      have hmem : outer ∈ s.classes.elements.toList :=
        Array.mem_toList_iff.2 (Array.mem_of_getElem? houter)
      exact ⟨chain ++ [c], .inside hmem (hid ▸ hparent) hchain⟩

/-- The search for a qualified name follows the classes around the class to the
outermost one. -/
theorem Sound.exists_lineage {s : MappingSet} (hs : s.Sound) (ns : Nat) {position : Nat}
    {c : Class} (hc : s.classes.get? position = some c) :
    ∃ chain, s.Lineage c chain ∧ Qualified ns chain (s.qualifiedName? ns position) := by
  obtain ⟨chain, hchain⟩ := hs.exists_chain position c hc
  have hqualified :=
    hchain.qualified hs (Array.mem_toList_iff.2 (Array.mem_of_getElem? hc)) ns
  rw [hs.ids position c hc] at hqualified
  exact ⟨chain, hchain, hqualified⟩

/-- There is one chain of classes around a class. -/
theorem Sound.lineage_unique {s : MappingSet} (hs : s.Sound) {c : Class} {chain other : List Class}
    (h : s.Lineage c chain) (h' : s.Lineage c other) : chain = other := by
  induction h generalizing other with
  | outermost hnone =>
    cases h' with
    | outermost => rfl
    | inside _ hsome _ =>
      rw [hnone] at hsome
      cases hsome
  | inside hmem hparent _ ih =>
    cases h' with
    | outermost hnone =>
      rw [hnone] at hparent
      cases hparent
    | inside hmem' hparent' houter' =>
      have hid := Option.some.inj (hparent.symm.trans hparent')
      cases hs.eq_of_id_eq hmem hmem' hid
      rw [ih houter']

/-! ## One class name -/

/-- The class is the first one of the set that has the name in the namespace. -/
def FirstNamed (s : MappingSet) (ns : Nat) (name : String) (c : Class) : Prop :=
  ∃ i : Nat, s.classes.elements.toList[i]? = some c ∧ c.name? ns = some name ∧
    ∀ j < i, ∀ d : Class, s.classes.elements.toList[j]? = some d → d.name? ns ≠ some name

/-- What a class name of one namespace is in another one. If the first class that
has the name, and all classes around it, have names there, it is these in a row. A
name that no class has, or whose class or one around it has no name there, stays
as it is. -/
inductive Respelled (s : MappingSet) (source target : Nat) (name : ClassName) : ClassName → Prop
  | named {c : Class} {chain : List Class} {names : List String} :
      s.FirstNamed source name.text c → s.Lineage c chain →
      chain.map (fun c => c.name? target) = names.map some →
      Respelled s source target name (.slashed names)
  | unnamed {c outer : Class} {chain : List Class} :
      s.FirstNamed source name.text c → s.Lineage c chain → outer ∈ chain →
      outer.name? target = none → Respelled s source target name name
  | unknown : (∀ c ∈ s.classes.elements.toList, c.name? source ≠ some name.text) →
      Respelled s source target name name

theorem FirstNamed.unique {s : MappingSet} {ns : Nat} {name : String} {c d : Class}
    (hc : s.FirstNamed ns name c) (hd : s.FirstNamed ns name d) : c = d := by
  obtain ⟨i, hci, hcname, hcfirst⟩ := hc
  obtain ⟨j, hdj, hdname, hdfirst⟩ := hd
  rcases Nat.lt_trichotomy i j with hlt | rfl | hlt
  · exact absurd hcname (hdfirst i hlt c hci)
  · exact Option.some.inj (hci.symm.trans hdj)
  · exact absurd hdname (hcfirst j hlt d hdj)

theorem FirstNamed.mem {s : MappingSet} {ns : Nat} {name : String} {c : Class}
    (h : s.FirstNamed ns name c) : c ∈ s.classes.elements.toList ∧ c.name? ns = some name := by
  obtain ⟨i, hat, hname, _⟩ := h
  exact ⟨List.mem_of_getElem? hat, hname⟩

/-- A chain of classes that all have names holds none without a name. -/
theorem name?_ne_none_of_map_eq {ns : Nat} {chain : List Class} {names : List String}
    (h : chain.map (fun c => c.name? ns) = names.map some) {c : Class} (hc : c ∈ chain) :
    c.name? ns ≠ none := by
  intro hnone
  have hmem : c.name? ns ∈ names.map some := h ▸ List.mem_map_of_mem hc
  rw [hnone] at hmem
  obtain ⟨_, _, hsome⟩ := List.mem_map.1 hmem
  cases hsome

theorem Sound.respelled_unique {s : MappingSet} (hs : s.Sound) {source target : Nat}
    {name new other : ClassName} (h : s.Respelled source target name new)
    (h' : s.Respelled source target name other) : new = other := by
  -- the first class and the chain around it are the same, so they have names or not
  cases h with
  | named hfirst hchain hnames =>
    cases h' with
    | named hfirst' hchain' hnames' =>
      cases hfirst.unique hfirst'
      cases hs.lineage_unique hchain hchain'
      rw [(List.map_inj_right fun _ _ => Option.some.inj).1 (hnames.symm.trans hnames')]
    | unnamed hfirst' hchain' houter hnone =>
      cases hfirst.unique hfirst'
      cases hs.lineage_unique hchain hchain'
      exact absurd hnone (name?_ne_none_of_map_eq hnames houter)
    | unknown hunknown => exact absurd hfirst.mem.2 (hunknown _ hfirst.mem.1)
  | unnamed hfirst hchain houter hnone =>
    cases h' with
    | named hfirst' hchain' hnames' =>
      cases hfirst.unique hfirst'
      cases hs.lineage_unique hchain hchain'
      exact absurd hnone (name?_ne_none_of_map_eq hnames' houter)
    | unnamed => rfl
    | unknown => rfl
  | unknown hunknown =>
    cases h' with
    | named hfirst' => exact absurd hfirst'.mem.2 (hunknown _ hfirst'.mem.1)
    | unnamed => rfl
    | unknown => rfl

/-- The look-up of a class and the search for its qualified name respell its
name. -/
theorem Sound.respelled_respellName {s : MappingSet} (hs : s.Sound) {source : Nat}
    (hsource : source < s.width) (target : Nat) (name : ClassName) :
    s.Respelled source target name (s.respellName source target name) := by
  have hhead := hs.classes.head?_namedAt hsource name.text
  unfold respellName
  cases hfound : s.classes.namedAt source name.text with
  | nil =>
    rw [hfound] at hhead
    refine .unknown fun c hc hname => ?_
    have hnot := firstFit_eq_none_iff.1 hhead.symm c hc
    exact absurd hname (beq_eq_false_iff_ne.1 hnot)
  | cons found rest =>
    rw [hfound] at hhead
    obtain ⟨hat, hfits, hbefore⟩ := firstFit_eq_some_iff.1 hhead.symm
    have hfirst : s.FirstNamed source name.text found.item :=
      ⟨found.position, hat, eq_of_beq hfits, fun j hj d hd =>
        beq_eq_false_iff_ne.1 (hbefore j hj d hd)⟩
    obtain ⟨chain, hchain, hqualified⟩ :=
      hs.exists_lineage target (Array.getElem?_toList.symm.trans hat)
    cases hname : s.qualifiedName? target found.position with
    | some qualified =>
      rw [hname] at hqualified
      cases hqualified with
      | named hnames =>
        simp only [hname]
        rw [ClassName.ofSpelling_dotted]
        exact .named hfirst hchain hnames
    | none =>
      rw [hname] at hqualified
      cases hqualified with
      | unnamed houter hnone =>
        simp only [hname]
        exact .unnamed hfirst hchain houter hnone

/-- A class name is respelled in one way. -/
theorem Sound.respelled_iff {s : MappingSet} (hs : s.Sound) {source : Nat}
    (hsource : source < s.width) {target : Nat} {name new : ClassName} :
    s.Respelled source target name new ↔ new = s.respellName source target name := by
  have hname := hs.respelled_respellName hsource target name
  constructor
  · exact fun h => hs.respelled_unique h hname
  · rintro rfl
    exact hname

/-! ## Types and descriptors -/

/-- The namespace at a position has this position for its index. -/
theorem getElem?_namespaces (s : MappingSet) (i : Nat) :
    s.namespaces[i]? = (s.namespaceNames[i]?).map fun name => ⟨name, i, s.id⟩ :=
  List.getElem?_mapIdx

theorem index_of_getElem? {s : MappingSet} {i : Nat} {ns : Namespace}
    (h : s.namespaces[i]? = some ns) : ns.index = i := by
  rw [getElem?_namespaces] at h
  obtain ⟨name, _, rfl⟩ := Option.map_eq_some_iff.1 h
  rfl

/-- There is a namespace at each index of the set. -/
theorem exists_namespace {s : MappingSet} {i : Nat} (h : i < s.width) :
    ∃ ns, s.namespaces[i]? = some ns := by
  rw [getElem?_namespaces, List.getElem?_eq_getElem h]
  exact ⟨_, rfl⟩

/-- A namespace that resolves has an index of the set. -/
theorem indexOf_lt {s : MappingSet} {ns : Namespace} {index : Nat}
    (h : s.indexOf ns = .ok index) : index < s.width := by
  unfold indexOf at h
  split at h
  · split at h
    · rename_i hlt
      cases h
      exact hlt
    · cases h
  · split at h
    · rename_i own hfound
      cases h
      unfold findNamespace? namespaces at hfound
      obtain ⟨i, hi, rfl⟩ := List.mem_mapIdx.1 (List.mem_of_find?_eq_some hfound)
      exact hi
    · cases h

/-- A namespace of the set resolves to its own index. -/
theorem indexOf_of_mem {s : MappingSet} {ns : Namespace} (h : ns ∈ s.namespaces) :
    s.indexOf ns = .ok ns.index := by
  unfold namespaces at h
  obtain ⟨i, hi, rfl⟩ := List.mem_mapIdx.1 h
  unfold indexOf
  rw [if_pos rfl]
  exact if_pos hi

section Respell

variable {τ : Type} [NamesClasses τ]

open NamesClasses

/-- What respelling a value has to do, told by walks over the classes. It fails if
the value names a class and a namespace does not resolve. It leaves the value as it
is if there is no class name in it or both namespaces are the same. In all other
cases each class name is replaced by what it is in the other namespace. -/
structure RespellsByWalk (s : MappingSet) (source target : Namespace) (v : τ) : Prop where
  refused : (∃ e, s.respell source target v = .error e) ↔
    classNames v ≠ [] ∧
      ((∃ e, s.indexOf source = .error e) ∨ ∃ e, s.indexOf target = .error e)
  unchanged : (classNames v = [] ∨
    ∃ ns, s.indexOf source = .ok ns ∧ s.indexOf target = .ok ns) →
      s.respell source target v = .ok v
  substituted : ∀ a b, s.indexOf source = .ok a → s.indexOf target = .ok b → a ≠ b →
    classNames v ≠ [] →
      ∃ f : ClassName → ClassName, (∀ name new, s.Respelled a b name new ↔ new = f name) ∧
        s.respell source target v = .ok (substitute f v)

theorem respellAt_self {s : MappingSet} (ns : Nat) (v : τ) : s.respellAt ns ns v = v := by
  unfold respellAt
  simp

theorem respellAt_of_no_names {s : MappingSet} {v : τ} (h : classNames v = [])
    (source target : Nat) : s.respellAt source target v = v := by
  have hnot : ¬ MentionsClasses.mentionsClass v = true := fun hmentions =>
    (mentionsClass_iff v).1 hmentions h
  unfold respellAt
  simp [hnot]

theorem respellAt_of_names {s : MappingSet} {v : τ} (h : classNames v ≠ []) {source target : Nat}
    (hne : source ≠ target) :
    s.respellAt source target v = substitute (s.respellName source target) v := by
  have hmentions := (mentionsClass_iff v).2 h
  unfold respellAt
  rw [if_neg, mapClasses_eq]
  simp [hne, hmentions]

theorem respell_of_no_names {s : MappingSet} {source target : Namespace} {v : τ}
    (h : classNames v = []) : s.respell source target v = .ok v :=
  if_neg fun hmentions => (mentionsClass_iff v).1 hmentions h

theorem respell_of_names {s : MappingSet} {source target : Namespace} {v : τ}
    (h : classNames v ≠ []) :
    s.respell source target v =
      (s.indexOf source).bind fun a => (s.indexOf target).map fun b => s.respellAt a b v := by
  have hmentions := (mentionsClass_iff v).2 h
  unfold respell
  rw [if_pos hmentions]
  cases s.indexOf source with
  | error e => rfl
  | ok a =>
    cases s.indexOf target with
    | error e => rfl
    | ok b => rfl

theorem Sound.respellsByWalk {s : MappingSet} (hs : s.Sound) (source target : Namespace) (v : τ) :
    s.RespellsByWalk source target v := by
  constructor
  · by_cases hnames : classNames v = []
    · rw [respell_of_no_names hnames]
      simp [hnames]
    · rw [respell_of_names hnames]
      cases s.indexOf source with
      | error e => simp [hnames, Except.bind]
      | ok a =>
        cases s.indexOf target with
        | error e => simp [hnames, Except.bind, Except.map]
        | ok b => simp [Except.bind, Except.map]
  · rintro (hnames | ⟨ns, hsource, htarget⟩)
    · exact respell_of_no_names hnames
    · by_cases hnames : classNames v = []
      · exact respell_of_no_names hnames
      · rw [respell_of_names hnames, hsource, htarget]
        exact congrArg Except.ok (respellAt_self ns v)
  · intro a b hsource htarget hne hnames
    refine ⟨s.respellName a b, fun name new => hs.respelled_iff (indexOf_lt hsource), ?_⟩
    rw [respell_of_names hnames, hsource, htarget]
    exact congrArg Except.ok (respellAt_of_names hnames hne)

end Respell

end MappingSet

/-- **Respelling is substitution.** In a reachable set, respelling a field type, a
return type or a descriptor of a method from any namespace to any other one does
what walks over the classes tell. -/
theorem respell_eq_substitution {s : MappingSet} (h : s.Reachable) (source target : Namespace) :
    (∀ t : FieldType, s.RespellsByWalk source target t) ∧
      (∀ t : ReturnType, s.RespellsByWalk source target t) ∧
      ∀ d : MethodDescriptor, s.RespellsByWalk source target d :=
  ⟨h.sound.respellsByWalk source target, h.sound.respellsByWalk source target,
    h.sound.respellsByWalk source target⟩

/-- An inner class in an array of arrays gets the name of the class around it in
front, and its 300 dimensions stop at 255. -/
theorem respell_eq_substitution_nested :
    let outer := Class.bare ⟨⟨3⟩, 0⟩ ⟨[some "x/Outer", some "y.Out"]⟩ .unknown none
    let inner := Class.bare ⟨⟨3⟩, 1⟩ ⟨[some "x/In", some "In"]⟩ .unknown (some ⟨⟨3⟩, 0⟩)
    let s : MappingSet :=
      ⟨⟨3⟩, ["a", "b"], .empty 2, ((Table.empty 2).push outer).push inner⟩
    s.Reachable ∧
      s.respell ⟨"a", 0, ⟨3⟩⟩ ⟨"b", 1, ⟨3⟩⟩ (FieldType.array (.array (.object ⟨"x/In"⟩) 200) 100) =
        .ok (.array (.object ⟨"y/Out/In"⟩) 255) := by
  intro outer inner s
  have hcreate : MappingSet.create ⟨3⟩ ["a", "b"] = .ok ⟨⟨3⟩, ["a", "b"], .empty 2, .empty 2⟩ := rfl
  have houter : MappingSet.addClass ⟨⟨3⟩, ["a", "b"], .empty 2, .empty 2⟩
      ⟨[some "x/Outer", some "y.Out"]⟩ .unknown none =
        .ok (⟨⟨3⟩, 0⟩, ⟨⟨3⟩, ["a", "b"], .empty 2, (Table.empty 2).push outer⟩) := rfl
  have hinner : MappingSet.addClass ⟨⟨3⟩, ["a", "b"], .empty 2, (Table.empty 2).push outer⟩
      ⟨[some "x/In", some "In"]⟩ .unknown (some ⟨⟨3⟩, 0⟩) = .ok (⟨⟨3⟩, 1⟩, s) := rfl
  have hreachable : s.Reachable := .addClass (.addClass (.create hcreate) houter) hinner
  refine ⟨hreachable, ?_⟩
  obtain ⟨f, hf, hrespell⟩ :=
    ((respell_eq_substitution hreachable ⟨"a", 0, ⟨3⟩⟩ ⟨"b", 1, ⟨3⟩⟩).1
      (.array (.array (.object ⟨"x/In"⟩) 200) 100)).substituted 0 1 rfl rfl (by decide) (by decide)
  -- the walk ends at `inner`, and from there goes on to `outer`
  have hfirst : s.FirstNamed 0 "x/In" inner := by
    refine ⟨1, rfl, rfl, fun j hj d hd => ?_⟩
    have hj : j = 0 := by omega
    subst hj
    cases hd
    decide
  have hchain : s.Lineage inner [outer, inner] :=
    .inside (c := inner) (List.mem_cons_self) rfl (.outermost rfl)
  have hname : f ⟨"x/In"⟩ = .slashed ["y.Out", "In"] :=
    ((hf ⟨"x/In"⟩ _).1 (.named hfirst hchain rfl)).symm
  have hspelled : ClassName.slashed ["y.Out", "In"] = ⟨"y/Out/In"⟩ := by
    refine congrArg Symbol.mk (String.toList_inj.1 ?_)
    rw [String.toList_map]
    rfl
  have hvalue : NamesClasses.substitute f
      (FieldType.array (.array (.object ⟨"x/In"⟩) 200) 100) =
        .array (.object (f ⟨"x/In"⟩)) 255 := rfl
  rw [hrespell, hvalue, hname, hspelled]

end SymbolMap
