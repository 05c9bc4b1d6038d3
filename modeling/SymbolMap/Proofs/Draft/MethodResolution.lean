import SymbolMap.Proofs.Draft.Building
import SymbolMap.Proofs.Draft.MethodLookup
import SymbolMap.Proofs.MappingSet.MemberLookup

/-!
# Referring to a method before and after building

A draft of a class compares the descriptor of a reference as it is, in whatever
namespace the reference is spelled, and keeps it so. A set takes the descriptor of
a reference to be spelled in the namespace of the reference, and compares what it
is in the first namespace. So a method that was looked up in a draft is found by
the same reference in the set exactly if its descriptor is the same in both
namespaces (`methodRef_found_iff`).
-/

namespace SymbolMap

open ClassDraft (preorder)
open MappingSet (homeIndex)

/-! ## Methods of a draft and of its class -/

namespace MethodDraft

/-- What a class has of the method of a draft at a position. In front of it are the
methods of the drafts before that have a descriptor. -/
def entry (owner : ClassId) (methods : List MethodDraft) (p : Nat) (m : MethodDraft)
    (descriptor : MethodDescriptor) : Entry Method :=
  let q := (described (methods.take p)).length
  ⟨q, m.element ⟨owner, q⟩ descriptor⟩

/-- Where the first draft that fits is at some position, its method stands behind
the methods of the drafts in front of that one. -/
theorem elements_of_firstFit {fits : MethodDraft → Bool} {methods : List MethodDraft} {p : Nat}
    {m : MethodDraft} {descriptor : MethodDescriptor} (h : firstFit fits methods = some ⟨p, m⟩)
    (hdescriptor : m.descriptor = some descriptor) (owner : ClassId) :
    ∃ before after, elements owner 0 methods =
        before ++ (entry owner methods p m descriptor).item :: after ∧
      before.length = (entry owner methods p m descriptor).position ∧
      ∀ x ∈ before, ∃ n id own, x = element n id own ∧ n.descriptor = some own ∧
        fits n = false := by
  obtain ⟨after, hsplit, hbefore⟩ := exists_append_of_firstFit h
  have hall : elements owner 0 methods = elements owner 0 (methods.take p) ++
      (entry owner methods p m descriptor).item ::
        elements owner ((described (methods.take p)).length + 1) after := by
    conv => lhs; rw [hsplit]
    rw [elements_append, elements_cons_of_some hdescriptor, Nat.zero_add]
    rfl
  refine ⟨_, _, hall, length_elements _ _ _, fun x hx => ?_⟩
  obtain ⟨n, hn, id, own, hown, rfl⟩ := exists_of_mem_elements hx
  exact ⟨n, id, own, rfl, hown, hbefore n hn⟩

/-- The method of the first draft that fits is where `entry` says. -/
theorem entry_mem_of_firstFit {fits : MethodDraft → Bool} {methods : List MethodDraft} {p : Nat}
    {m : MethodDraft} {descriptor : MethodDescriptor} (h : firstFit fits methods = some ⟨p, m⟩)
    (hdescriptor : m.descriptor = some descriptor) (owner : ClassId) :
    entry owner methods p m descriptor ∈ Entry.ofList (elements owner 0 methods) := by
  obtain ⟨before, after, helements, hlength, -⟩ := elements_of_firstFit h hdescriptor owner
  rw [Entry.mem_ofList, helements, ← hlength, List.getElem?_append_right (Nat.le_refl _),
    Nat.sub_self]
  rfl

end MethodDraft

namespace MappingSet

variable {s : MappingSet} {name : MethodName} {descriptor : MethodDescriptor} {ns : Nat}

/-- A name that is not blank is one of the method of a draft exactly if it is one of
the draft, while the descriptor has to be the respelled one. -/
theorem isMeantAt_element_iff (hname : Text.allBlank name.text = false) {m : MethodDraft}
    {id : MethodId} {own : MethodDescriptor} :
    s.isMeantAt ns ⟨name, some descriptor⟩ (m.element id own) = true ↔
      Draft.name? m ns = some name.text ∧ own = s.respellAt ns homeIndex descriptor := by
  have hnames : (m.element id own).name? ns = some name.text ↔
      Draft.name? m ns = some name.text := Heading.name?_element_eq_some_iff hname
  rw [isMeantAt_iff, hnames, eq_comm (a := own)]
  rfl

/-- If the first draft of a method that a reference names is at some position, its
method is the first one that the reference means exactly if the descriptor is
spelled the same in the first namespace. -/
theorem head?_membersAt_elements_iff (hname : Text.allBlank name.text = false)
    {methods : List MethodDraft} {p : Nat} {m : MethodDraft}
    (h : firstFit (·.isNamedBy ⟨⟨name, some descriptor⟩, ns⟩) methods = some ⟨p, m⟩)
    (owner : ClassId) :
    (s.membersAt (MethodDraft.elements owner 0 methods) ns ⟨name, some descriptor⟩).head? =
        some (MethodDraft.entry owner methods p m descriptor) ↔
      s.respellAt ns homeIndex descriptor = descriptor := by
  obtain ⟨-, hnamed, -⟩ := firstFit_eq_some_iff.1 h
  obtain ⟨hslot, hdescriptor⟩ := MethodDraft.isNamedBy_iff.1 hnamed
  obtain ⟨before, after, helements, hlength, hbefore⟩ :=
    MethodDraft.elements_of_firstFit h hdescriptor owner
  have hhead : (s.membersAt (MethodDraft.elements owner 0 methods) ns
      ⟨name, some descriptor⟩).head? =
        firstFit (s.isMeantAt ns ⟨name, some descriptor⟩) (MethodDraft.elements owner 0 methods) :=
    List.head?_filter
  rw [hhead, firstFit_eq_some_iff]
  constructor
  · rintro ⟨-, hmeant, -⟩
    exact ((isMeantAt_element_iff hname).1 hmeant).2.symm
  · intro hsame
    refine ⟨Entry.mem_ofList.1 (MethodDraft.entry_mem_of_firstFit h hdescriptor owner),
      (isMeantAt_element_iff hname).2 ⟨hslot, hsame.symm⟩, fun j hj x hx => ?_⟩
    rw [helements, List.getElem?_append_left (hlength ▸ hj)] at hx
    obtain ⟨n, id, own, rfl, hown, hfits⟩ := hbefore x (List.mem_of_getElem? hx)
    -- a method that is meant would come from a draft that is named
    cases hmeant : s.isMeantAt ns ⟨name, some descriptor⟩ (n.element id own) with
    | false => rfl
    | true =>
      obtain ⟨hn, rfl⟩ := (isMeantAt_element_iff hname).1 hmeant
      rw [MethodDraft.isNamedBy_iff.2 ⟨hn, hown.trans (congrArg some hsame)⟩] at hfits
      cases hfits

end MappingSet

/-! ## Drafts of classes and their classes -/

/-- A reference that names a method of a well-formed class is spelled in one of its
namespaces. -/
theorem ClassDraft.WellFormed.slot_lt {namespaces : List String} {c : ClassDraft}
    (hc : c.WellFormed namespaces) {ref : Spelled MethodRef} {m : MethodDraft} (hm : m ∈ c.methods)
    (hnamed : m.isNamedBy ref = true) : ref.ns < namespaces.length := by
  cases hc with
  | mk _ _ methods _ =>
    rw [← (methods m hm).heading.size]
    exact NameRow.lt_size_of_get? (MethodDraft.isNamedBy_iff.1 hnamed).1

/-- **A method is found by the reference that it was looked up with exactly if its
descriptor is the same in the first namespace.** The look-up is made in any class of
any draft that can be reached. Whatever else is declared before the class with these
methods is built, the method that was found or made is there, and it is the first
one that the reference means if the class names in the descriptor are respelled as
they are. -/
theorem methodRef_found_iff {start d : MappingDraft} (hstart : start.Reachable)
    (h : d.Reachable) {c looked built : ClassDraft} (hc : c ∈ preorder start.classes)
    {name : MethodName} {descriptor : MethodDescriptor} {ns : Nat} {line : Option Line}
    {column : Nat} {m : MethodDraft} (hname : Text.allBlank name.text = false)
    (href : c.editMethod ⟨⟨name, some descriptor⟩, ns⟩ line column (fun m => (m, m)) =
      .ok (m, looked))
    {i : Nat} (hbuilt : (preorder d.classes)[i]? = some built)
    (hmethods : built.methods = looked.methods) (id : SetId) :
    ∃ s report owner space p found, d.build id = .ok (s, report) ∧
      s.classes.get? i = some owner ∧ s.namespaces[ns]? = some space ∧
      looked.recent = some ⟨⟨⟨name, some descriptor⟩, ns⟩, p⟩ ∧ looked.methods[p]? = some m ∧
      (MethodDraft.entry owner.id looked.methods p m descriptor) ∈ Entry.ofList owner.methods ∧
      s.membersIn owner.methods space ⟨name, some descriptor⟩ = .ok found ∧
      (found.head? = some (MethodDraft.entry owner.id looked.methods p m descriptor) ↔
        s.respellAt ns homeIndex descriptor = descriptor) := by
  obtain ⟨p, hrecent, hfirst⟩ := ClassDraft.firstFit_editMethod (hstart.recalls c hc) href
  obtain ⟨hat, hnamed, -⟩ := firstFit_eq_some_iff.1 hfirst
  rw [← hmethods] at hfirst hat ⊢
  obtain ⟨-, hdescriptor⟩ := MethodDraft.isNamedBy_iff.1 hnamed
  -- the set that is built, and in it the class and the namespace
  have hwf := ClassDraft.wellFormed_of_mem_preorder h.wellFormed.classes built
    (List.mem_of_getElem? hbuilt)
  have hns : ns < d.namespaces.length := hwf.slot_lt (List.mem_of_getElem? hat) hnamed
  have hset := MappingDraft.materialises_declared h.wellFormed id
  obtain ⟨parent, -, howner⟩ := hset.classes i built hbuilt
  have hspace : (d.declared id).namespaces[ns]? =
      some ⟨d.namespaces[ns], ns, (d.declared id).id⟩ := by
    simp [MappingSet.namespaces, hset.namespaces, hns]
  exact ⟨_, _, _, _, p, _, MappingDraft.build_eq h.wellFormed id, howner, hspace, hrecent, hat,
    MethodDraft.entry_mem_of_firstFit hfirst hdescriptor _,
    MappingSet.membersIn_of_getElem? hspace _ _,
    MappingSet.head?_membersAt_elements_iff hname hfirst _⟩

/-- The class of the parameter is none of the set, so the method that was made for the
reference in the second namespace is found by it. -/
theorem methodRef_found_iff_unmapped :
    let ref : MethodRef := ⟨⟨"run"⟩, some ⟨[.object ⟨"Other"⟩], .void⟩⟩
    let name (c : ClassDraft) : Except MappingError ClassDraft := do
      let c ← Draft.assign c 0 "a" true
      Draft.assign c 1 "Foo" true
    let refer (c : ClassDraft) : Except MappingError ClassDraft := do
      let c ← name c
      let (_, c) ← c.editMethod ⟨ref, 1⟩ none 1 fun m => (m, m)
      return c
    let start : MappingDraft := ⟨["official", "named"], .empty, [], [], none⟩
    let d := (start.editNewClass none 1 (Draft.attempt refer)).2
    d.Reachable ∧ ∃ s report owner found, d.build ⟨7⟩ = .ok (s, report) ∧
      s.classes.get? 0 = some owner ∧ s.membersIn owner.methods ⟨"named", 1, ⟨7⟩⟩ ref = .ok found ∧
      found.head?.map (fun e => (e.position, e.item.descriptor)) =
        some (0, ⟨[.object ⟨"Other"⟩], .void⟩) := by
  intro ref name refer start d
  have hname : ∀ c e, name c = .ok e → c.Evolves e := by
    intro c e h
    obtain ⟨first, hfirst, hsecond⟩ := exists_of_bind_eq_ok h
    exact .heading (.heading (.refl c) (.assign hfirst)) (.assign hsecond)
  have hrefer : ∀ c e, refer c = .ok e → c.Evolves e := by
    intro c e h
    obtain ⟨named, hnamed, h⟩ := exists_of_bind_eq_ok h
    obtain ⟨⟨m, referred⟩, href, he⟩ := exists_of_bind_eq_ok h
    cases he
    exact .methodRef (hname c named hnamed) (fun m => .refl) href
  have hstart : MappingDraft.create ["official", "named"] = .ok start := rfl
  have hd : d.Reachable :=
    .newClass none 1 _ (.create hstart) (ClassDraft.evolves_attempt hrefer)
  have hd₀ : (start.editNewClass none 1 (Draft.attempt name)).2.Reachable :=
    .newClass none 1 _ (.create hstart) (ClassDraft.evolves_attempt hname)
  -- the class before the look-up and after it, and the method that the look-up makes
  let c := (Draft.attempt name (.blank start.namespaces (.onLine none 1))).2
  let looked := (Draft.attempt refer (.blank start.namespaces (.onLine none 1))).2
  let m := MethodDraft.ofRef start.namespaces (.onLine none 1) ⟨ref, 1⟩
  have href : c.editMethod ⟨ref, 1⟩ none 1 (fun m => (m, m)) = .ok (m, looked) := rfl
  obtain ⟨s, report, owner, space, p, found, hbuild, howner, hspace, hrecent, -, -, hfound, hiff⟩ :=
    methodRef_found_iff hd₀ hd (List.mem_singleton_self c) (by decide +kernel) href
      (by rfl : (preorder d.classes)[0]? = some looked) rfl ⟨7⟩
  have hs : s = d.declared ⟨7⟩ :=
    congrArg Prod.fst (Except.ok.inj (hbuild.symm.trans (MappingDraft.build_eq hd.wellFormed ⟨7⟩)))
  subst hs
  cases hrecent
  cases hspace
  refine ⟨hd, _, _, owner, found, hbuild, howner, hfound, ?_⟩
  rw [hiff.2 (by decide +kernel)]
  rfl

/-- The class of the parameter has another name in the first namespace, so the method
that was made for the reference is not found by it. -/
theorem methodRef_not_found_of_mapped :
    let ref : MethodRef := ⟨⟨"run"⟩, some ⟨[.object ⟨"Foo"⟩], .void⟩⟩
    let refer (c : ClassDraft) : Except MappingError ClassDraft := do
      let c ← Draft.assign c 0 "a" true
      let c ← Draft.assign c 1 "Foo" true
      let (_, c) ← c.editMethod ⟨ref, 1⟩ none 1 fun m => (m, m)
      return c
    let start : MappingDraft := ⟨["official", "named"], .empty, [], [], none⟩
    let d := (start.editNewClass none 1 (Draft.attempt refer)).2
    d.Reachable ∧ ∃ s report owner, d.build ⟨7⟩ = .ok (s, report) ∧
      s.classes.get? 0 = some owner ∧
      owner.methods.map (fun m => (m.name? 1, m.descriptor)) =
        [(some "run", ⟨[.object ⟨"Foo"⟩], .void⟩)] ∧
      s.membersIn owner.methods ⟨"named", 1, ⟨7⟩⟩ ref = .ok [] := by
  intro ref refer start d
  have hrefer : ∀ c e, refer c = .ok e → c.Evolves e := by
    intro c e h
    obtain ⟨first, hfirst, h⟩ := exists_of_bind_eq_ok h
    obtain ⟨second, hsecond, h⟩ := exists_of_bind_eq_ok h
    obtain ⟨⟨m, referred⟩, href, he⟩ := exists_of_bind_eq_ok h
    cases he
    exact .methodRef (.heading (.heading (.refl c) (.assign hfirst)) (.assign hsecond))
      (fun m => .refl) href
  have hstart : MappingDraft.create ["official", "named"] = .ok start := rfl
  have hd : d.Reachable :=
    .newClass none 1 _ (.create hstart) (ClassDraft.evolves_attempt hrefer)
  have hspace : (d.declared ⟨7⟩).namespaces[1]? = some ⟨"named", 1, ⟨7⟩⟩ := rfl
  refine ⟨hd, _, _, _, MappingDraft.build_eq hd.wellFormed ⟨7⟩, rfl, by decide +kernel, ?_⟩
  rw [MappingSet.membersIn_of_getElem? hspace]
  exact congrArg Except.ok (by decide +kernel)

end SymbolMap
