import SymbolMap.MappingSet.Basic

/-!
# What an update leaves alone

An update leaves something behind whether it is taken or refused. So there are two
things to be told of it:

* what a refusal leaves. Checks are made before anything is changed, so most updates
  leave all as it was when they refuse (`Update.Atomic`). A method is filled after it
  was added, so it is there also if filling it is refused, and adding it is atomic
  only if filling never is (`Class.atomic_insertMethod`);
* what is changed at all. Whatever is done to the methods of a class, the updates of
  a class change its members and nothing else of it (`Class.KeepsRest`). A set puts
  back all of a class that was updated in it, so this is what the names, the parents
  and the ids of its classes rest on.
-/

namespace SymbolMap

/-! ## Refusals -/

namespace Update

variable {σ α β : Type}

/-- The update is refused. -/
def Refuses (u : Update σ α) (x : σ) : Prop := ∃ e y, u.run x = .error e y

/-- The update changes nothing where it is refused. -/
def Atomic (u : Update σ α) : Prop := ∀ x e y, u.run x = .error e y → y = x

variable {u : Update σ α}

theorem not_refuses_pure {a : α} (x : σ) : ¬ (pure a : Update σ α).Refuses x := by
  rintro ⟨e, y, ⟨⟩⟩

theorem Atomic.map (h : u.Atomic) (f : α → β) : (f <$> u).Atomic :=
  fun x e y herror => h x e y (run_map_eq_error_iff.1 herror)

theorem Atomic.left_of_refuses (h : u.Atomic) {x : σ} (hrefuses : u.Refuses x) :
    u.left x = x := by
  obtain ⟨e, y, herror⟩ := hrefuses
  rw [left_of_error herror, h x e y herror]

end Update

open Update

namespace Method

variable {names : NameRow} {origin : Origin} {type : Option FieldType}

theorem atomic_insertParam {index : Nat} {table : Option Nat} :
    (insertParam names origin index table type).Atomic := by
  intro m e n h
  rw [run_insertParam] at h
  split at h <;> cases h
  rfl

theorem atomic_insertLocal {index : LocalIndex} :
    (insertLocal names origin index type).Atomic := by
  intro m e n h
  rw [run_insertLocal] at h
  split at h
  · split at h <;> cases h
    rfl
  · cases h
    rfl

end Method

namespace Class

variable {names : NameRow} {origin : Origin} {flags : MemberFlags} {α : Type}

theorem atomic_insertField {type : Option FieldType} :
    (insertField names origin type flags).Atomic := by
  intro c e d h
  rw [run_insertField] at h
  split at h <;> cases h
  rfl

theorem atomic_insertMethod {descriptor : MethodDescriptor} {fill : Update Method α}
    (hfill : ∀ m, ¬ fill.Refuses m) :
    (insertMethod names origin descriptor flags fill).Atomic := by
  intro c e d h
  rw [run_insertMethod] at h
  split at h
  · obtain ⟨m, hm, _⟩ := putBack_eq_error_iff.1 h
    exact absurd ⟨e, m, hm⟩ (hfill _)
  · cases h
    rfl

/-- The method that a class has already is no change. -/
theorem set_method_self {c : Class} {id : MethodId} {m : Method} (h : c.method? id = some m) :
    { c with methods := c.methods.set id.index m } = c := by
  obtain ⟨hlt, rfl⟩ := List.getElem?_eq_some_iff.1 (method?_eq_some_iff.1 h).2
  rw [List.set_getElem_self]

theorem atomic_modifyMethod {id : MethodId} {edit : Update Method α} (hedit : edit.Atomic) :
    (modifyMethod id edit).Atomic := by
  intro c e d h
  cases hm : c.method? id with
  | none =>
    rw [run_modifyMethod_of_none hm] at h
    cases h
  | some m =>
    rw [run_modifyMethod_of_some hm] at h
    obtain ⟨n, hn, rfl⟩ := putBack_eq_error_iff.1 h
    cases hedit m e n (run_map_eq_error_iff.1 hn)
    exact set_method_self hm

end Class

namespace MappingSet

variable {s : MappingSet} {names : NameRow} {origin : Origin} {α : Type}

/-- The class that a set has already is no change. -/
theorem withClass_self {position : Nat} {c : Class} (h : s.classes.get? position = some c) :
    s.withClass position c = s := by
  obtain ⟨hlt, rfl⟩ := Array.getElem?_eq_some_iff.1 h
  unfold withClass Table.replace
  rw [Array.setIfInBounds_def, dif_pos hlt, Array.set_getElem_self]

theorem atomic_insertPackage : (insertPackage names origin).Atomic := by
  intro s e t h
  rw [run_insertPackage] at h
  split at h <;> cases h
  rfl

theorem atomic_insertClass {parent : Option ClassId} :
    (insertClass names origin parent).Atomic := by
  intro s e t h
  rw [run_insertClass] at h
  split at h
  · split at h <;> cases h
    rfl
  · cases h
    rfl

theorem atomic_modifyClass {id : ClassId} {edit : Update Class α} (hedit : edit.Atomic) :
    (modifyClass id edit).Atomic := by
  intro s e t h
  cases hc : s.class? id with
  | none =>
    rw [run_modifyClass_of_none hc] at h
    cases h
    rfl
  | some c =>
    rw [run_modifyClass_of_some hc] at h
    obtain ⟨d, hd, rfl⟩ := putBack_eq_error_iff.1 h
    cases hedit c e d hd
    exact withClass_self (class?_eq_some_iff.1 hc).2

end MappingSet

/-! ## The rest of a class -/

namespace Class

/-- The class has stayed as it is but for its members. -/
def Remains (c d : Class) : Prop := d = { c with toMembers := d.toMembers }

variable {c d e : Class}

theorem Remains.refl (c : Class) : c.Remains c := rfl

theorem Remains.trans (h : c.Remains d) (h' : d.Remains e) : c.Remains e := by
  unfold Remains at *
  rw [h', h]

theorem Remains.symm (h : c.Remains d) : d.Remains c := by
  unfold Remains at *
  rw [h]

theorem Remains.names (h : c.Remains d) : d.names = c.names := by rw [h]

theorem Remains.name? (h : c.Remains d) (ns : Nat) : d.name? ns = c.name? ns := by
  unfold Element.name?
  rw [h.names]

theorem Remains.origin (h : c.Remains d) : d.origin = c.origin := by rw [h]

theorem Remains.id (h : c.Remains d) : d.id = c.id := by rw [h]

theorem Remains.parent (h : c.Remains d) : d.parent = c.parent := by rw [h]

/-- The update changes nothing of a class but its members, taken or refused. -/
def KeepsRest {α : Type} (u : Update Class α) : Prop := ∀ c : Class, c.Remains (u.left c)

theorem KeepsRest.remains {α : Type} {u : Update Class α} (h : KeepsRest u) {a : α}
    (hok : u.run c = .ok a d) : c.Remains d :=
  left_of_ok hok ▸ h c

section Updates

variable {α : Type} {names : NameRow} {origin : Origin} {flags : MemberFlags}

theorem keepsRest_insertField {type : Option FieldType} :
    KeepsRest (insertField names origin type flags) := by
  intro c
  unfold left
  rw [run_insertField]
  split <;> rfl

/-- However a method is filled, the class around it is not changed by that. -/
theorem keepsRest_insertMethod {descriptor : MethodDescriptor} {fill : Update Method α} :
    KeepsRest (insertMethod names origin descriptor flags fill) := by
  intro c
  unfold left
  rw [run_insertMethod]
  split
  · rw [behind_putBack]
    rfl
  · rfl

theorem keepsRest_modifyMethod {id : MethodId} {edit : Update Method α} :
    KeepsRest (modifyMethod id edit) := by
  intro c
  unfold left
  cases hm : c.method? id with
  | none =>
    rw [run_modifyMethod_of_none hm]
    rfl
  | some m =>
    rw [run_modifyMethod_of_some hm, behind_putBack]
    rfl

end Updates

end Class

end SymbolMap
