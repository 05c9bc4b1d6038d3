import SymbolMap.Proofs.MappingSet.Reachable

/-!
# How methods grow

Additions change nothing of a method but its parameters and local variables, and a
set changes its methods by additions alone. So each method of a set that additions
lead to has grown from a new one (`MappingSet.Reachable.methodsGrown`): what holds
of new methods and is kept by additions holds of all of them.
-/

namespace SymbolMap

/-! ## What additions do to a method -/

namespace Method

variable {m n : Method} {names : NameRow} {origin : Origin}

/-- A parameter that is added is settled, and leaves all else of the method as it is. -/
theorem addParam_eq_ok {index : Nat} {table : Option Nat} {type : Option FieldType} {p : Param}
    (h : m.addParam names origin index table type = .ok (p, n)) :
    names.size = m.names.size ∧ n = { m with params := n.params } ∧
      ∃ new : Param, new.names = names ∧ new.method = m.id ∧
        settle (·.index == index) new m.params = (p, n.params) := by
  obtain ⟨hsize, rfl, rfl⟩ := addParam_eq_ok_iff.1 h
  exact ⟨hsize, rfl, ⟨⟨names, origin⟩, m.id, index, table, type⟩, rfl, rfl, rfl⟩

/-- A local variable that is added can be placed and is settled, and all else of
the method stays as it is. -/
theorem addLocal_eq_ok {index : LocalIndex} {type : Option FieldType} {v : LocalVar}
    (h : m.addLocal names origin index type = .ok (v, n)) :
    names.size = m.names.size ∧ index.isKnown = true ∧ n = { m with locals := n.locals } ∧
      ∃ new : LocalVar, new.names = names ∧ new.method = m.id ∧ new.index = index ∧
        settle (·.fits new.index) new m.locals = (v, n.locals) := by
  obtain ⟨⟨hsize, hknown⟩, rfl, rfl⟩ := addLocal_eq_ok_iff.1 h
  exact ⟨hsize, hknown, rfl, ⟨⟨names, origin⟩, m.id, index, type⟩, rfl, rfl, rfl, rfl⟩

/-- Additions change nothing but the variables of a method. -/
theorem Grows.eq_with (h : m.Grows n) : n = { m with toVariables := n.toVariables } := by
  induction h with
  | refl => rfl
  | addParam _ hadd ih =>
    rw [(addParam_eq_ok hadd).2.1, ih]
  | addLocal _ hadd ih =>
    rw [(addLocal_eq_ok hadd).2.2.1, ih]

theorem Grows.trans {o : Method} (hmn : m.Grows n) (hno : n.Grows o) : m.Grows o := by
  induction hno with
  | refl => exact hmn
  | addParam _ hadd ih => exact .addParam ih hadd
  | addLocal _ hadd ih => exact .addLocal ih hadd

/-- What an update makes of a method that grows by it, where it is given as a function. -/
theorem grows_ofResult {α : Type} {f : Method → Except MappingError (α × Method)}
    (hf : ∀ m a n, f m = .ok (a, n) → m.Grows n) (m : Method) (a : α) (n : Method)
    (h : (Update.ofResult f).run m = .ok a n) : m.Grows n :=
  hf m a n (Update.run_ofResult_eq_ok_iff.1 h)

/-- Additions to a new method have led to this one. -/
def Grown (m : Method) : Prop := ∃ new : Method, new.toVariables = .none ∧ new.Grows m

theorem Grown.grows (hm : m.Grown) (h : m.Grows n) : n.Grown := by
  obtain ⟨new, hnew, hgrows⟩ := hm
  exact ⟨new, hnew, hgrows.trans h⟩

end Method

/-! ## What additions do to a class -/

namespace Class

variable {c d : Class} {names : NameRow} {origin : Origin}

/-- A field that is added stands behind the others. -/
theorem insertField_eq_ok {type : Option FieldType} {flags : MemberFlags} {f : Field}
    (h : (insertField names origin type flags).run c = .ok f d) :
    names.size = c.names.size ∧ f.names = names ∧ f.owner = c.id ∧
      d = { c with fields := c.fields ++ [f] } := by
  rw [run_insertField] at h
  split at h
  · rename_i hsize
    cases h
    exact ⟨hsize, rfl, rfl, rfl⟩
  · cases h

/-- A method that is added has grown from one with the id of its position, and stands
behind the others. -/
theorem insertMethod_eq_ok {descriptor : MethodDescriptor} {flags : MemberFlags} {α : Type}
    {fill : Update Method α} {a : α} (hfill : ∀ m a n, fill.run m = .ok a n → m.Grows n)
    (h : (insertMethod names origin descriptor flags fill).run c = .ok a d) :
    names.size = c.names.size ∧ ∃ new filled : Method, new.toVariables = .none ∧
      new.names = names ∧ new.id = ⟨c.id, c.methods.length⟩ ∧ new.Grows filled ∧
      d = { c with methods := c.methods ++ [filled] } := by
  rw [run_insertMethod] at h
  split at h
  · rename_i hsize
    obtain ⟨filled, hfilled, rfl⟩ := Update.putBack_eq_ok_iff.1 h
    exact ⟨hsize, _, filled, rfl, rfl, rfl, hfill _ _ _ hfilled, rfl⟩
  · cases h

end Class

/-! ## The methods of a set -/

namespace MappingSet

/-- All methods of the set have grown from new ones. -/
def MethodsGrown (s : MappingSet) : Prop :=
  ∀ i c, s.classes.get? i = some c → ∀ m ∈ c.methods, m.Grown

variable {s t : MappingSet}

theorem MethodsGrown.push (hs : s.MethodsGrown) {c : Class} (hc : ∀ m ∈ c.methods, m.Grown) :
    MethodsGrown { s with classes := s.classes.push c } := by
  intro i d hd
  rw [Table.get?_push] at hd
  split at hd
  · cases hd
    exact hc
  · exact hs i d hd

theorem MethodsGrown.withClass (hs : s.MethodsGrown) {position : Nat} {c : Class}
    (hc : ∀ m ∈ c.methods, m.Grown) : (s.withClass position c).MethodsGrown := by
  intro i d hd
  unfold MappingSet.withClass at hd
  rw [Table.get?_replace] at hd
  split at hd
  · cases hd
    exact hc
  · exact hs i d hd

theorem Reachable.methodsGrown (h : s.Reachable) : s.MethodsGrown := by
  induction h with
  | create h =>
    obtain ⟨valid, _, rfl⟩ := create_eq_ok h
    intro i c hc
    rw [Table.get?_empty] at hc
    cases hc
  | addPackage _ h ih =>
    obtain ⟨rfl, _⟩ := addPackage_eq_ok h
    exact ih
  | addClass _ h ih =>
    obtain ⟨rfl, _⟩ := addClass_eq_ok h
    refine ih.push fun m hm => ?_
    cases hm
  | addField _ h ih =>
    obtain ⟨c, edited, hc, hedit, rfl⟩ := addField_eq_ok h
    have hold := ih _ c (class?_eq_some_iff.1 hc).2
    obtain ⟨_, _, _, rfl⟩ := Class.insertField_eq_ok hedit
    exact ih.withClass hold
  | addMethod _ hfill h ih =>
    obtain ⟨c, edited, hc, hedit, rfl⟩ := addMethod_eq_ok h
    have hold := ih _ c (class?_eq_some_iff.1 hc).2
    obtain ⟨_, new, filled, hnew, _, _, hgrows, rfl⟩ :=
      Class.insertMethod_eq_ok (Method.grows_ofResult hfill) hedit
    refine ih.withClass (List.forall_mem_append.2 ⟨hold, List.forall_mem_singleton.2 ?_⟩)
    exact ⟨new, hnew, hgrows⟩
  | editMethod _ hedits h ih =>
    obtain ⟨c, m, edited, hc, hm, hedit, rfl⟩ := editMethod_eq_ok h
    have hold := ih _ c (class?_eq_some_iff.1 hc).2
    have hat := (Class.method?_eq_some_iff.1 hm).2
    refine ih.withClass (forall_mem_set hold ?_ _)
    exact (hold m (List.mem_of_getElem? hat)).grows (hedits _ _ _ hedit)

end MappingSet

end SymbolMap
