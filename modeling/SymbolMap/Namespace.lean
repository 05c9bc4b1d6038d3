import SymbolMap.Error

/-!
# Names of namespaces

A set has two or more namespaces, whose names are not empty and differ. Where none are named there
are the two namespaces `from` and `to`.
-/

namespace SymbolMap

/-- The first namespace where none are named. -/
def Namespace.defaultSource : String := "from"

/-- The second namespace where none are named. -/
def Namespace.defaultTarget : String := "to"

/-- The first text of the list that stands further up in it as well. -/
def firstRepeated? (seen : List String) : List String → Option String
  | [] => none
  | name :: rest => if seen.contains name then some name else firstRepeated? (name :: seen) rest

/-- The names of the namespaces of a set, if the given ones can be. -/
def Namespace.validNames (names : List String) : Except MappingError (List String) :=
  if names.isEmpty then .ok [defaultSource, defaultTarget]
  else if names.length < 2 then .error (.tooFewNamespaces names)
  else if names.contains "" then .error (.unnamedNamespace names)
  else match firstRepeated? [] names with
    | some name => .error (.repeatedNamespace name names)
    | none => .ok names

/-- Nothing repeats exactly when all texts differ. -/
theorem firstRepeated?_eq_none_iff {seen names : List String} :
    firstRepeated? seen names = none ↔ names.Nodup ∧ ∀ name ∈ names, name ∉ seen := by
  induction names generalizing seen with
  | nil => simp [firstRepeated?]
  | cons name rest ih =>
    simp only [firstRepeated?, List.contains_iff_mem, List.nodup_cons, List.mem_cons]
    split
    · simp_all
    · rw [ih]
      constructor
      · rintro ⟨hd, hm⟩
        refine ⟨⟨fun h => hm name h (by simp), hd⟩, ?_⟩
        rintro n (rfl | hn)
        · assumption
        · exact fun h => hm n hn (by simp [h])
      · rintro ⟨⟨hn, hd⟩, hm⟩
        refine ⟨hd, fun n h => ?_⟩
        simp only [List.mem_cons, not_or]
        exact ⟨fun e => hn (e ▸ h), hm n (.inr h)⟩

end SymbolMap
