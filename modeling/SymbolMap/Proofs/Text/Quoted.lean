import SymbolMap.Text.Quoted

/-!
# Quoted texts are told apart

Between double quotes each character is written as one piece, and no piece is the
beginning of another one: a backslash tells that the next character decides what is
meant, code points end at the first closing brace, and anything else stands for itself.
A quote stands for itself nowhere, so a quoted text ends at its closing quote.

* `EscapesTo.append_inj`: the first piece of a text is known from the text;
* `quoted_append_inj`: a quoted text is known from any text it is in front of, so a
  message shows which texts it is about;
* `quoted_of_plain`: the visible characters of ASCII are written as they are.
-/

namespace SymbolMap.Text

/-! ## Hexadecimal digits -/

theorem digitChar_inj :
    ∀ a < 16, ∀ b < 16, Nat.digitChar a = Nat.digitChar b → a = b := by decide

theorem digitChar_ne_brace : ∀ a < 16, Nat.digitChar a ≠ '\x7d' := by decide

/-- The last digit is the remainder, and those in front of it are the digits of the
quotient. -/
theorem hexDigits_eq (n : Nat) :
    hexDigits n = (if n < 16 then [] else hexDigits (n / 16)) ++ [(n % 16).digitChar] := by
  unfold hexDigits
  rw [Nat.toDigits_eq_if (by decide)]
  split
  · rename_i h
    rw [Nat.mod_eq_of_lt h]
    rfl
  · rfl

theorem hexDigits_ne_nil (n : Nat) : hexDigits n ≠ [] := by
  rw [hexDigits_eq]
  exact List.append_ne_nil_of_right_ne_nil _ (List.cons_ne_nil _ _)

theorem brace_not_mem_hexDigits (n : Nat) : '\x7d' ∉ hexDigits n := by
  induction n using Nat.strongRecOn with
  | ind n ih =>
    intro hmem
    rw [hexDigits_eq, List.mem_append, List.mem_singleton] at hmem
    rcases hmem with hmem | hlast
    · split at hmem
      · cases hmem
      · exact ih (n / 16) (by omega) hmem
    · exact digitChar_ne_brace _ (Nat.mod_lt n (by decide)) hlast.symm

theorem hexDigits_inj {m n : Nat} (h : hexDigits m = hexDigits n) : m = n := by
  induction m using Nat.strongRecOn generalizing n with
  | ind m ih =>
    rw [hexDigits_eq m, hexDigits_eq n] at h
    obtain ⟨hinit, hlast⟩ := List.append_inj' h rfl
    have hmod : m % 16 = n % 16 :=
      digitChar_inj _ (Nat.mod_lt m (by decide)) _ (Nat.mod_lt n (by decide))
        (List.cons.inj hlast).1
    split at hinit <;> split at hinit
    · omega
    · exact absurd hinit.symm (hexDigits_ne_nil _)
    · exact absurd hinit (hexDigits_ne_nil _)
    · have hdiv : m / 16 = n / 16 := ih (m / 16) (by omega) hinit
      omega

/-! ## Pieces -/

/-- What stands in front of the first stop is known from the text. -/
theorem append_stop_inj {stop : Char} {xs ys rest more : List Char} (hx : stop ∉ xs)
    (hy : stop ∉ ys) (h : xs ++ stop :: rest = ys ++ stop :: more) : xs = ys ∧ rest = more := by
  induction xs generalizing ys with
  | nil =>
    cases ys with
    | nil =>
      cases h
      exact ⟨rfl, rfl⟩
    | cons y ys =>
      cases h
      exact absurd List.mem_cons_self hy
  | cons x xs ih =>
    cases ys with
    | nil =>
      cases h
      exact absurd List.mem_cons_self hx
    | cons y ys =>
      obtain ⟨rfl, htail⟩ := List.cons.inj h
      obtain ⟨rfl, hrest⟩ :=
        ih (List.not_mem_of_not_mem_cons hx) (List.not_mem_of_not_mem_cons hy) htail
      exact ⟨rfl, hrest⟩

/-- The character that is meant by one behind a backslash. -/
def unmarked : Char → Char
  | 't' => '\t'
  | 'n' => '\n'
  | 'r' => '\r'
  | '0' => '\x00'
  | c => c

/-- The pieces that a character can be written as between double quotes. -/
inductive EscapesTo (c : Char) : List Char → Prop
  | marked {mark : Char} : mark ≠ 'u' → unmarked mark = c → EscapesTo c ['\\', mark]
  | plain : c ≠ '\\' → c ≠ '"' → EscapesTo c [c]
  | code : EscapesTo c ('\\' :: 'u' :: '\x7b' :: (hexDigits c.toNat ++ ['\x7d']))

theorem escapesTo_escape (c : Char) : EscapesTo c (escape '"' c) := by
  unfold escape
  split
  · rename_i h
    rw [Bool.or_eq_true, beq_iff_eq, beq_iff_eq] at h
    rcases h with rfl | rfl
    · exact .marked (by decide) rfl
    · exact .marked (by decide) rfl
  · rename_i hplain
    rw [Bool.or_eq_true, beq_iff_eq, beq_iff_eq, not_or] at hplain
    -- the four letters, then the characters that show, then the rest
    split
    · rename_i h
      exact .marked (by decide) (eq_of_beq h).symm
    split
    · rename_i h
      exact .marked (by decide) (eq_of_beq h).symm
    split
    · rename_i h
      exact .marked (by decide) (eq_of_beq h).symm
    split
    · rename_i h
      exact .marked (by decide) (eq_of_beq h).symm
    split
    · exact .plain hplain.1 hplain.2
    · exact .code

/-- No piece begins with a quote. -/
theorem EscapesTo.ne_quote_cons {c : Char} {cs : List Char} (h : EscapesTo c cs)
    (rest more : List Char) : cs ++ rest ≠ '"' :: more := by
  intro heq
  cases h with
  | marked => cases heq
  | plain _ hquote => exact hquote (List.cons.inj heq).1
  | code => cases heq

/-- No piece is the beginning of another, and each is the piece of one character. -/
theorem EscapesTo.append_inj {c d : Char} {cs ds rest more : List Char} (hc : EscapesTo c cs)
    (hd : EscapesTo d ds) (h : cs ++ rest = ds ++ more) : c = d ∧ rest = more := by
  cases hc with
  | @marked mark hmark hmeans =>
    cases hd with
    | marked _ hother =>
      cases h
      exact ⟨hmeans.symm.trans hother, rfl⟩
    | plain hne => exact absurd (List.cons.inj h).1.symm hne
    | code => exact absurd (List.cons.inj (List.cons.inj h).2).1 hmark
  | plain hne =>
    cases hd with
    | marked => exact absurd (List.cons.inj h).1 hne
    | plain =>
      cases h
      exact ⟨rfl, rfl⟩
    | code => exact absurd (List.cons.inj h).1 hne
  | code =>
    cases hd with
    | marked hmark => exact absurd (List.cons.inj (List.cons.inj h).2).1.symm hmark
    | plain hne => exact absurd (List.cons.inj h).1.symm hne
    | code =>
      have hdigits : hexDigits c.toNat ++ '\x7d' :: rest = hexDigits d.toNat ++ '\x7d' :: more := by
        simpa using h
      obtain ⟨hsame, hrest⟩ :=
        append_stop_inj (brace_not_mem_hexDigits _) (brace_not_mem_hexDigits _) hdigits
      exact ⟨Char.toNat_inj.1 (hexDigits_inj hsame), hrest⟩

/-! ## Quoted texts -/

theorem flatMap_escape_append_inj {s t rest more : List Char}
    (h : s.flatMap (escape '"') ++ '"' :: rest = t.flatMap (escape '"') ++ '"' :: more) :
    s = t ∧ rest = more := by
  induction s generalizing t with
  | nil =>
    cases t with
    | nil =>
      cases h
      exact ⟨rfl, rfl⟩
    | cons d t =>
      rw [List.flatMap_cons, List.append_assoc] at h
      exact absurd h.symm ((escapesTo_escape d).ne_quote_cons _ _)
  | cons c s ih =>
    rw [List.flatMap_cons, List.append_assoc] at h
    cases t with
    | nil => exact absurd h ((escapesTo_escape c).ne_quote_cons _ _)
    | cons d t =>
      rw [List.flatMap_cons, List.append_assoc] at h
      obtain ⟨rfl, hrest⟩ := (escapesTo_escape c).append_inj (escapesTo_escape d) h
      obtain ⟨rfl, hmore⟩ := ih hrest
      exact ⟨rfl, hmore⟩

/-- A quoted text is known from whatever it is in front of. -/
theorem quoted_append_inj {s t rest more : String}
    (h : quoted s ++ rest = quoted t ++ more) : s = t ∧ rest = more := by
  have hchars : s.toList.flatMap (escape '"') ++ '"' :: rest.toList =
      t.toList.flatMap (escape '"') ++ '"' :: more.toList := by
    simpa [quoted] using congrArg String.toList h
  obtain ⟨htext, hrest⟩ := flatMap_escape_append_inj hchars
  exact ⟨String.toList_inj.1 htext, String.toList_inj.1 hrest⟩

theorem quoted_inj {s t : String} (h : quoted s = quoted t) : s = t := by
  have hsame : quoted s ++ "" = quoted t ++ "" := by rw [h]
  exact (quoted_append_inj hsame).1

/-! ## Plain text -/

/-- The visible characters of ASCII, without those that need a backslash. -/
def IsPlain (c : Char) : Prop := 0x20 ≤ c.toNat ∧ c.toNat < 0x7f ∧ c ≠ '\\' ∧ c ≠ '"'

theorem isGraphic_of_ascii {c : Char} (hlow : 0x20 ≤ c.toNat) (hhigh : c.toNat < 0x7f) :
    isGraphic c = true := by
  -- the first two boundaries are passed, and all others are further up
  have hothers : (graphicBoundaries.drop 2).countP (fun b => decide (b ≤ c.toNat)) = 0 := by
    have habove : ∀ b ∈ graphicBoundaries.drop 2, 0x7f ≤ b := by decide +kernel
    refine List.countP_eq_zero.2 fun b hb => ?_
    have := habove b hb
    simp only [decide_eq_true_eq]
    omega
  have hsplit : graphicBoundaries = 0x0 :: 0x20 :: graphicBoundaries.drop 2 := rfl
  unfold isGraphic
  rw [hsplit, List.countP_cons_of_pos (by simp), List.countP_cons_of_pos (by simpa using hlow),
    hothers]
  rfl

theorem escape_of_isPlain {c : Char} (h : IsPlain c) : escape '"' c = [c] := by
  obtain ⟨hlow, hhigh, hslash, hquote⟩ := h
  have hcontrol : ∀ d : Char, d.toNat < 0x20 → c ≠ d := by
    rintro d hd rfl
    omega
  simp [escape, hslash, hquote, hcontrol, isGraphic_of_ascii hlow hhigh]

/-- Plain text is shown as it is. -/
theorem quoted_of_plain {s : String} (h : ∀ c ∈ s.toList, IsPlain c) :
    quoted s = "\"" ++ s ++ "\"" := by
  have hsame : s.toList.flatMap (escape '"') = s.toList := by
    rw [List.flatMap_def, List.map_congr_left fun c hc => escape_of_isPlain (h c hc),
      ← List.flatMap_def, List.flatMap_singleton']
  rw [← String.toList_inj, quoted, hsame]
  simp

end SymbolMap.Text
