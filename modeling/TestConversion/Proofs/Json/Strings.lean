import TestConversion.Json.Printer
import TestConversion.Json.Reader

/-!
# Strings and blanks in JSON texts

Between quotes every character has a written form of its own, and reading takes these forms off one
after another. Blanks in front of a value do not count.

* `readString_writeString`: every string is read back, whatever its characters.
* `clear_afterQuote`: the written form of a string has no control character.
-/

namespace TestConversion.Json

/-! ## Characters -/

theorem hexValue_hexDigit : ∀ n < 16, hexValue (hexDigit n) = some n := by decide

theorem le_toNat_hexDigit : ∀ n < 16, 0x20 ≤ (hexDigit n).toNat := by decide

theorem readUnicode_control (strict : Bool) {c : Char} (h : c.toNat < 0x20) (rest : List Char) :
    readUnicode strict ('0' :: '0' :: hexDigit (c.toNat / 16) :: hexDigit (c.toNat % 16) :: rest) =
      .ok (c, rest) := by
  have hzero : hexValue '0' = some 0 := by decide
  have hhigh := hexValue_hexDigit (c.toNat / 16) (by omega)
  have hlow := hexValue_hexDigit (c.toNat % 16) (by omega)
  have hunit : readUnit ('0' :: '0' :: hexDigit (c.toNat / 16) :: hexDigit (c.toNat % 16) :: rest) =
      .ok (c.toNat, rest) := by
    simp only [readUnit, hzero, hhigh, hlow]
    congr 2
    omega
  have hnotLow : isLowUnit c.toNat = false := by
    simp only [isLowUnit, Bool.and_eq_false_iff, decide_eq_false_iff_not]
    omega
  have hnotHigh : isHighUnit c.toNat = false := by
    simp only [isHighUnit, Bool.and_eq_false_iff, decide_eq_false_iff_not]
    omega
  cases strict <;> simp [readUnicode, hunit, hnotLow, hnotHigh]

/-- The written form of a character is read as that character. -/
theorem readStringFrom_escapeChar (strict : Bool) (fuel : Nat) (done : List Char) (c : Char)
    (rest : List Char) : readStringFrom strict (fuel + 1) done (escapeChar c ++ rest) =
      readStringFrom strict fuel (c :: done) rest := by
  unfold escapeChar
  split
  case h_8 hquote hslash _ _ _ _ _ =>
    split
    case isTrue h =>
      simp only [List.cons_append, List.nil_append]
      rw [readStringFrom]
      simp [readEscape, readUnicode_control strict h]
    case isFalse h =>
      have hq : c ≠ '"' := fun hc => hquote hc
      have hs : c ≠ '\\' := fun hc => hslash hc
      simp [readStringFrom, hq, hs, h]
  all_goals rfl

theorem escapeChar_ne_nil (c : Char) : escapeChar c ≠ [] := by
  unfold escapeChar
  split
  case h_8 =>
    split
    · exact List.cons_ne_nil _ _
    · exact List.cons_ne_nil _ _
  all_goals exact List.cons_ne_nil _ _

theorem le_toNat_of_mem_escapeChar {c d : Char} (h : d ∈ escapeChar c) : 0x20 ≤ d.toNat := by
  unfold escapeChar at h
  split at h
  case h_8 =>
    split at h
    case isTrue hc =>
      have hhigh := le_toNat_hexDigit (c.toNat / 16) (by omega)
      have hlow := le_toNat_hexDigit (c.toNat % 16) (by omega)
      simp only [List.mem_cons, List.not_mem_nil, or_false] at h
      rcases h with rfl | rfl | rfl | rfl | rfl | rfl
      all_goals first | assumption | decide
    case isFalse hc =>
      rw [List.mem_singleton.mp h]
      omega
  all_goals
    simp only [List.mem_cons, List.not_mem_nil, or_false] at h
    rcases h with rfl | rfl
    all_goals decide

/-! ## Strings -/

/-- What is written of a string after its first quote. -/
def afterQuote (cs rest : List Char) : List Char :=
  cs.foldr (fun c r => escapeChar c ++ r) ('"' :: rest)

theorem writeString_eq (s : String) (rest : List Char) :
    writeString s rest = '"' :: afterQuote s.toList rest := rfl

theorem afterQuote_cons (c : Char) (cs rest : List Char) :
    afterQuote (c :: cs) rest = escapeChar c ++ afterQuote cs rest := rfl

theorem length_lt_afterQuote (cs rest : List Char) :
    cs.length + rest.length < (afterQuote cs rest).length := by
  induction cs with
  | nil => simp [afterQuote]
  | cons c cs ih =>
    have hpos := List.length_pos_iff.mpr (escapeChar_ne_nil c)
    rw [afterQuote_cons, List.length_append, List.length_cons]
    omega

theorem readStringFrom_afterQuote (strict : Bool) {fuel : Nat} (done cs rest : List Char)
    (h : cs.length < fuel) : readStringFrom strict fuel done (afterQuote cs rest) =
      .ok (String.ofList (done.reverse ++ cs), rest) := by
  obtain ⟨fuel, rfl⟩ := Nat.exists_eq_add_one_of_ne_zero (Nat.ne_zero_of_lt h)
  induction cs generalizing fuel done with
  | nil => simp [afterQuote, readStringFrom]
  | cons c cs ih =>
    have h : cs.length < fuel := by simpa using h
    obtain ⟨fuel, rfl⟩ := Nat.exists_eq_add_one_of_ne_zero (Nat.ne_zero_of_lt h)
    rw [afterQuote_cons, readStringFrom_escapeChar, ih (c :: done) fuel h]
    simp

/-- A string is read back from its written form. -/
theorem readString_writeString (strict : Bool) (s : String) (rest : List Char) :
    readString strict (afterQuote s.toList rest) = .ok (s, rest) := by
  have h := length_lt_afterQuote s.toList rest
  rw [readString, readStringFrom_afterQuote strict [] s.toList rest (by omega)]
  simp

/-! ## Control characters -/

/-- Every control character of the first text is one of the second text. -/
def Clear (cs rest : List Char) : Prop := ∀ d ∈ cs, 0x20 ≤ d.toNat ∨ d ∈ rest

theorem Clear.refl (cs : List Char) : Clear cs cs := fun _ h => Or.inr h

theorem Clear.trans {as bs cs : List Char} (hab : Clear as bs) (hbc : Clear bs cs) :
    Clear as cs := by
  intro d h
  rcases hab d h with h | h
  · exact Or.inl h
  · exact hbc d h

theorem clear_append (cs : List Char) (h : cs.all (0x20 ≤ ·.toNat) = true) (rest : List Char) :
    Clear (cs ++ rest) rest := by
  intro d hd
  rcases List.mem_append.mp hd with hd | hd
  · exact Or.inl (of_decide_eq_true (List.all_eq_true.mp h d hd))
  · exact Or.inr hd

theorem clear_afterQuote (cs rest : List Char) : Clear (afterQuote cs rest) rest := by
  induction cs with
  | nil => exact clear_append ['"'] (by decide) rest
  | cons c cs ih =>
    have hescape : (escapeChar c).all (0x20 ≤ ·.toNat) = true :=
      List.all_eq_true.mpr fun _ hd => decide_eq_true (le_toNat_of_mem_escapeChar hd)
    rw [afterQuote_cons]
    exact (clear_append _ hescape _).trans ih

/-! ## Blanks -/

/-- Nothing but blanks. -/
def IsBlank (cs : List Char) : Prop := ∀ c ∈ cs, isSpace c = true

theorem isBlank_nil : IsBlank [] := fun _ h => absurd h List.not_mem_nil

theorem skipSpace_cons {c : Char} (h : isSpace c = false) (cs : List Char) :
    skipSpace (c :: cs) = c :: cs :=
  List.dropWhile_cons_of_neg (by simp [h])

theorem IsBlank.skipSpace_append {bs : List Char} (h : IsBlank bs) (cs : List Char) :
    skipSpace (bs ++ cs) = skipSpace cs :=
  List.dropWhile_append_of_pos h

theorem IsBlank.skipSpace_append_cons {bs : List Char} (h : IsBlank bs) {c : Char}
    (hc : isSpace c = false) (cs : List Char) : skipSpace (bs ++ c :: cs) = c :: cs := by
  rw [h.skipSpace_append, skipSpace_cons hc]

/-- Parts are set apart by blanks only. -/
structure Layout.IsBlank (l : Layout) : Prop where
  break_ : ∀ n, Json.IsBlank (l.break_ n)
  colon : ∃ bs, l.colon = ':' :: bs ∧ Json.IsBlank bs

theorem Layout.isBlank_compact : Layout.compact.IsBlank :=
  ⟨fun _ => isBlank_nil, [], rfl, isBlank_nil⟩

theorem Layout.isBlank_pretty : Layout.pretty.IsBlank := by
  refine ⟨fun n c hc => ?_, [' '], rfl, fun c hc => ?_⟩
  · rcases List.mem_cons.mp hc with rfl | hc
    · rfl
    · rw [List.eq_of_mem_replicate hc]
      rfl
  · rw [List.mem_singleton.mp hc]
    rfl

end TestConversion.Json
