import TestConversion.Json.Reader
import TestConversion.Number.Shortest
import Mathlib.Data.Nat.Digits.Defs

/-!
# Numerals in JSON texts

A numeral has whole digits without a zero in front of others, and perhaps a fraction and an
exponent. In front of a text that cannot go on with it, it is read as it stands.

* `readNumber_append`: a numeral is read back.
* `isNumeral_toString`, `isNumeral_recordNumeral?`: what is written for numbers is a numeral.
-/

namespace TestConversion.Json

open Number

/-! ## The form of numerals -/

def IsDigits (cs : List Char) : Prop := cs ≠ [] ∧ ∀ c ∈ cs, c.isDigit = true

/-- Digits without a zero in front of others. -/
structure IsWhole (cs : List Char) : Prop where
  digits : IsDigits cs
  lead : cs.head? = some '0' → cs = ['0']

theorem isDigits_zero : IsDigits ['0'] :=
  ⟨List.cons_ne_nil _ _, List.forall_mem_singleton.mpr rfl⟩

theorem isWhole_zero : IsWhole ['0'] := ⟨isDigits_zero, fun _ => rfl⟩

inductive IsFraction : List Char → Prop where
  | none : IsFraction []
  | some {ds : List Char} (h : IsDigits ds) : IsFraction ('.' :: ds)

inductive IsExponent : List Char → Prop where
  | none : IsExponent []
  | plain {ds : List Char} (h : IsDigits ds) : IsExponent ('e' :: ds)
  | negative {ds : List Char} (h : IsDigits ds) : IsExponent ('e' :: '-' :: ds)

/-- A numeral without its sign. -/
def IsUnsigned (t : List Char) : Prop :=
  ∃ w f e, IsWhole w ∧ IsFraction f ∧ IsExponent e ∧ t = w ++ (f ++ e)

inductive IsNumeral : List Char → Prop where
  | plain {t : List Char} (h : IsUnsigned t) : IsNumeral t
  | negative {t : List Char} (h : IsUnsigned t) : IsNumeral ('-' :: t)

/-- The text does not start with what could go on with a numeral. -/
def EndsNumber (rest : List Char) : Prop :=
  ∀ c ∈ rest.head?, c.isDigit = false ∧ c ≠ '.' ∧ c ≠ 'e' ∧ c ≠ 'E'

theorem endsNumber_nil : EndsNumber [] := by
  intro c hc
  cases hc

theorem endsNumber_cons {c : Char} (h : c.isDigit = false ∧ c ≠ '.' ∧ c ≠ 'e' ∧ c ≠ 'E')
    (cs : List Char) : EndsNumber (c :: cs) := by
  intro d hd
  cases hd
  exact h

/-- The first characters of numerals. -/
def LeadsNumeral (c : Char) : Prop := c = '-' ∨ c.isDigit = true

theorem LeadsNumeral.ne {c : Char} (h : LeadsNumeral c) {d : Char} (hdigit : d.isDigit = false)
    (hminus : d ≠ '-') : c ≠ d := by
  rintro rfl
  rcases h with h | h
  · exact hminus h
  · rw [hdigit] at h
    cases h

theorem LeadsNumeral.cons_ne {c : Char} (h : LeadsNumeral c) {d : Char}
    (hdigit : d.isDigit = false) (hminus : d ≠ '-') (cs ds : List Char) : c :: cs ≠ d :: ds :=
  fun hcons => h.ne hdigit hminus (List.cons.inj hcons).1

theorem IsNumeral.exists_cons {t : List Char} (h : IsNumeral t) :
    ∃ c cs, t = c :: cs ∧ LeadsNumeral c := by
  cases h with
  | negative h => exact ⟨'-', _, rfl, Or.inl rfl⟩
  | plain h =>
    obtain ⟨w, f, e, hw, -, -, rfl⟩ := h
    obtain ⟨c, w, rfl⟩ := List.exists_cons_of_ne_nil hw.digits.1
    exact ⟨c, _, rfl, Or.inr (hw.digits.2 c List.mem_cons_self)⟩

/-! ## Reading -/

variable {rest : List Char}

/-- Digits end where none follows. -/
theorem digitsOf_append {ds cs : List Char} (h : ∀ c ∈ ds, c.isDigit = true)
    (hc : ∀ c ∈ cs.head?, c.isDigit = false) : digitsOf (ds ++ cs) = ds := by
  have hnone : cs.takeWhile Char.isDigit = [] := by
    cases cs with
    | nil => rfl
    | cons c cs => simp [hc c rfl]
  rw [digitsOf, List.takeWhile_append_of_pos h, hnone, List.append_nil]

theorem exponentPart_of_digits (early : Failure) {sign ds : List Char} (hd : IsDigits ds)
    (hsign : sign = [] ∨ sign = ['-']) (hr : EndsNumber rest) :
    exponentPart early ('e' :: (sign ++ (ds ++ rest))) = .ok ('e' :: (sign ++ ds), rest) := by
  have hdigits := digitsOf_append hd.2 fun c (hc : c ∈ rest.head?) => (hr c hc).1
  obtain ⟨c, cs, rfl⟩ := List.exists_cons_of_ne_nil hd.1
  have hdigit := hd.2 c List.mem_cons_self
  have hplus : c ≠ '+' := by rintro rfl; cases hdigit
  have hminus : c ≠ '-' := by rintro rfl; cases hdigit
  rcases hsign with rfl | rfl <;> simp_all [exponentPart]

theorem exponentPart_append (early : Failure) {e : List Char} (he : IsExponent e)
    (hr : EndsNumber rest) : exponentPart early (e ++ rest) = .ok (e, rest) := by
  cases he with
  | none =>
    cases rest with
    | nil => rfl
    | cons c rest =>
      have hc := hr c rfl
      simp [exponentPart, hc]
  | plain h => exact exponentPart_of_digits early h (Or.inl rfl) hr
  | negative h => exact exponentPart_of_digits early h (Or.inr rfl) hr

theorem head?_exponent {e : List Char} (he : IsExponent e) (hr : EndsNumber rest) :
    ∀ c ∈ (e ++ rest).head?, c.isDigit = false ∧ c ≠ '.' := by
  intro c hc
  cases he with
  | none => exact ⟨(hr c hc).1, (hr c hc).2.1⟩
  | plain h => cases hc; decide
  | negative h => cases hc; decide

theorem unsignedNumber_append (early : Failure) {t : List Char} (h : IsUnsigned t)
    (hr : EndsNumber rest) : unsignedNumber early (t ++ rest) = .ok (t, rest) := by
  obtain ⟨w, f, e, hw, hf, he, rfl⟩ := h
  have hafter := head?_exponent he hr
  have hexponent := exponentPart_append early he hr
  have hwhole : digitsOf (w ++ (f ++ (e ++ rest))) = w := by
    refine digitsOf_append hw.digits.2 fun c hc => ?_
    cases hf with
    | none => exact (hafter c hc).1
    | some h => cases hc; rfl
  rw [List.append_assoc, List.append_assoc, unsignedNumber, hwhole, List.drop_left]
  obtain ⟨c, cs, rfl⟩ := List.exists_cons_of_ne_nil hw.digits.1
  split
  · rename_i hnil
    cases hnil
  · rename_i hzero
    have hlead := hw.lead (by rw [hzero]; rfl)
    rw [hzero] at hlead
    cases hlead
  · cases hf with
    | none =>
      rw [List.nil_append, List.nil_append]
      split
      · rename_i after hdot
        exact absurd rfl (hafter '.' (by rw [hdot]; rfl)).2
      · rw [hexponent]
        rfl
    | @some ds h =>
      have hdigits := digitsOf_append h.2 fun c (hc : c ∈ (e ++ rest).head?) => (hafter c hc).1
      have hne : ds.isEmpty = false := by simpa using h.1
      simp only [List.cons_append, hdigits, hne, Bool.false_eq_true, if_false]
      rw [List.drop_left, hexponent]
      simp [Except.map]

/-- A numeral is read as it stands. -/
theorem readNumber_append (early : Failure) {t : List Char} (h : IsNumeral t)
    (hr : EndsNumber rest) : readNumber early (t ++ rest) = .ok (t, rest) := by
  cases h with
  | negative h =>
    rw [List.cons_append, readNumber, unsignedNumber_append early h hr]
    rfl
  | plain h =>
    have hread := unsignedNumber_append early h hr
    obtain ⟨w, f, e, hw, -, -, rfl⟩ := h
    obtain ⟨c, w, rfl⟩ := List.exists_cons_of_ne_nil hw.digits.1
    have hminus : c ≠ '-' := by
      rintro rfl
      cases hw.digits.2 '-' List.mem_cons_self
    rw [List.cons_append, List.cons_append] at hread ⊢
    rw [readNumber]
    · exact hread
    · rintro cs hcons
      exact hminus (List.cons.inj hcons).1

/-! ## Integers -/

theorem isDigits_toDigits (n : Nat) : IsDigits (Nat.toDigits 10 n) :=
  ⟨Nat.toDigits_ne_nil, fun _ hc => Nat.isDigit_of_mem_toDigits (by decide) (by decide) hc⟩

theorem head?_digits_append (n : Nat) (cs : List Char) :
    (Nat.toDigits 10 n ++ cs).head? = (Nat.toDigits 10 n).head? := by
  obtain ⟨d, ds, hd⟩ := List.exists_cons_of_ne_nil (Nat.toDigits_ne_nil (b := 10) (n := n))
  rw [hd]
  rfl

theorem head?_toDigits {n : Nat} (h : n ≠ 0) : (Nat.toDigits 10 n).head? ≠ some '0' := by
  induction n using Nat.strong_induction_on with
  | _ n ih =>
    rw [Nat.toDigits_eq_if (by decide)]
    split
    · have hdigits : ∀ m < 10, m ≠ 0 → Nat.digitChar m ≠ '0' := by decide
      simpa using hdigits n (by assumption) h
    · rw [head?_digits_append]
      exact ih (n / 10) (by omega) (by omega)

theorem isWhole_toDigits (n : Nat) : IsWhole (Nat.toDigits 10 n) := by
  refine ⟨isDigits_toDigits n, fun h => ?_⟩
  by_cases hn : n = 0
  · rw [hn, Nat.toDigits_zero]
  · exact absurd h (head?_toDigits hn)

theorem toList_toString (n : Nat) : (toString n).toList = Nat.toDigits 10 n := by
  rw [Nat.toString_eq_ofList_toDigits, String.toList_ofList]

theorem isNumeral_toString (n : Nat) : IsNumeral (toString n).toList := by
  rw [toList_toString]
  exact .plain ⟨_, [], [], isWhole_toDigits n, .none, .none, by simp⟩

/-! ## Shortest numerals -/

theorem isDigits_append {as bs : List Char} (ha : ∀ c ∈ as, c.isDigit = true)
    (hb : IsDigits bs) : IsDigits (as ++ bs) := by
  refine ⟨by simp [hb.1], fun c hc => ?_⟩
  rcases List.mem_append.mp hc with hc | hc
  · exact ha c hc
  · exact hb.2 c hc

theorem isDigit_of_mem_zeros {n : Nat} : ∀ c ∈ List.replicate n '0', c.isDigit = true := by
  intro c hc
  rw [List.eq_of_mem_replicate hc]
  rfl

/-- Digits with zeros behind them are whole if they are not zero themselves. -/
theorem isWhole_zeros {digits : Nat} {n : Nat} (h : digits ≠ 0 ∨ n = 0) :
    IsWhole (Nat.toDigits 10 digits ++ List.replicate n '0') := by
  rcases h with h | rfl
  · refine ⟨⟨by simp [Nat.toDigits_ne_nil], fun c hc => ?_⟩, fun hz => ?_⟩
    · rcases List.mem_append.mp hc with hc | hc
      · exact (isDigits_toDigits digits).2 c hc
      · exact isDigit_of_mem_zeros c hc
    · rw [head?_digits_append] at hz
      exact absurd hz (head?_toDigits h)
  · simpa using isWhole_toDigits digits

theorem isDigits_take {cs : List Char} (h : IsDigits cs) {n : Nat} (hn : 0 < n) :
    IsDigits (cs.take n) := by
  refine ⟨fun hnil => ?_, fun c hc => h.2 c (List.mem_of_mem_take hc)⟩
  rcases List.take_eq_nil_iff.mp hnil with rfl | hnil
  · omega
  · exact h.1 hnil

/-- The first digits of several are whole. -/
theorem isWhole_take {cs : List Char} (h : IsWhole cs) {n : Nat} (hn : 0 < n) :
    IsWhole (cs.take n) := by
  refine ⟨isDigits_take h.digits hn, fun hz => ?_⟩
  obtain ⟨n, rfl⟩ := Nat.exists_eq_add_one_of_ne_zero (Nat.ne_of_gt hn)
  obtain ⟨c, cs, rfl⟩ := List.exists_cons_of_ne_nil h.digits.1
  rw [h.lead (by simpa using hz)]
  simp

/-- A point among the digits leaves a numeral if there is a digit in front of it. -/
theorem isUnsigned_split {ds : List Char} (h : IsWhole ds) {n : Nat} (hn : 0 < n)
    (hlt : n < ds.length) : IsUnsigned (ds.take n ++ '.' :: ds.drop n) := by
  have hdrop : IsDigits (ds.drop n) := by
    refine ⟨fun hnil => ?_, fun c hc => h.digits.2 c (List.mem_of_mem_drop hc)⟩
    have := List.drop_eq_nil_iff.mp hnil
    omega
  exact ⟨_, _, [], isWhole_take h hn, .some hdrop, .none, by simp⟩

theorem isUnsigned_positional {digits : Nat} {power : Int} (h : digits ≠ 0 ∨ power ≤ 0) :
    IsUnsigned (positional digits power ++ (if 0 ≤ power then ".0" else "")).toList := by
  have hds := isWhole_toDigits digits
  have hlength : (toString digits).length = (Nat.toDigits 10 digits).length := by
    rw [← String.length_toList, toList_toString]
  by_cases hp : 0 ≤ power
  · have hwhole : IsWhole (Nat.toDigits 10 digits ++ List.replicate power.toNat '0') :=
      isWhole_zeros (h.imp_right fun h => by omega)
    refine ⟨_, ['.', '0'], [], hwhole, .some isDigits_zero, .none, ?_⟩
    simp [positional, hp, zeros]
  · rw [positional, if_neg hp, if_neg hp, String.append_empty]
    dsimp only
    rw [hlength]
    split
    · rename_i hlt
      have hsplit := isUnsigned_split hds (n := (Nat.toDigits 10 digits).length - (-power).toNat)
        (by omega) (by omega)
      simpa [toList_toString] using hsplit
    · have hzeros := isDigits_append (isDigit_of_mem_zeros
        (n := (-power).toNat - (Nat.toDigits 10 digits).length)) hds.digits
      refine ⟨['0'], _, [], isWhole_zero, .some hzeros, .none, ?_⟩
      simp [zeros]

theorem isExponent_toString (n : Int) : IsExponent ('e' :: (toString n).toList) := by
  cases n with
  | ofNat n =>
    have : (toString (Int.ofNat n)).toList = Nat.toDigits 10 n := toList_toString n
    rw [this]
    exact .plain (isDigits_toDigits n)
  | negSucc n =>
    have : (toString (Int.negSucc n)).toList = '-' :: Nat.toDigits 10 (n + 1) := by
      rw [← toList_toString]
      simp [toString, Int.repr]
    rw [this]
    exact .negative (isDigits_toDigits (n + 1))

theorem isUnsigned_scientific (digits : Nat) (power : Int) :
    IsUnsigned (scientific digits power).toList := by
  have hds := isWhole_toDigits digits
  have hfirst := isWhole_take hds (n := 1) (by decide)
  simp only [scientific, toList_toString]
  split
  · refine ⟨_, [], _, hfirst, .none,
      isExponent_toString (power + ((Nat.toDigits 10 digits).drop 1).length), ?_⟩
    simp
  · rename_i hne
    have hrest : IsDigits ((Nat.toDigits 10 digits).drop 1) :=
      ⟨by simpa using hne, fun c hc => hds.digits.2 c (List.mem_of_mem_drop hc)⟩
    refine ⟨_, _, _, hfirst, .some hrest,
      isExponent_toString (power + ((Nat.toDigits 10 digits).drop 1).length), ?_⟩
    simp

/-! ### Digits of shortest numerals -/

/-- Zero is not in the interval of a positive number. -/
theorem holds_zero {f : Format} {m : Nat} (h : m ≠ 0) (e : Int) {den : Nat} (hden : 0 < den) :
    (f.interval m e).holds 0 den = false := by
  have hunit : 0 < (Quotient.scaled 1 2 (e - 2)).num := by
    simp [Quotient.scaled]
  have hlow : 0 < (f.interval m e).low := by
    simp only [Format.interval]
    apply Nat.mul_pos _ hunit
    split <;> omega
  have := Nat.mul_pos hlow hden
  unfold Interval.holds
  split
  · simp
    omega
  · simp

theorem onGrid_ne_zero {f : Format} {m : Nat} (h : m ≠ 0) (e : Int) {tie : Tie} {power : Int}
    {n : Nat} (hn : (f.interval m e).onGrid tie power = some n) : n ≠ 0 := by
  have hden : 0 < (Quotient.scaled 1 10 power).den := by
    simp [Quotient.scaled]
  have hzero := holds_zero (f := f) h e hden
  have hinside : ∀ k, (f.interval m e).holds (k * (Quotient.scaled 1 10 power).num)
      (Quotient.scaled 1 10 power).den = true → k ≠ 0 := by
    rintro k hk rfl
    rw [Nat.zero_mul, hzero] at hk
    cases hk
  unfold Interval.onGrid at hn
  dsimp only at hn
  split at hn
  · rename_i hin _
    rw [Option.some.injEq] at hn
    split at hn
    · rw [← hn]
      exact Nat.succ_ne_zero _
    · rw [← hn]
      exact hinside _ hin
  · rename_i hin _
    rw [Option.some.injEq] at hn
    rw [← hn]
    exact hinside _ hin
  · rw [Option.some.injEq] at hn
    rw [← hn]
    exact Nat.succ_ne_zero _
  · cases hn

theorem trimZeros_ne_zero {n : Nat} (h : n ≠ 0) (fuel : Nat) (e : Int) :
    (trimZeros fuel n e).1 ≠ 0 := by
  induction fuel generalizing n e with
  | zero => exact h
  | succ fuel ih =>
    rw [trimZeros]
    split
    · exact ih (by omega) _
    · exact h

theorem shortestFrom_ne_zero {f : Format} {m : Nat} (h : m ≠ 0) (e : Int) (tie : Tie)
    (magnitude : Int) (fuel count : Nat) :
    ((f.interval m e).shortestFrom tie magnitude fuel count).1 ≠ 0 ∨
      ((f.interval m e).shortestFrom tie magnitude fuel count).2 ≤ 0 := by
  induction fuel generalizing count with
  | zero => exact Or.inr (Int.le_refl 0)
  | succ fuel ih =>
    rw [Interval.shortestFrom]
    split
    · rename_i n hn
      exact Or.inl (trimZeros_ne_zero (onGrid_ne_zero h e hn) _ _)
    · exact ih _

/-! ### Numerals of a record -/

theorem isNumeral_signed (negative : Bool) {t : String} (h : IsUnsigned t.toList) :
    IsNumeral (signed negative t).toList := by
  cases negative with
  | false => exact .plain h
  | true =>
    have : (signed true t).toList = '-' :: t.toList := by simp [signed]
    rw [this]
    exact .negative h

theorem isNumeral_recordNumeral? {b : Binary} {t : String} (h : recordNumeral? b = some t) :
    IsNumeral t.toList := by
  unfold recordNumeral? at h
  split at h
  · rw [Option.some.injEq] at h
    rw [← h]
    exact isNumeral_signed _ ⟨['0'], ['.', '0'], [], isWhole_zero,
      .some isDigits_zero, .none, by decide⟩
  · rename_i m e hm
    have hne := shortestFrom_ne_zero (f := single) hm e .even
      ((Quotient.scaled m 2 e).magnitude 10) (single.precision + 1) 1
    rw [Option.some.injEq] at h
    rw [← h]
    apply isNumeral_signed
    split
    · exact isUnsigned_positional hne
    · exact isUnsigned_scientific _ _
  · cases h

end TestConversion.Json
