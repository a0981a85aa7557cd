import TestConversion.Text.Escapes
import Mathlib.Data.List.Infix

/-!
# Sequences behind a control character

Of the two characters that start an escape sequence one stands for the other with a bracket behind
it. A text can be freed of the sequences that this one starts and keep the others.

* `unescaped_append_of_none`: characters that start nothing stay.
* `plain_eq_self_iff`: a text stays as it is exactly if no such sequence stands in it.
-/

namespace TestConversion.Text

/-- The character that starts a sequence by itself, without being written as an escape. -/
def introducer : Char := '\u009b'

theorem startsEscape_introducer : startsEscape introducer = true := by decide

/-! ## All sequences -/

theorem unescaped_of_not_starts {c : Char} (h : startsEscape c = false) (cs : List Char) :
    unescaped (c :: cs) = c :: unescaped cs := by
  rw [unescaped, h]
  simp

theorem unescaped_of_rest {c : Char} (h : startsEscape c = true) {cs r : List Char}
    (hr : Escape.begun.rest? cs = some r) : unescaped (c :: cs) = unescaped r := by
  rw [unescaped, if_pos h]
  split
  · rename_i r' hr'
    rw [hr] at hr'
    cases hr'
    rfl
  · rename_i hnone
    rw [hr] at hnone
    cases hnone

theorem unescaped_of_no_rest {c : Char} (h : startsEscape c = true) {cs : List Char}
    (hr : Escape.begun.rest? cs = none) : unescaped (c :: cs) = c :: unescaped cs := by
  rw [unescaped, if_pos h]
  split
  · rename_i r hr'
    rw [hr] at hr'
    cases hr'
  · rfl

theorem unescaped_append_of_none {bs : List Char} (h : ∀ c ∈ bs, startsEscape c = false)
    (cs : List Char) : unescaped (bs ++ cs) = bs ++ unescaped cs := by
  induction bs with
  | nil => rfl
  | cons b bs ih =>
    rw [List.cons_append, unescaped_of_not_starts (h b List.mem_cons_self),
      ih fun c hc => h c (List.mem_cons_of_mem _ hc), List.cons_append]

/-- A sequence does not go on with a character that there is no step for. -/
theorem Escape.rest?_of_no_step {s : Escape} {c : Char} (h : s.step c = none) (cs : List Char) :
    s.rest? (c :: cs) = if s.isComplete then some (c :: cs) else none := by
  rw [Escape.rest?, h]
  rfl

/-! ## Sequences behind the introducer -/

/-- The characters outside of sequences behind the introducer. -/
def unintroduced : List Char → List Char
  | [] => []
  | c :: cs =>
    if c = introducer then
      match h : Escape.begun.rest? cs with
      | some r =>
        have := Escape.length_rest?_le h
        unintroduced r
      | none => c :: unintroduced cs
    else c :: unintroduced cs
termination_by cs => cs.length

/-- The text without the sequences behind the introducer. -/
def plain (s : String) : String := String.ofList (unintroduced s.toList)

/-- The introducer starts no sequence in the text. -/
def IsPlain (s : String) : Prop :=
  ∀ cs, introducer :: cs <:+ s.toList → Escape.begun.rest? cs = none

theorem length_unintroduced_le (cs : List Char) : (unintroduced cs).length ≤ cs.length := by
  fun_induction unintroduced cs with
  | case1 => exact Nat.le_refl _
  | case2 cs r hr hle ih => exact Nat.le_succ_of_le (ih.trans hle)
  | case3 cs hr ih => exact Nat.succ_le_succ ih
  | case4 c cs hc ih => exact Nat.succ_le_succ ih

theorem unintroduced_eq_self_iff (cs : List Char) :
    unintroduced cs = cs ↔ ∀ r, introducer :: r <:+ cs → Escape.begun.rest? r = none := by
  fun_induction unintroduced cs with
  | case1 => simp
  | case2 cs r hr hle ih =>
    constructor
    · intro h
      have hlength := length_unintroduced_le r
      rw [h, List.length_cons] at hlength
      omega
    · intro h
      rw [h cs (List.suffix_refl _)] at hr
      cases hr
  | case3 cs hr ih =>
    rw [List.cons.injEq, ih]
    constructor
    · rintro ⟨-, h⟩ r hsuffix
      rcases List.suffix_cons_iff.mp hsuffix with heq | hsuffix
      · cases heq
        exact hr
      · exact h r hsuffix
    · intro h
      exact ⟨rfl, fun r hsuffix => h r (hsuffix.trans (List.suffix_cons _ _))⟩
  | case4 c cs hc ih =>
    rw [List.cons.injEq, ih]
    constructor
    · rintro ⟨-, h⟩ r hsuffix
      rcases List.suffix_cons_iff.mp hsuffix with heq | hsuffix
      · cases heq
        exact absurd rfl hc
      · exact h r hsuffix
    · intro h
      exact ⟨rfl, fun r hsuffix => h r (hsuffix.trans (List.suffix_cons _ _))⟩

/-- A text stays as it is exactly if the introducer starts no sequence in it. -/
theorem plain_eq_self_iff (s : String) : plain s = s ↔ IsPlain s := by
  rw [IsPlain, ← unintroduced_eq_self_iff, plain, ← String.toList_inj, String.toList_ofList]

end TestConversion.Text
