import TestConversion.Text.Identifier

/-!
# Lexical patterns

Regular patterns over characters, matched by their derivatives. `Matches` is the language of a
pattern and `longest` the length of the longest matching initial part of a text.

* `nullable_iff`: `nullable` decides membership of the empty text.
* `matches_deriv`: the derivative by `c` has the texts that match after `c`.
-/

namespace TestConversion.Syntax

/-- A class of characters. -/
inductive CharClass where
  | among (ranges : List (Char × Char))
  | outside (ranges : List (Char × Char))
  | identifierStart
  | identifierPart
  deriving DecidableEq

def CharClass.mem (k : CharClass) (c : Char) : Bool :=
  match k with
  | .among rs => rs.any fun r => r.1 ≤ c && c ≤ r.2
  | .outside rs => !(rs.any fun r => r.1 ≤ c && c ≤ r.2)
  | .identifierStart => Text.isIdentifierStart c
  | .identifierPart => Text.isIdentifierPart c

inductive Pattern where
  | never
  | text (cs : List Char)
  | one (k : CharClass)
  | seq (p q : Pattern)
  | alt (p q : Pattern)
  | star (p : Pattern)
  deriving DecidableEq

namespace Pattern

/-- The texts of a pattern. -/
inductive Matches : Pattern → List Char → Prop
  | text (cs : List Char) : Matches (.text cs) cs
  | one {k : CharClass} {c : Char} : k.mem c = true → Matches (.one k) [c]
  | seq {p q : Pattern} {s t : List Char} : Matches p s → Matches q t → Matches (.seq p q) (s ++ t)
  | altLeft {p q : Pattern} {s : List Char} : Matches p s → Matches (.alt p q) s
  | altRight {p q : Pattern} {s : List Char} : Matches q s → Matches (.alt p q) s
  | starNil {p : Pattern} : Matches (.star p) []
  | starCons {p : Pattern} {s t : List Char} :
      Matches p s → Matches (.star p) t → Matches (.star p) (s ++ t)

def nullable : Pattern → Bool
  | never => false
  | text cs => cs.isEmpty
  | one _ => false
  | seq p q => p.nullable && q.nullable
  | alt p q => p.nullable || q.nullable
  | star _ => true

/-- Sequence, with `never` absorbing and the empty text as unit. -/
def andThen (p q : Pattern) : Pattern :=
  match p, q with
  | never, _ => never
  | _, never => never
  | text [], q => q
  | p, q => seq p q

/-- Union, with `never` as unit and equal sides joined. -/
def orElse (p q : Pattern) : Pattern :=
  match p, q with
  | never, q => q
  | p, never => p
  | p, q => if p = q then p else alt p q

/-- What may follow `c` in a text of the pattern. -/
def deriv (c : Char) : Pattern → Pattern
  | never => never
  | text [] => never
  | text (d :: ds) => if c = d then text ds else never
  | one k => if k.mem c then text [] else never
  | seq p q =>
    if p.nullable then orElse (andThen (p.deriv c) q) (q.deriv c) else andThen (p.deriv c) q
  | alt p q => orElse (p.deriv c) (q.deriv c)
  | star p => andThen (p.deriv c) (star p)

/-- Reads on from a match attempt that is `read` characters long, `best` being the last length at
which it could have ended. -/
def longestFrom (p : Pattern) (read : Nat) (best : Option Nat) : List Char → Option Nat
  | [] => if p.nullable then some read else best
  | c :: cs =>
    let best := if p.nullable then some read else best
    match p.deriv c with
    | never => best
    | q => longestFrom q (read + 1) best cs

/-- Length of the longest initial part of the text that the pattern matches. -/
def longest (p : Pattern) (cs : List Char) : Option Nat := p.longestFrom 0 none cs

/-- Membership, decided by derivatives. -/
def accepts (p : Pattern) : List Char → Bool
  | [] => p.nullable
  | c :: cs => (p.deriv c).accepts cs

/-! ## Building patterns -/

def ofString (s : String) : Pattern := text s.toList

def anyOf (s : String) : Pattern := one (.among (s.toList.map fun c => (c, c)))

def noneOf (s : String) : Pattern := one (.outside (s.toList.map fun c => (c, c)))

def seqs : List Pattern → Pattern
  | [] => text []
  | [p] => p
  | p :: ps => seq p (seqs ps)

def alts : List Pattern → Pattern
  | [] => never
  | [p] => p
  | p :: ps => alt p (alts ps)

def optional (p : Pattern) : Pattern := alt p (text [])

def many1 (p : Pattern) : Pattern := seq p (star p)

/-- One or more `p` with `separator` between them. -/
def sepBy1 (p separator : Pattern) : Pattern := seq p (star (seq separator p))

/-! ## Laws -/

theorem nullable_iff {p : Pattern} : p.nullable = true ↔ Matches p [] := by
  induction p with
  | never => exact ⟨fun h => by simp [nullable] at h, fun h => by cases h⟩
  | text cs =>
    cases cs with
    | nil => exact ⟨fun _ => .text [], fun _ => rfl⟩
    | cons c cs => exact ⟨fun h => by simp [nullable] at h, fun h => by cases h⟩
  | one k => exact ⟨fun h => by simp [nullable] at h, fun h => by cases h⟩
  | seq p q ihp ihq =>
    simp only [nullable, Bool.and_eq_true, ihp, ihq]
    constructor
    · rintro ⟨hp, hq⟩
      exact Matches.seq hp hq
    · intro h
      generalize hs : ([] : List Char) = w at h
      cases h with
      | seq hp hq =>
        obtain ⟨rfl, rfl⟩ := List.append_eq_nil_iff.mp hs.symm
        exact ⟨hp, hq⟩
  | alt p q ihp ihq =>
    simp only [nullable, Bool.or_eq_true, ihp, ihq]
    constructor
    · rintro (h | h)
      · exact .altLeft h
      · exact .altRight h
    · intro h
      cases h with
      | altLeft h => exact .inl h
      | altRight h => exact .inr h
  | star p _ => exact ⟨fun _ => .starNil, fun _ => rfl⟩

theorem matches_andThen {p q : Pattern} {s : List Char} :
    Matches (andThen p q) s ↔ Matches (.seq p q) s := by
  unfold andThen
  split
  · constructor
    · intro h; cases h
    · intro h; cases h with | seq hp _ => cases hp
  · constructor
    · intro h; cases h
    · intro h; cases h with | seq _ hq => cases hq
  · constructor
    · intro h; exact Matches.seq (.text []) h
    · intro h; cases h with | seq hp hq => cases hp; simpa using hq
  · exact Iff.rfl

theorem matches_orElse {p q : Pattern} {s : List Char} :
    Matches (orElse p q) s ↔ Matches p s ∨ Matches q s := by
  unfold orElse
  split
  · constructor
    · intro h; exact .inr h
    · rintro (h | h)
      · cases h
      · exact h
  · constructor
    · intro h; exact .inl h
    · rintro (h | h)
      · exact h
      · cases h
  · split
    · rename_i heq
      subst heq
      simp
    · constructor
      · intro h
        cases h with
        | altLeft h => exact .inl h
        | altRight h => exact .inr h
      · rintro (h | h)
        · exact .altLeft h
        · exact .altRight h

/-- A nonempty text of `p*` starts with a nonempty text of `p`. -/
theorem Matches.star_cons {p : Pattern} {c : Char} {s : List Char} (h : Matches (.star p) (c :: s)) :
    ∃ t u, s = t ++ u ∧ Matches p (c :: t) ∧ Matches (.star p) u := by
  generalize hq : Pattern.star p = q at h
  generalize hw : c :: s = w at h
  induction h with
  | starNil => cases hw
  | @starCons p' t u ht hu _ ihu =>
    cases hq
    cases t with
    | nil => exact ihu rfl (by simpa using hw)
    | cons d t =>
      simp only [List.cons_append, List.cons.injEq] at hw
      obtain ⟨rfl, rfl⟩ := hw
      exact ⟨t, u, rfl, ht, hu⟩
  | _ => cases hq

/-! ### Derivatives of each form -/

theorem matches_deriv_text {cs : List Char} {c : Char} {s : List Char} :
    Matches ((text cs).deriv c) s ↔ Matches (.text cs) (c :: s) := by
  cases cs with
  | nil => exact ⟨fun h => (nomatch h), fun h => (nomatch h)⟩
  | cons d ds =>
    simp only [deriv]
    split
    · rename_i hcd
      subst hcd
      constructor
      · intro h; cases h; exact .text _
      · intro h; cases h; exact .text _
    · rename_i hcd
      constructor
      · intro h; cases h
      · intro h; cases h; exact absurd rfl hcd

theorem matches_deriv_one {k : CharClass} {c : Char} {s : List Char} :
    Matches ((one k).deriv c) s ↔ Matches (.one k) (c :: s) := by
  simp only [deriv]
  split
  · rename_i hk
    constructor
    · intro h; cases h; exact .one hk
    · intro h; cases h; exact .text []
  · rename_i hk
    constructor
    · intro h; cases h
    · intro h; cases h with | one h => exact absurd h hk

/-- The first character of a sequence belongs to its first part, unless that is empty. -/
theorem matches_seq_cons {p q : Pattern} {c : Char} {s : List Char} :
    Matches (.seq p q) (c :: s) ↔
      (∃ t u, s = t ++ u ∧ Matches p (c :: t) ∧ Matches q u) ∨
        (Matches p [] ∧ Matches q (c :: s)) := by
  constructor
  · intro h
    generalize hw : c :: s = w at h
    cases h with
    | @seq _ _ t u hp hq =>
      cases t with
      | nil => exact .inr ⟨hp, by simpa [hw] using hq⟩
      | cons d t =>
        simp only [List.cons_append, List.cons.injEq] at hw
        obtain ⟨rfl, rfl⟩ := hw
        exact .inl ⟨t, u, rfl, hp, hq⟩
  · rintro (⟨t, u, rfl, hp, hq⟩ | ⟨hp, hq⟩)
    · exact Matches.seq hp hq
    · exact Matches.seq hp hq

section

variable {p q : Pattern} {c : Char}
  (hp : ∀ {s}, Matches (p.deriv c) s ↔ Matches p (c :: s))
  (hq : ∀ {s}, Matches (q.deriv c) s ↔ Matches q (c :: s))

include hp

theorem matches_andThen_deriv {s : List Char} :
    Matches (andThen (p.deriv c) q) s ↔
      ∃ t u, s = t ++ u ∧ Matches p (c :: t) ∧ Matches q u := by
  rw [matches_andThen]
  constructor
  · intro h
    cases h with
    | @seq _ _ t u ht hu => exact ⟨t, u, rfl, hp.mp ht, hu⟩
  · rintro ⟨t, u, rfl, ht, hu⟩
    exact Matches.seq (hp.mpr ht) hu

theorem matches_deriv_star {s : List Char} :
    Matches ((star p).deriv c) s ↔ Matches (.star p) (c :: s) := by
  rw [deriv, matches_andThen_deriv hp]
  constructor
  · rintro ⟨t, u, rfl, ht, hu⟩
    exact Matches.starCons (s := c :: t) ht hu
  · exact Matches.star_cons

include hq

theorem matches_deriv_seq {s : List Char} :
    Matches ((seq p q).deriv c) s ↔ Matches (.seq p q) (c :: s) := by
  rw [deriv, matches_seq_cons]
  split
  · rename_i hn
    rw [matches_orElse, matches_andThen_deriv hp, hq]
    simp [nullable_iff.mp hn]
  · rename_i hn
    have hempty : ¬ Matches p [] := fun h => hn (nullable_iff.mpr h)
    rw [matches_andThen_deriv hp]
    simp [hempty]

theorem matches_deriv_alt {s : List Char} :
    Matches ((alt p q).deriv c) s ↔ Matches (.alt p q) (c :: s) := by
  rw [deriv, matches_orElse, hp, hq]
  constructor
  · rintro (h | h)
    · exact .altLeft h
    · exact .altRight h
  · intro h
    cases h with
    | altLeft h => exact .inl h
    | altRight h => exact .inr h

end

theorem matches_deriv {p : Pattern} {c : Char} {s : List Char} :
    Matches (p.deriv c) s ↔ Matches p (c :: s) := by
  induction p generalizing s with
  | never => exact ⟨fun h => (nomatch h), fun h => (nomatch h)⟩
  | text cs => exact matches_deriv_text
  | one k => exact matches_deriv_one
  | seq p q ihp ihq => exact matches_deriv_seq ihp ihq
  | alt p q ihp ihq => exact matches_deriv_alt ihp ihq
  | star p ih => exact matches_deriv_star ih

theorem accepts_iff {p : Pattern} {s : List Char} : p.accepts s = true ↔ Matches p s := by
  induction s generalizing p with
  | nil => exact nullable_iff
  | cons c s ih => rw [accepts, ih, matches_deriv]

end Pattern

end TestConversion.Syntax
