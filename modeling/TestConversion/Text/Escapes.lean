/-!
# Terminal escapes

Text for a terminal holds sequences that set colours or move the cursor. A sequence starts with one
of two characters and goes on with marks, then numbers between semicolons, then a final character.
Of the sequences that start at one place the longest is meant, and a start without a sequence is
text like any other.

* `withoutEscapes_of_none`: a text in which nothing starts a sequence stays as it is.
-/

namespace TestConversion.Text

/-- How much of a sequence has been read. -/
inductive Escape where
  | begun
  /-- Right after the start, a round bracket, which may name a set of characters. -/
  | bracket
  | marks
  /-- The digits of a number, up to four, or a fifth one as the final character. -/
  | digits (count : Nat)
  | semicolon
  | closed
  deriving DecidableEq

def startsEscape (c : Char) : Bool := c == '\x1b' || c == '\u009b'

/-- Final characters other than digits. -/
def closesEscape (c : Char) : Bool :=
  ('A' ≤ c && c ≤ 'P') || ('f' ≤ c && c ≤ 'n') || "RZcqry=><".toList.contains c

namespace Escape

/-- Whether a sequence may end here. -/
def isComplete : Escape → Bool
  | digits _ | closed => true
  | _ => false

def afterDigit (c : Char) : Escape → Option Escape
  | begun | marks | semicolon => some (digits 1)
  | bracket => some (if c ≤ '2' then closed else digits 1)
  | digits n => if n < 4 then some (digits (n + 1)) else some closed
  | closed => none

def afterSemicolon : Escape → Option Escape
  | begun | bracket | marks => some marks
  | digits _ | semicolon => some semicolon
  | closed => none

def afterMark (c : Char) : Escape → Option Escape
  | begun => some (if c == '(' || c == ')' then bracket else marks)
  | bracket | marks => some marks
  | _ => none

def step (s : Escape) (c : Char) : Option Escape :=
  if s = closed then none
  else if c.isDigit then s.afterDigit c
  else if c == ';' then s.afterSemicolon
  else if "()[#?".toList.contains c then s.afterMark c
  else if closesEscape c then some closed
  else none

/-- What follows the longest sequence that goes on from here. -/
def rest? (s : Escape) : List Char → Option (List Char)
  | [] => if s.isComplete then some [] else none
  | c :: cs =>
    ((s.step c).bind fun t => rest? t cs).or (if s.isComplete then some (c :: cs) else none)

theorem length_rest?_le {s : Escape} {cs r : List Char} (h : s.rest? cs = some r) :
    r.length ≤ cs.length := by
  induction cs generalizing s r with
  | nil =>
    obtain ⟨-, rfl⟩ : s.isComplete = true ∧ [] = r := by simpa [rest?] using h
    simp
  | cons c cs ih =>
    rcases Option.or_eq_some_iff.1 (by simpa only [rest?] using h) with h | ⟨-, h⟩
    · obtain ⟨t, -, ht⟩ := Option.bind_eq_some_iff.1 h
      exact Nat.le_succ_of_le (ih ht)
    · obtain ⟨-, rfl⟩ : s.isComplete = true ∧ c :: cs = r := by simpa using h
      simp

end Escape

/-- The characters outside of escape sequences. -/
def unescaped : List Char → List Char
  | [] => []
  | c :: cs =>
    if startsEscape c then
      match h : Escape.begun.rest? cs with
      | some r =>
        have := Escape.length_rest?_le h
        unescaped r
      | none => c :: unescaped cs
    else c :: unescaped cs
termination_by cs => cs.length

def withoutEscapes (s : String) : String := String.ofList (unescaped s.toList)

/-! ## Laws -/

theorem unescaped_of_none {cs : List Char} (h : ∀ c ∈ cs, startsEscape c = false) :
    unescaped cs = cs := by
  induction cs with
  | nil => simp [unescaped]
  | cons c cs ih =>
    rw [unescaped]
    simp [h c (by simp), ih fun d hd => h d (by simp [hd])]

theorem withoutEscapes_of_none {s : String} (h : ∀ c ∈ s.toList, startsEscape c = false) :
    withoutEscapes s = s := by
  simp [withoutEscapes, unescaped_of_none h]

end TestConversion.Text
