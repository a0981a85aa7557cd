/-!
# Blank characters

`White_Space` of the Unicode character database decides what is blank. Trimming removes blank
characters at both ends, words are the maximal runs of characters that are not blank, and
collapsing joins the words by single spaces.

* `isBlank_of_isWhitespace`: the blanks of the ASCII class are blank.
* `words_forall`: no word holds a blank character.
-/

namespace TestConversion.Text

/-- The characters with the property `White_Space`. -/
def isBlank (c : Char) : Bool :=
  let n := c.toNat
  (9 ≤ n && n ≤ 13) || n == 0x20 || n == 0x85 || n == 0xA0 || n == 0x1680 ||
    (0x2000 ≤ n && n ≤ 0x200A) || n == 0x2028 || n == 0x2029 || n == 0x202F || n == 0x205F ||
    n == 0x3000

/-- The text without the blank characters at its start. -/
def trimStart (cs : List Char) : List Char := cs.dropWhile isBlank

/-- The text without the blank characters at its end. -/
def trimEnd (cs : List Char) : List Char := (cs.reverse.dropWhile isBlank).reverse

/-- The text without the blank characters at its ends. -/
def trim (cs : List Char) : List Char := trimEnd (trimStart cs)

def trimBlanks (s : String) : String := String.ofList (trim s.toList)

/-- Maximal runs of characters that are not blank; `word` is the run being read, reversed. -/
def wordsFrom (word : List Char) : List Char → List (List Char)
  | [] => if word.isEmpty then [] else [word.reverse]
  | c :: cs =>
    if isBlank c then
      if word.isEmpty then wordsFrom [] cs else word.reverse :: wordsFrom [] cs
    else wordsFrom (c :: word) cs

def words (s : String) : List String := (wordsFrom [] s.toList).map String.ofList

/-- Every run of blank characters becomes one space, and those at the ends vanish. -/
def collapse (s : String) : String := " ".intercalate (words s)

/-! ## Laws -/

theorem isBlank_of_isWhitespace {c : Char} (h : c.isWhitespace = true) : isBlank c = true := by
  simp only [Char.isWhitespace, Bool.or_eq_true, decide_eq_true_eq] at h
  rcases h with ((h | h) | h) | h <;> subst h <;> decide

theorem wordsFrom_forall {word cs : List Char} (h : ∀ c ∈ word, isBlank c = false) :
    ∀ w ∈ wordsFrom word cs, ∀ c ∈ w, isBlank c = false := by
  induction cs generalizing word with
  | nil =>
    intro w hw
    simp only [wordsFrom] at hw
    split at hw
    · simp at hw
    · simp only [List.mem_singleton] at hw
      subst hw
      simpa using h
  | cons c cs ih =>
    intro w hw
    simp only [wordsFrom] at hw
    split at hw
    · split at hw
      · exact ih (by simp) w hw
      · rcases List.mem_cons.mp hw with rfl | hw
        · simpa using h
        · exact ih (by simp) w hw
    · rename_i hc
      refine ih ?_ w hw
      intro d hd
      rcases List.mem_cons.mp hd with rfl | hd
      · simpa using hc
      · exact h d hd

/-- A word holds no blank character. -/
theorem words_forall {s w : String} (hw : w ∈ words s) : ∀ c ∈ w.toList, isBlank c = false := by
  simp only [words, List.mem_map] at hw
  obtain ⟨cs, hcs, rfl⟩ := hw
  simpa using wordsFrom_forall (by simp) cs hcs

end TestConversion.Text
