import TestConversion.Conversion.Fence
import TestConversion.Proofs.Text.Blanks

/-!
# Answers in fences

An answer is fenced if it starts with a fence line and ends with three backticks, apart from blanks
around it. What stands between the two is its code. Only the ends of an answer decide, so a fence
that was closed earlier counts as one around the whole if some other fence ends the answer.

* `fenced?_eq_some_iff`: what stands between the two ends.
* `codeOf_of_captures`: the code is what the pattern of a fenced text captures, in whichever way it
  matches.
* `codeOf_wrapped`: the code in a fence comes out of it, and an answer without one stays.
* `left_alone_iff`: an answer whose first block ends early stays exactly if no fence ends it.
-/

namespace TestConversion

open Text

/-! ## Fence lines -/

/-- The characters of a tag. -/
def IsTagCharacter (c : Char) : Prop :=
  ('A' ≤ c ∧ c ≤ 'Z') ∨ ('a' ≤ c ∧ c ≤ 'z') ∨ ('0' ≤ c ∧ c ≤ '9') ∨ c = '_' ∨ c = '+' ∨ c = '-'

/-- The end of a line. -/
inductive IsLineEnd : List Char → Prop where
  | newline : IsLineEnd ['\n']
  | carriage : IsLineEnd ['\r', '\n']

/-- A line of three backticks with a tag, which may be empty. -/
structure FenceLine where
  tag : List Char
  spaces : List Char
  ending : List Char
  isTagCharacter : ∀ c ∈ tag, IsTagCharacter c
  isSpace : ∀ c ∈ spaces, c = ' ' ∨ c = '\t'
  isLineEnd : IsLineEnd ending

def FenceLine.text (line : FenceLine) : List Char := fence ++ line.tag ++ line.spaces ++ line.ending

theorem isTagChar_iff {c : Char} : isTagChar c = true ↔ IsTagCharacter c := by
  have halnum : c.isAlphanum = (c.isUpper || c.isLower || c.isDigit) := rfl
  have hupper : c.isUpper = true ↔ 'A' ≤ c ∧ c ≤ 'Z' := decide_eq_true_iff
  have hlower : c.isLower = true ↔ 'a' ≤ c ∧ c ≤ 'z' :=
    (Bool.and_eq_true _ _).to_iff.trans (and_congr decide_eq_true_iff decide_eq_true_iff)
  have hdigit : c.isDigit = true ↔ '0' ≤ c ∧ c ≤ '9' :=
    (Bool.and_eq_true _ _).to_iff.trans (and_congr decide_eq_true_iff decide_eq_true_iff)
  rw [IsTagCharacter, ← hupper, ← hlower, ← hdigit]
  simp only [isTagChar, halnum, Bool.or_eq_true, beq_iff_eq, or_assoc]

theorem isLineBlank_iff {c : Char} : isLineBlank c = true ↔ c = ' ' ∨ c = '\t' := by
  simp [isLineBlank]

theorem afterLineEnd?_eq_some_iff {cs rest : List Char} :
    afterLineEnd? cs = some rest ↔ ∃ ending, IsLineEnd ending ∧ cs = ending ++ rest := by
  constructor
  · intro h
    unfold afterLineEnd? at h
    split at h <;> cases h
    · exact ⟨_, .newline, rfl⟩
    · exact ⟨_, .carriage, rfl⟩
  · rintro ⟨ending, hending, rfl⟩
    cases hending <;> rfl

/-- The characters of one kind at the start of a text are dropped if none of them follows. -/
theorem dropWhile_append_of_head? {p : Char → Bool} {cs rest : List Char} (h : ∀ c ∈ cs, p c = true)
    (hrest : ∀ c ∈ rest.head?, p c = false) : (cs ++ rest).dropWhile p = rest := by
  rw [List.dropWhile_append_of_pos h]
  cases rest with
  | nil => rfl
  | cons c rest => rw [List.dropWhile_cons_of_neg (by simpa using hrest c rfl)]

theorem IsLineEnd.head? {ending : List Char} (h : IsLineEnd ending) (rest : List Char) :
    ∀ c ∈ (ending ++ rest).head?, isTagChar c = false ∧ isLineBlank c = false := by
  cases h <;> simp <;> decide

theorem afterFenceLine?_text (line : FenceLine) (rest : List Char) :
    afterFenceLine? (line.text ++ rest) = some rest := by
  obtain ⟨tag, spaces, ending, htag, hspaces, hending⟩ := line
  have hspace : ∀ c ∈ spaces, isLineBlank c = true := fun c hc => isLineBlank_iff.mpr (hspaces c hc)
  have hdropSpaces : (spaces ++ (ending ++ rest)).dropWhile isLineBlank = ending ++ rest :=
    dropWhile_append_of_head? hspace fun c hc => (hending.head? rest c hc).2
  have hdropTag : (tag ++ (spaces ++ (ending ++ rest))).dropWhile isTagChar =
      spaces ++ (ending ++ rest) := by
    refine dropWhile_append_of_head? (fun c hc => isTagChar_iff.mpr (htag c hc)) ?_
    cases spaces with
    | nil => exact fun c hc => (hending.head? rest c hc).1
    | cons d spaces =>
      rintro c ⟨⟩
      rcases hspaces d List.mem_cons_self with rfl | rfl <;> decide
  calc afterFenceLine? (fence ++ tag ++ spaces ++ ending ++ rest)
      = afterLineEnd? (((tag ++ (spaces ++ (ending ++ rest))).dropWhile isTagChar).dropWhile
          isLineBlank) := by simp only [List.append_assoc]; rfl
    _ = afterLineEnd? (ending ++ rest) := by rw [hdropTag, hdropSpaces]
    _ = some rest := afterLineEnd?_eq_some_iff.mpr ⟨ending, hending, rfl⟩

theorem afterFenceLine?_eq_some_iff {cs rest : List Char} :
    afterFenceLine? cs = some rest ↔ ∃ line : FenceLine, cs = line.text ++ rest := by
  constructor
  · intro h
    unfold afterFenceLine? at h
    split at h
    · rename_i cs
      obtain ⟨ending, hending, hrest⟩ := afterLineEnd?_eq_some_iff.mp h
      refine ⟨⟨cs.takeWhile isTagChar, (cs.dropWhile isTagChar).takeWhile isLineBlank, ending,
        fun c hc => isTagChar_iff.mp (List.mem_takeWhile_imp hc),
        fun c hc => isLineBlank_iff.mp (List.mem_takeWhile_imp hc), hending⟩, ?_⟩
      simp only [FenceLine.text, List.append_assoc, ← hrest, List.takeWhile_append_dropWhile]
      rfl
    · cases h
  · rintro ⟨line, rfl⟩
    exact afterFenceLine?_text line rest

theorem beforeFence?_eq_some_iff {cs code : List Char} :
    beforeFence? cs = some code ↔ cs = code ++ fence := by
  constructor
  · intro h
    unfold beforeFence? at h
    split at h
    · rename_i rest hrest
      cases h
      rw [← List.reverse_reverse cs, hrest]
      simp [fence]
    · cases h
  · rintro rfl
    simp [beforeFence?, fence]

/-- What stands between a fence line and three backticks at the end. -/
theorem fenced?_eq_some_iff {cs inside : List Char} :
    (afterFenceLine? cs).bind beforeFence? = some inside ↔
      ∃ line : FenceLine, cs = line.text ++ inside ++ fence := by
  rw [Option.bind_eq_some_iff]
  constructor
  · rintro ⟨rest, hline, hfence⟩
    obtain ⟨line, rfl⟩ := afterFenceLine?_eq_some_iff.mp hline
    exact ⟨line, by rw [beforeFence?_eq_some_iff.mp hfence, List.append_assoc]⟩
  · rintro ⟨line, rfl⟩
    rw [List.append_assoc]
    exact ⟨inside ++ fence, afterFenceLine?_text line _, beforeFence?_eq_some_iff.mpr rfl⟩

/-! ## Fenced answers -/

/-- After a fence line the answer ends in three backticks, apart from blanks around it. -/
def IsFenced (answer : String) : Prop :=
  ∃ (line : FenceLine) (inside before after : List Char), AreBlank before ∧ AreBlank after ∧
    answer.toList = before ++ (line.text ++ inside ++ fence) ++ after

theorem isTrimmed_fenced (line : FenceLine) (inside : List Char) :
    IsTrimmed (line.text ++ inside ++ fence) := by
  constructor
  · rintro c ⟨⟩
    decide
  · intro c hc
    obtain rfl : c = '`' := by simpa [fence] using hc.symm
    decide

/-- The blanks around an answer do not matter for its fence. -/
theorem isFenced_iff_trim {answer : String} :
    IsFenced answer ↔ ∃ (line : FenceLine) (inside : List Char),
      trim answer.toList = line.text ++ inside ++ fence := by
  constructor
  · rintro ⟨line, inside, before, after, hbefore, hafter, h⟩
    exact ⟨line, inside, by rw [h, trim_around hbefore (isTrimmed_fenced line inside) hafter]⟩
  · rintro ⟨line, inside, h⟩
    obtain ⟨before, after, hbefore, hafter, hanswer⟩ := exists_trim answer.toList
    exact ⟨line, inside, before, after, hbefore, hafter, by rw [← h]; exact hanswer⟩

theorem isFenced_iff_isSome {answer : String} :
    IsFenced answer ↔ ((afterFenceLine? (trim answer.toList)).bind beforeFence?).isSome := by
  rw [isFenced_iff_trim, Option.isSome_iff_exists, exists_comm]
  exact exists_congr fun inside => fenced?_eq_some_iff.symm

instance (answer : String) : Decidable (IsFenced answer) :=
  decidable_of_iff _ isFenced_iff_isSome.symm

theorem codeOf_of_fenced {answer : String} {line : FenceLine} {inside : List Char}
    (h : trim answer.toList = line.text ++ inside ++ fence) :
    codeOf answer = String.ofList (trim inside) := by
  have hinside : (afterFenceLine? (trim answer.toList)).bind beforeFence? = some inside :=
    fenced?_eq_some_iff.mpr ⟨line, h⟩
  rw [codeOf, codeChars]
  simp only [hinside]

theorem codeOf_of_not_isFenced {answer : String} (h : ¬ IsFenced answer) :
    codeOf answer = trimBlanks answer := by
  rw [isFenced_iff_isSome, Option.not_isSome_iff_eq_none] at h
  rw [codeOf, codeChars, trimBlanks]
  simp only [h]

/-! ## The pattern of a fenced text -/

/-- The pattern of a fenced text matches and captures a part of it: between three backticks, a tag,
spaces, a carriage return or none and a newline in front, and a carriage return or none, a newline
or none, three backticks and blanks behind. -/
inductive Captures : (text captured : List Char) → Prop where
  | intro {tag spaces return₁ captured return₂ newline after : List Char}
      (htag : ∀ c ∈ tag, IsTagCharacter c) (hspaces : ∀ c ∈ spaces, c = ' ' ∨ c = '\t')
      (hreturn₁ : return₁ ∈ [[], ['\r']]) (hreturn₂ : return₂ ∈ [[], ['\r']])
      (hnewline : newline ∈ [[], ['\n']]) (hafter : AreBlank after) :
      Captures (fence ++ tag ++ spaces ++ return₁ ++ ['\n'] ++ captured ++ return₂ ++ newline ++
        fence ++ after) captured

theorem FenceLine.captures (line : FenceLine) (inside : List Char) :
    Captures (line.text ++ inside ++ fence) inside := by
  obtain ⟨tag, spaces, ending, htag, hspaces, hending⟩ := line
  cases hending with
  | newline =>
    simpa [FenceLine.text] using
      @Captures.intro tag spaces [] inside [] [] [] htag hspaces (by simp) (by simp) (by simp)
        (by simp [AreBlank])
  | carriage =>
    simpa [FenceLine.text] using
      @Captures.intro tag spaces ['\r'] inside [] [] [] htag hspaces (by simp) (by simp) (by simp)
        (by simp [AreBlank])

/-- A text without blanks at its ends that the pattern matches is fenced. What stands inside is what
is captured, up to blanks behind it. -/
theorem Captures.exists_inside {text captured : List Char} (h : Captures text captured)
    (ht : IsTrimmed text) : ∃ (line : FenceLine) (blanks : List Char), AreBlank blanks ∧
      text = line.text ++ (captured ++ blanks) ++ fence := by
  obtain @⟨tag, spaces, return₁, captured, return₂, newline, after, htag, hspaces, hreturn₁,
    hreturn₂, hnewline, hafter⟩ := h
  have hnil : after = [] := by
    rw [← List.getLast?_eq_none_iff, Option.eq_none_iff_forall_not_mem]
    intro c hc
    have hlast := ht.2 c (by rw [List.getLast?_append, Option.mem_def.mp hc]; rfl)
    rw [hafter c (List.mem_of_getLast? hc)] at hlast
    cases hlast
  have hending : IsLineEnd (return₁ ++ ['\n']) := by
    rcases (by simpa using hreturn₁ : return₁ = [] ∨ return₁ = ['\r']) with rfl | rfl
    · exact .newline
    · exact .carriage
  refine ⟨⟨tag, spaces, return₁ ++ ['\n'], htag, hspaces, hending⟩, return₂ ++ newline, ?_, ?_⟩
  · intro c hc
    have hbreak : c = '\r' ∨ c = '\n' := by
      simp only [List.mem_cons, List.not_mem_nil, or_false] at hreturn₂ hnewline
      rcases hreturn₂ with rfl | rfl <;> rcases hnewline with rfl | rfl <;> simp_all
    rcases hbreak with rfl | rfl <;> decide
  · simp [FenceLine.text, hnil]

/-- Whatever way of matching is taken, the code of the answer is what is captured. -/
theorem codeOf_of_captures {answer : String} {captured : List Char}
    (h : Captures (trim answer.toList) captured) : codeOf answer = String.ofList (trim captured) := by
  obtain ⟨line, blanks, hblanks, htext⟩ := h.exists_inside (isTrimmed_trim _)
  rw [codeOf_of_fenced htext, trim_append_right hblanks]

theorem isFenced_iff_captures {answer : String} :
    IsFenced answer ↔ ∃ captured, Captures (trim answer.toList) captured := by
  rw [isFenced_iff_trim]
  constructor
  · rintro ⟨line, inside, h⟩
    exact ⟨inside, h ▸ line.captures inside⟩
  · rintro ⟨captured, h⟩
    obtain ⟨line, blanks, -, htext⟩ := h.exists_inside (isTrimmed_trim _)
    exact ⟨line, _, htext⟩

/-! ## Code in a fence -/

/-- A fence line, the code, the end of its last line and three backticks make up the answer, with
blanks around them. -/
def Wraps (answer code : String) : Prop :=
  ∃ (line : FenceLine) (ending before after : List Char), IsLineEnd ending ∧ AreBlank before ∧
    AreBlank after ∧ answer.toList = before ++ (line.text ++ (code.toList ++ ending) ++ fence) ++ after

theorem IsLineEnd.areBlank {ending : List Char} (h : IsLineEnd ending) : AreBlank ending := by
  cases h <;> simp [AreBlank] <;> decide

/-- The code in a fence comes out of it without the blanks at its ends, whatever it holds. An answer
that does not begin with a fence line, or does not end in three backticks behind it, only loses the
blanks at its ends. Both follow the pattern: it matches the fenced answers, and the code is what it
captures, in whichever way it matches. -/
theorem codeOf_wrapped :
    (∀ answer code, Wraps answer code → codeOf answer = trimBlanks code) ∧
    (∀ answer, ¬ IsFenced answer → codeOf answer = trimBlanks answer) ∧
    ∀ answer, (IsFenced answer ↔ ∃ captured, Captures (trim answer.toList) captured) ∧
      ∀ captured, Captures (trim answer.toList) captured →
        codeOf answer = String.ofList (trim captured) := by
  refine ⟨?_, fun answer h => codeOf_of_not_isFenced h, fun answer => ?_⟩
  · rintro answer code ⟨line, ending, before, after, hending, hbefore, hafter, h⟩
    have htrim : trim answer.toList = line.text ++ (code.toList ++ ending) ++ fence := by
      rw [h, trim_around hbefore (isTrimmed_fenced line _) hafter]
    rw [codeOf_of_fenced htrim, trim_append_right hending.areBlank, trimBlanks]
  · exact ⟨isFenced_iff_captures, fun captured h => codeOf_of_captures h⟩

/-- A fence line with a blank behind its tag. -/
def spacedLine : FenceLine where
  tag := ['t', 's']
  spaces := [' ']
  ending := ['\r', '\n']
  isTagCharacter := by simp [IsTagCharacter]
  isSpace := by simp
  isLineEnd := .carriage

/-- Near fences inside the code stay, and so does a fence behind some other text. -/
theorem codeOf_wrapped_near :
    let wrapped := " ```ts \r\nlet a = `\n```js\nb` // ```\r\n```\n"
    let code := "let a = `\n```js\nb` // ```"
    let prosed := "So:\n```ts\na\n```"
    (Wraps wrapped code ∧ codeOf wrapped = code) ∧ ¬ IsFenced prosed ∧ codeOf prosed = prosed := by
  intro wrapped code prosed
  obtain ⟨hwrapped, hplain, -⟩ := codeOf_wrapped
  have hwraps : Wraps wrapped code :=
    ⟨spacedLine, ['\r', '\n'], [' '], ['\n'], .carriage, by decide, by decide, by decide⟩
  have hprosed : ¬ IsFenced prosed := by decide
  exact ⟨⟨hwraps, (hwrapped _ _ hwraps).trans (by decide)⟩, hprosed,
    (hplain _ hprosed).trans (by decide)⟩

/-! ## Blocks that end early -/

/-- A text that starts with a fenced block and goes on behind it. -/
structure LeadingBlock where
  opening : FenceLine
  block : List Char
  closing : FenceLine
  rest : List Char
  untagged : closing.tag = []
  /-- The closing line is a line of its own. -/
  block_lines : block = [] ∨ block.getLast? = some '\n'

def LeadingBlock.text (b : LeadingBlock) : List Char :=
  b.opening.text ++ b.block ++ b.closing.text ++ b.rest

theorem FenceLine.exists_text (line : FenceLine) : ∃ front, line.text = front ++ ['\n'] := by
  obtain ⟨tag, spaces, ending, -, -, hending⟩ := line
  cases hending with
  | newline => exact ⟨_, rfl⟩
  | carriage => exact ⟨fence ++ tag ++ spaces ++ ['\r'], by simp [FenceLine.text]⟩

/-- No line break is part of a fence, so a fence at the end of a text stands in its last line. -/
theorem fence_suffix_append_iff {front rest : List Char} :
    fence <:+ front ++ ['\n'] ++ rest ↔ fence <:+ rest := by
  constructor
  · intro h
    have hrest : '\n' :: rest <:+ front ++ ['\n'] ++ rest := ⟨front, by simp⟩
    rcases List.suffix_or_suffix_of_suffix h hrest with hfence | hline
    · rcases List.suffix_cons_iff.mp hfence with heq | hsuffix
      · cases heq
      · exact hsuffix
    · exact absurd (hline.subset List.mem_cons_self) (by decide)
  · exact fun h => h.trans (List.suffix_append _ _)

theorem length_trim_le (cs : List Char) : (trim cs).length ≤ cs.length := by
  obtain ⟨before, after, -, -, h⟩ := exists_trim cs
  have := congrArg List.length h
  simp only [List.length_append] at this
  omega

variable {answer : String} {b : LeadingBlock}

theorem isFenced_iff_rest (h : trim answer.toList = b.text) : IsFenced answer ↔ fence <:+ b.rest := by
  obtain ⟨front, hfront⟩ := b.closing.exists_text
  have htext : b.text = (b.opening.text ++ b.block ++ front) ++ ['\n'] ++ b.rest := by
    rw [LeadingBlock.text, hfront]
    simp
  rw [isFenced_iff_trim, h]
  constructor
  · rintro ⟨line, inside, hinside⟩
    rw [← fence_suffix_append_iff, ← htext, hinside]
    exact List.suffix_append _ _
  · rintro ⟨rest, hrest⟩
    refine ⟨b.opening, b.block ++ b.closing.text ++ rest, ?_⟩
    rw [LeadingBlock.text, ← hrest]
    simp

/-- An answer that goes on behind its first block stays as it is exactly if it does not end in three
backticks. If it does, they and the line that opens the first block are taken away, and the line that
closes this block is left. -/
theorem left_alone_iff (h : trim answer.toList = b.text) :
    (codeOf answer = trimBlanks answer ↔ ¬ fence <:+ b.rest) ∧
    ∀ rest, b.rest = rest ++ fence →
      codeOf answer = String.ofList (trim (b.block ++ b.closing.text ++ rest)) := by
  have htaken : ∀ rest, b.rest = rest ++ fence →
      codeOf answer = String.ofList (trim (b.block ++ b.closing.text ++ rest)) := by
    intro rest hrest
    refine @codeOf_of_fenced answer b.opening _ ?_
    rw [h, LeadingBlock.text, hrest]
    simp
  refine ⟨⟨?_, ?_⟩, htaken⟩
  · rintro hsame ⟨rest, hrest⟩
    -- what is left is shorter
    have hlength : trim (b.block ++ b.closing.text ++ rest) = b.text := by
      rw [← h, ← String.ofList_inj, ← htaken rest hrest.symm, hsame, trimBlanks]
    have hle := length_trim_le (b.block ++ b.closing.text ++ rest)
    rw [hlength, LeadingBlock.text, ← hrest] at hle
    simp only [List.length_append, FenceLine.text, fence, List.length_cons] at hle
    omega
  · intro hrest
    rw [← isFenced_iff_rest h] at hrest
    exact codeOf_of_not_isFenced hrest

/-- A block of one line with some text behind it. -/
def shortBlock (rest : String) : LeadingBlock where
  opening := ⟨['t', 's'], [], ['\n'], by simp [IsTagCharacter], by simp, .newline⟩
  block := ['a', '\n']
  closing := ⟨[], [], ['\n'], by simp, by simp, .newline⟩
  rest := rest.toList
  untagged := rfl
  block_lines := .inr rfl

theorem left_alone_iff_prose :
    let answer := "```ts\na\n```\nDone.\n"
    trim answer.toList = (shortBlock "Done.").text ∧ codeOf answer = trimBlanks answer := by
  intro answer
  have htext : trim answer.toList = (shortBlock "Done.").text := by decide
  exact ⟨htext, (left_alone_iff htext).1.mpr (by decide)⟩

/-- Between two blocks the fence lines inside are left, without those that belong to them. -/
theorem blocks_joined :
    let answer := "```ts\na\n```\nand\n```ts\nb\n```"
    trim answer.toList = (shortBlock "and\n```ts\nb\n```").text ∧
      codeOf answer = "a\n```\nand\n```ts\nb" ∧ codeOf answer ≠ trimBlanks answer := by
  decide

end TestConversion
