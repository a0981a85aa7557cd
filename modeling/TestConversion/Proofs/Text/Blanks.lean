import Mathlib.Data.List.TakeWhile
import TestConversion.Text.Blank

/-!
# Blanks around texts

Trimming takes blanks away at both ends of a text and nothing else. A text without blanks at its
ends is what trimming makes of it, whatever blanks are put around it.

* `isTrimmed_trim`: what is left has no blanks at its ends.
* `exists_trim`: a text is what is left of it, with blanks around it.
* `trim_append_left`, `trim_append_right`: blanks at an end do not matter.
* `trim_around`: only the blanks around a text are taken away.
-/

namespace TestConversion

open Text

/-- A text of blanks. -/
def AreBlank (cs : List Char) : Prop := ∀ c ∈ cs, isBlank c = true

instance (cs : List Char) : Decidable (AreBlank cs) :=
  decidable_of_iff (cs.all isBlank = true) List.all_eq_true

/-- No blank stands at either end of the text. -/
def IsTrimmed (cs : List Char) : Prop :=
  (∀ c ∈ cs.head?, isBlank c = false) ∧ ∀ c ∈ cs.getLast?, isBlank c = false

/-! ## What is left -/

theorem head?_dropWhile_isBlank {cs : List Char} :
    ∀ c ∈ (cs.dropWhile isBlank).head?, isBlank c = false := by
  intro c hc
  have h := List.head?_dropWhile_not isBlank cs
  rw [Option.mem_def.mp hc] at h
  exact h

theorem trimEnd_prefix (cs : List Char) : trimEnd cs <+: cs := by
  rw [← List.reverse_suffix, trimEnd, List.reverse_reverse]
  exact List.dropWhile_suffix isBlank

theorem isTrimmed_trim (cs : List Char) : IsTrimmed (trim cs) := by
  constructor
  · intro c hc
    obtain ⟨rest, hrest⟩ := trimEnd_prefix (trimStart cs)
    refine @head?_dropWhile_isBlank cs c ?_
    rw [trimStart] at hrest
    rw [Option.mem_def, ← hrest, List.head?_append]
    rw [trim, trimStart] at hc
    rw [Option.mem_def.mp hc]
    rfl
  · intro c hc
    rw [trim, trimEnd, List.getLast?_reverse] at hc
    exact head?_dropWhile_isBlank c hc

/-! ## What is taken away -/

theorem exists_trimStart (cs : List Char) : ∃ before, AreBlank before ∧ cs = before ++ trimStart cs :=
  ⟨cs.takeWhile isBlank, fun _ hc => List.mem_takeWhile_imp hc, List.takeWhile_append_dropWhile.symm⟩

theorem exists_trimEnd (cs : List Char) : ∃ after, AreBlank after ∧ cs = trimEnd cs ++ after := by
  obtain ⟨before, hbefore, hcs⟩ := exists_trimStart cs.reverse
  refine ⟨before.reverse, fun c hc => hbefore c (List.mem_reverse.mp hc), ?_⟩
  rw [trimEnd, ← trimStart, ← List.reverse_append, ← hcs, List.reverse_reverse]

/-- A text is what trimming leaves of it, with blanks around it. -/
theorem exists_trim (cs : List Char) :
    ∃ before after, AreBlank before ∧ AreBlank after ∧ cs = before ++ trim cs ++ after := by
  obtain ⟨before, hbefore, hcs⟩ := exists_trimStart cs
  obtain ⟨after, hafter, hstart⟩ := exists_trimEnd (trimStart cs)
  exact ⟨before, after, hbefore, hafter, by rw [List.append_assoc, trim, ← hstart, ← hcs]⟩

/-! ## Blanks put around -/

theorem trimStart_append {before : List Char} (h : AreBlank before) (cs : List Char) :
    trimStart (before ++ cs) = trimStart cs :=
  List.dropWhile_append_of_pos h

theorem trimEnd_append {after : List Char} (h : AreBlank after) (cs : List Char) :
    trimEnd (cs ++ after) = trimEnd cs := by
  have hreverse : AreBlank after.reverse := fun c hc => h c (List.mem_reverse.mp hc)
  rw [trimEnd, List.reverse_append, ← trimStart, trimStart_append hreverse, trimStart, ← trimEnd]

theorem trim_append_left {before : List Char} (h : AreBlank before) (cs : List Char) :
    trim (before ++ cs) = trim cs := by
  rw [trim, trimStart_append h, ← trim]

theorem trim_append_right {after : List Char} (h : AreBlank after) (cs : List Char) :
    trim (cs ++ after) = trim cs := by
  rw [trim, trimStart, List.dropWhile_append]
  split
  · -- nothing but blanks
    rename_i hempty
    rw [List.isEmpty_iff] at hempty
    have hafter : trimStart after = [] := by simpa [trimStart] using trimStart_append h []
    rw [← trimStart, hafter, trim, trimStart, hempty]
  · rw [trimEnd_append h, trim, trimStart]

theorem dropWhile_isBlank_eq_self {cs : List Char} (h : ∀ c ∈ cs.head?, isBlank c = false) :
    cs.dropWhile isBlank = cs := by
  cases cs with
  | nil => rfl
  | cons c cs => rw [List.dropWhile_cons_of_neg (by simpa using h c rfl)]

theorem trim_of_isTrimmed {cs : List Char} (h : IsTrimmed cs) : trim cs = cs := by
  have hlast : ∀ c ∈ cs.reverse.head?, isBlank c = false := by
    rw [List.head?_reverse]
    exact h.2
  rw [trim, trimStart, dropWhile_isBlank_eq_self h.1, trimEnd, dropWhile_isBlank_eq_self hlast,
    List.reverse_reverse]

/-- Trimming takes away the blanks around a text without blanks at its ends, and nothing of it. -/
theorem trim_around {before cs after : List Char} (hbefore : AreBlank before) (h : IsTrimmed cs)
    (hafter : AreBlank after) : trim (before ++ cs ++ after) = cs := by
  rw [trim_append_right hafter, trim_append_left hbefore, trim_of_isTrimmed h]

end TestConversion
