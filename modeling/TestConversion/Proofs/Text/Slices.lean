import TestConversion.Text.SourceText
import Mathlib.Data.List.Basic
import Mathlib.Data.Nat.Init

/-!
# Parts of a text side by side

* `slice?_eq_some_iff`: a part of a text is what stands between two others.
* `slice?_trans`: two parts side by side are one part.
* `withoutBlanks_intercalate`: texts with a separator between them, all without their blanks.
* `withoutBlanks_collapse`: collapsing blanks changes nothing but blanks.
-/

namespace TestConversion.Text

/-! ## Parts -/

/-- A text has one part at its beginning of each size. -/
theorem eq_of_byteSize_eq {a b c d : List Char} (h : a ++ b = c ++ d)
    (hsize : byteSize a = byteSize c) : a = c ∧ b = d := by
  induction a generalizing c with
  | nil =>
    cases c with
    | nil => exact ⟨rfl, h⟩
    | cons y c =>
      have := y.utf8Size_pos
      simp only [byteSize] at hsize
      omega
  | cons x a ih =>
    cases c with
    | nil =>
      have := x.utf8Size_pos
      simp only [byteSize] at hsize
      omega
    | cons y c =>
      rw [List.cons_append, List.cons_append, List.cons.injEq] at h
      obtain ⟨rfl, h⟩ := h
      obtain ⟨rfl, rfl⟩ := ih h (by simpa only [byteSize, Nat.add_left_cancel_iff] using hsize)
      exact ⟨rfl, rfl⟩

theorem exists_of_dropBytes {cs b : List Char} {n : Nat} (h : dropBytes cs n = some b) :
    ∃ a, cs = a ++ b ∧ byteSize a = n := by
  fun_induction dropBytes cs n with
  | case1 cs =>
    cases h
    exact ⟨[], rfl, rfl⟩
  | case2 => cases h
  | case3 c cs n hc ih =>
    obtain ⟨a, rfl, ha⟩ := ih h
    refine ⟨c :: a, rfl, ?_⟩
    rw [byteSize, ha]
    omega
  | case4 => cases h

theorem exists_of_takeBytesFrom {taken cs b : List Char} {n : Nat}
    (h : takeBytesFrom taken cs n = some b) :
    ∃ a rest, cs = a ++ rest ∧ byteSize a = n ∧ b = taken.reverse ++ a := by
  fun_induction takeBytesFrom taken cs n with
  | case1 taken cs =>
    cases h
    exact ⟨[], cs, rfl, rfl, by simp⟩
  | case2 => cases h
  | case3 taken c cs n hc ih =>
    obtain ⟨a, rest, rfl, ha, rfl⟩ := ih h
    refine ⟨c :: a, rest, rfl, ?_, by simp⟩
    rw [byteSize, ha]
    omega
  | case4 => cases h

/-- A part is what stands between two others. -/
theorem slice?_eq_some_iff {cs b : List Char} {start stop : Nat} :
    slice? cs start stop = some b ↔
      ∃ a c, cs = a ++ (b ++ c) ∧ start = byteSize a ∧ stop = byteSize a + byteSize b := by
  constructor
  · intro h
    rw [slice?] at h
    split at h
    · cases h
    · rename_i hle
      obtain ⟨rest, hdrop, htake⟩ := Option.bind_eq_some_iff.mp h
      obtain ⟨a, rfl, ha⟩ := exists_of_dropBytes hdrop
      obtain ⟨b', c, rfl, hb, heq⟩ := exists_of_takeBytesFrom htake
      cases heq
      exact ⟨a, c, rfl, ha.symm, by simp only [List.reverse_nil, List.nil_append]; omega⟩
  · rintro ⟨a, c, rfl, rfl, rfl⟩
    exact slice?_append a b c

/-- Two parts side by side. -/
theorem slice?_trans {cs x y : List Char} {a b c : Nat} (hx : slice? cs a b = some x)
    (hy : slice? cs b c = some y) : slice? cs a c = some (x ++ y) := by
  obtain ⟨p, q, rfl, rfl, rfl⟩ := slice?_eq_some_iff.mp hx
  obtain ⟨p', q', heq, hb, rfl⟩ := slice?_eq_some_iff.mp hy
  rw [← byteSize_append] at hb
  rw [← List.append_assoc] at heq
  obtain ⟨rfl, rfl⟩ := eq_of_byteSize_eq heq hb
  refine slice?_eq_some_iff.mpr ⟨p, q', by simp, rfl, ?_⟩
  rw [byteSize_append, byteSize_append]
  omega

/-! ## Blanks -/

/-- The characters that are not blank. -/
def withoutBlanks (cs : List Char) : List Char := cs.filter fun c => !isBlank c

theorem withoutBlanks_append (a b : List Char) :
    withoutBlanks (a ++ b) = withoutBlanks a ++ withoutBlanks b :=
  List.filter_append a b

theorem withoutBlanks_eq_nil {cs : List Char} (h : ∀ c ∈ cs, isBlank c = true) :
    withoutBlanks cs = [] := by
  rw [withoutBlanks, List.filter_eq_nil_iff]
  intro c hc
  simp [h c hc]

theorem withoutBlanks_eq_self {cs : List Char} (h : ∀ c ∈ cs, isBlank c = false) :
    withoutBlanks cs = cs := by
  rw [withoutBlanks, List.filter_eq_self]
  intro c hc
  simp [h c hc]

/-- The words of a text hold all that is not blank. -/
theorem flatten_wordsFrom {word : List Char} (h : ∀ c ∈ word, isBlank c = false)
    (cs : List Char) : (wordsFrom word cs).flatten = word.reverse ++ withoutBlanks cs := by
  induction cs generalizing word with
  | nil =>
    rw [wordsFrom]
    cases word <;> simp [withoutBlanks]
  | cons c cs ih =>
    rw [wordsFrom, withoutBlanks, List.filter_cons]
    cases hc : isBlank c with
    | true =>
      have hnil := @ih [] (by simp)
      rw [withoutBlanks] at hnil
      cases word <;> simpa using hnil
    | false =>
      have hcons := @ih (c :: word) (by
        intro d hd
        rcases List.mem_cons.mp hd with rfl | hd
        · exact hc
        · exact h d hd)
      simpa [withoutBlanks] using hcons

theorem withoutBlanks_intercalate (sep : List Char) (ws : List (List Char)) :
    withoutBlanks (sep.intercalate ws) = (withoutBlanks sep).intercalate (ws.map withoutBlanks) := by
  induction ws with
  | nil => rfl
  | cons w ws ih =>
    cases ws with
    | nil => simp
    | cons v vs =>
      rw [List.intercalate_cons_cons, withoutBlanks_append, withoutBlanks_append, ih]
      simp only [List.map_cons, List.intercalate_cons_cons]

theorem intercalate_of_nil (ws : List (List Char)) : [].intercalate ws = ws.flatten := by
  induction ws with
  | nil => rfl
  | cons w ws ih =>
    cases ws with
    | nil => simp
    | cons v vs =>
      rw [List.intercalate_cons_cons, ih, List.append_nil]
      rfl

theorem withoutBlanks_collapse (s : String) :
    withoutBlanks (collapse s).toList = withoutBlanks s.toList := by
  have hjoined : (collapse s).toList = [' '].intercalate (wordsFrom [] s.toList) := by
    rw [collapse, words, String.toList_intercalate, List.map_map]
    congr 1
    simp [Function.comp_def]
  have hspace : withoutBlanks [' '] = [] := by decide
  have hwords : (wordsFrom [] s.toList).map withoutBlanks = wordsFrom [] s.toList := by
    rw [List.map_congr_left fun w hw => withoutBlanks_eq_self (wordsFrom_forall (by simp) w hw),
      List.map_id']
  rw [hjoined, withoutBlanks_intercalate, hspace, hwords, intercalate_of_nil,
    flatten_wordsFrom (by simp)]
  rfl

theorem SourceText.withoutBlanks_render (t : SourceText) :
    withoutBlanks t.render.toList = withoutBlanks t.raw := by
  rw [render, withoutBlanks_collapse, String.toList_ofList]

end TestConversion.Text
