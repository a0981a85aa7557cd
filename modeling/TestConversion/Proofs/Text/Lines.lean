import Mathlib.Algebra.GroupWithZero.Nat
import Mathlib.Data.List.Basic
import TestConversion.Text.Blank

/-!
# Lines of a text

A text has one line more than line breaks. Texts that are put together with line breaks have the
lines of all of them.

* `length_lines`: how many lines there are.
* `lines_append`, `lines_intercalate`, `lines_join`: lines of texts with line breaks between or
  behind them.
* `breaks_intercalate`, `breaks_collapse`: the line breaks of a text from its parts.
* `length_flatMap_lines`, `flatMap_lines_of_unbroken`: texts below each other.
-/

namespace TestConversion.Text

/-- What stands between the line breaks of a text. -/
def lines (s : String) : List (List Char) := s.toList.splitOn '\n'

/-- How many line breaks there are in a text. -/
def breaks (s : String) : Nat := s.toList.count '\n'

/-! ## Line breaks -/

theorem breaks_append (s t : String) : breaks (s ++ t) = breaks s + breaks t := by
  rw [breaks, String.toList_append, List.count_append]
  rfl

theorem breaks_ofList (cs : List Char) : breaks (String.ofList cs) = cs.count '\n' := by
  rw [breaks, String.toList_ofList]

theorem breaks_eq_zero_iff {s : String} : breaks s = 0 ↔ '\n' ∉ s.toList := List.count_eq_zero

theorem breaks_intercalate {sep : String} (h : breaks sep = 0) (ss : List String) :
    breaks (sep.intercalate ss) = (ss.map breaks).sum := by
  induction ss with
  | nil => rfl
  | cons s ss ih =>
    cases ss with
    | nil => simp
    | cons t ts =>
      rw [String.intercalate_cons_cons, breaks_append, breaks_append, ih, h, Nat.add_zero]
      rfl

/-- Collapsing leaves no line break. -/
theorem breaks_collapse (s : String) : breaks (collapse s) = 0 := by
  rw [collapse, breaks_intercalate (by decide)]
  refine List.sum_eq_zero_iff_forall_eq_nat.mpr fun n hn => ?_
  obtain ⟨w, hw, rfl⟩ := List.mem_map.mp hn
  rw [breaks_eq_zero_iff]
  intro hmem
  exact absurd (words_forall hw _ hmem) (by decide)

/-! ## Lines -/

theorem length_lines (s : String) : (lines s).length = 1 + breaks s := by
  rw [lines, breaks]
  induction s.toList with
  | nil => rfl
  | cons c cs ih =>
    rw [List.splitOn_cons_eq_if_modifyHead, List.count_cons]
    split
    · simp [ih, Nat.add_comm]
    · simp [ih]

theorem lines_of_unbroken {s : String} (h : breaks s = 0) : lines s = [s.toList] :=
  List.splitOn_eq_singleton (breaks_eq_zero_iff.mp h)

/-- The lines of several texts are their number and their line breaks. -/
theorem length_flatMap_lines (ss : List String) :
    (ss.flatMap lines).length = ss.length + (ss.map breaks).sum := by
  induction ss with
  | nil => rfl
  | cons s ss ih =>
    rw [List.flatMap_cons, List.length_append, length_lines, ih, List.map_cons, List.sum_cons,
      List.length_cons]
    omega

theorem flatMap_lines_of_unbroken {ss : List String} (h : ∀ s ∈ ss, breaks s = 0) :
    ss.flatMap lines = ss.map String.toList := by
  rw [List.flatMap_congr fun s hs => lines_of_unbroken (h s hs)]
  exact List.map_eq_flatMap.symm

theorem lines_append (s t : String) : lines (s ++ "\n" ++ t) = lines s ++ lines t := by
  have hline : "\n".toList = ['\n'] := by decide
  rw [lines, String.toList_append, String.toList_append, hline, List.append_assoc,
    List.singleton_append, List.splitOn_append_cons_self]
  rfl

/-- Texts with line breaks between them. -/
theorem lines_intercalate {ss : List String} (h : ss ≠ []) :
    lines ("\n".intercalate ss) = ss.flatMap lines := by
  induction ss with
  | nil => exact absurd rfl h
  | cons s ss ih =>
    cases ss with
    | nil => simp
    | cons t ts =>
      rw [String.intercalate_cons_cons, lines_append, ih (List.cons_ne_nil t ts)]
      rfl

/-- Texts with line breaks behind them. -/
theorem lines_join (ss : List String) :
    lines (String.join (ss.map (· ++ "\n"))) = ss.flatMap lines ++ [[]] := by
  induction ss with
  | nil => rfl
  | cons s ss ih =>
    rw [List.map_cons, String.join_cons, lines_append, ih, List.flatMap_cons, List.append_assoc]

end TestConversion.Text
