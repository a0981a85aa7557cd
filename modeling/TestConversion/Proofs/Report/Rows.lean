import Mathlib.Data.List.SplitBy
import TestConversion.Conversion.Prompt
import TestConversion.Proofs.Java.Breaks
import TestConversion.Proofs.Json.Numerals
import TestConversion.Report.Summary

/-!
# Rows of calls

The outline in a prompt and the report for a terminal list the calls of each method below its
header. A call has one row in them, and one more for each line break in the literals that its
arguments are spelled with.

* `lines_structureSection`, `Report.lines_summary`: the lines of the outline and of the report.
* `MethodSummary.length_outlineRows`, `Report.length_rows`: the rows of a method.
* `outline_read`, `Report.rows_read`: without line breaks in them, the methods and their calls are
  found again.
* `calls_by_rows`: the rows for the calls of a source text.
-/

namespace TestConversion

open Text

/-! ## Blocks -/

/-- A list that starts with what no later member of it is. -/
def IsBlock {α : Type} (first : α → Bool) (b : List α) : Prop :=
  ∃ x xs, b = x :: xs ∧ first x = true ∧ ∀ y ∈ xs, first y = false

/-- Blocks behind each other are found again. -/
theorem splitBy_blocks {α β : Type} {first : α → Bool} {block : β → List α} {xs : List β}
    (h : ∀ x ∈ xs, IsBlock first (block x)) :
    (xs.flatMap block).splitBy (fun _ a => !first a) = xs.map block := by
  rw [List.flatMap_def]
  refine List.splitBy_flatten ?nonempty ?inside ?between
  case nonempty =>
    intro hnil
    obtain ⟨x, hx, hb⟩ := List.mem_map.mp hnil
    obtain ⟨a, as, ha, -⟩ := h x hx
    rw [hb] at ha
    cases ha
  case inside =>
    refine List.forall_mem_map.mpr fun x hx => ?_
    obtain ⟨a, as, hb, -, has⟩ := h x hx
    rw [hb]
    refine List.Pairwise.isChain (List.pairwise_cons.mpr ⟨fun b hb => ?_, ?_⟩)
    · rw [has b hb]
      rfl
    · refine List.pairwise_of_forall_mem_list fun _ _ b hb => ?_
      rw [has b hb]
      rfl
  case between =>
    refine List.Pairwise.isChain (List.pairwise_of_forall_mem_list ?_)
    refine List.forall_mem_map.mpr fun x hx => List.forall_mem_map.mpr fun y hy => ?_
    obtain ⟨a, as, hx, -⟩ := h x hx
    obtain ⟨b, bs, hy, hfirst, -⟩ := h y hy
    rw [hx, hy]
    exact ⟨List.cons_ne_nil a as, List.cons_ne_nil b bs, by simp [hfirst]⟩

/-! ## Line breaks of calls -/

namespace MethodSummary

/-- No call of the method has a line break in it. -/
def Unbroken (s : MethodSummary) : Prop := ∀ c ∈ s.calls, breaks c.display = 0

instance (s : MethodSummary) : Decidable s.Unbroken :=
  inferInstanceAs (Decidable (∀ c ∈ s.calls, breaks c.display = 0))

/-- As many rows as calls, if there is one row more for each line break. -/
theorem length_eq_iff {s : MethodSummary} {rows : List (List Char)}
    (h : rows.length = s.calls.length + (s.calls.map fun c => breaks c.display).sum) :
    rows.length = s.calls.length ↔ s.Unbroken := by
  rw [h, Nat.add_eq_left, List.sum_eq_zero_iff_forall_eq_nat, List.forall_mem_map]
  rfl

end MethodSummary

/-! ## The outline in a prompt -/

theorem breaks_outlineLine (c : Call) : breaks c.outlineLine = breaks c.display := by
  have hindent : breaks "    " = 0 := by decide
  rw [Call.outlineLine, breaks_append, hindent, Nat.zero_add]

namespace MethodSummary

variable {s : MethodSummary}

theorem breaks_outlineHeader (hname : breaks s.name = 0)
    (hannotations : ∀ a ∈ s.annotations, breaks a = 0) : breaks s.outlineHeader = 0 := by
  have hdash : breaks "- " = 0 := by decide
  rw [outlineHeader]
  split
  · simp [breaks_append, hdash, hname]
  · have hsign : breaks "@" = 0 := by decide
    have hopening : breaks " [" = 0 := by decide
    have hclosing : breaks "]" = 0 := by decide
    have hlist : breaks (" ".intercalate (s.annotations.map ("@" ++ ·))) = 0 := by
      rw [breaks_intercalate (by decide)]
      refine List.sum_eq_zero_iff_forall_eq_nat.mpr ?_
      simpa [breaks_append, hsign] using hannotations
    simp [breaks_append, hdash, hname, hopening, hlist, hclosing]

/-- The lines of the calls of a method in the outline. -/
def outlineRows (s : MethodSummary) : List (List Char) :=
  (s.calls.map Call.outlineLine).flatMap lines

/-- The lines of a method in the outline. -/
def outlineBlock (s : MethodSummary) : List (List Char) :=
  s.outlineHeader.toList :: s.outlineRows

theorem length_outlineRows (s : MethodSummary) : s.outlineRows.length =
    s.calls.length + (s.calls.map fun c => breaks c.display).sum := by
  have hbreaks : breaks ∘ Call.outlineLine = fun c => breaks c.display :=
    funext breaks_outlineLine
  rw [outlineRows, length_flatMap_lines, List.length_map, List.map_map, hbreaks]

theorem outlineRows_of_unbroken (h : s.Unbroken) :
    s.outlineRows = s.calls.map fun c => c.outlineLine.toList := by
  rw [outlineRows, flatMap_lines_of_unbroken, List.map_map]
  · rfl
  · intro r hr
    obtain ⟨c, hc, rfl⟩ := List.mem_map.mp hr
    rw [breaks_outlineLine, h c hc]

/-- A call is read from its line in the outline. -/
theorem displays_of_outlineRows (h : s.Unbroken) :
    s.outlineRows.map (·.drop 4) = s.calls.map (·.display.toList) := by
  rw [outlineRows_of_unbroken h, List.map_map]
  refine List.map_congr_left fun c _ => ?_
  simp only [Function.comp_apply, Call.outlineLine, String.toList_append]
  rfl

end MethodSummary

/-- Headers are told from calls by their dash. -/
def headsOutline (row : List Char) : Bool := row.head? == some '-'

theorem MethodSummary.isBlock_outlineBlock {s : MethodSummary} (h : s.Unbroken) :
    IsBlock headsOutline s.outlineBlock := by
  refine ⟨s.outlineHeader.toList, s.outlineRows, rfl, ?_, fun row hrow => ?_⟩
  · rw [headsOutline, outlineHeader]
    split <;> simp only [String.toList_append, List.append_assoc] <;> rfl
  · rw [outlineRows_of_unbroken h] at hrow
    obtain ⟨c, -, rfl⟩ := List.mem_map.mp hrow
    rw [headsOutline, Call.outlineLine, String.toList_append]
    rfl

/-- Without line breaks in calls, the methods are found again in the outline. -/
theorem outline_read {methods : List MethodSummary} (h : ∀ s ∈ methods, s.Unbroken) :
    (methods.flatMap MethodSummary.outlineBlock).splitBy (fun _ row => !headsOutline row) =
      methods.map MethodSummary.outlineBlock :=
  splitBy_blocks fun s hs => MethodSummary.isBlock_outlineBlock (h s hs)

/-- What stands in the outline in front of the methods. -/
def Metadata.outlineFront (m : Metadata) : List String :=
  (if m.className.isEmpty then [] else ["Class: " ++ m.className]) ++
  if m.usesTestFramework then []
  else ["No TestNG imports found; keep the test structure as written."]

theorem Metadata.breaks_outlineFront {m : Metadata} (h : breaks m.className = 0) :
    ∀ r ∈ m.outlineFront, breaks r = 0 := by
  have hclass : breaks ("Class: " ++ m.className) = 0 := by
    have hlabel : breaks "Class: " = 0 := by decide
    rw [breaks_append, hlabel, h]
  have hnote : breaks "No TestNG imports found; keep the test structure as written." = 0 := by
    decide
  intro r hr
  rcases List.mem_append.mp hr with hr | hr
  · split at hr
    · cases hr
    · exact List.mem_singleton.mp hr ▸ hclass
  · split at hr
    · cases hr
    · exact List.mem_singleton.mp hr ▸ hnote

theorem Metadata.outline_ne_nil {m : Metadata}
    (h : ¬(m.className.isEmpty && m.methods.isEmpty) = true) : m.outline ≠ [] := by
  intro hnil
  obtain ⟨hfront, hmethods⟩ := List.append_eq_nil_iff.mp hnil
  have hclass := (List.append_eq_nil_iff.mp hfront).1
  -- A class gives a line of its own, and each method gives one at least.
  cases hc : m.className.isEmpty with
  | false =>
    rw [hc] at hclass
    cases hclass
  | true =>
    cases hm : m.methods with
    | nil => simp [hc, hm] at h
    | cons s ss =>
      rw [hm] at hmethods
      cases hmethods

namespace Java.NamesUnbroken

variable {m : Metadata}

theorem lines_outline (h : NamesUnbroken m) : m.outline.flatMap lines =
    m.outlineFront.map String.toList ++ m.methods.flatMap MethodSummary.outlineBlock := by
  have hblock : ∀ s ∈ m.methods, s.outline.flatMap lines = s.outlineBlock := by
    intro s hs
    have hheader := MethodSummary.breaks_outlineHeader (h.name s hs) (h.annotations s hs)
    rw [MethodSummary.outline, List.flatMap_cons, lines_of_unbroken hheader]
    rfl
  have hmethods := List.flatMap_congr hblock
  rw [Metadata.outline, List.flatMap_append, List.flatMap_assoc, hmethods]
  exact congrArg (· ++ _) (flatMap_lines_of_unbroken (m.breaks_outlineFront h.className))

/-- The outline in a prompt: a header for each method and below it the lines of its calls. -/
theorem lines_structureSection (h : NamesUnbroken m) :
    lines m.structureSection =
      if m.className.isEmpty && m.methods.isEmpty then [[]]
      else [[], "Structure of the file (calls in execution order):".toList] ++
        m.outlineFront.map String.toList ++ m.methods.flatMap MethodSummary.outlineBlock ++
        [[]] := by
  rw [Metadata.structureSection]
  split
  · rfl
  · rename_i hnone
    have hsection : "\nStructure of the file (calls in execution order):\n" =
        "" ++ "\n" ++ "Structure of the file (calls in execution order):" ++ "\n" := by decide
    have hline := lines_of_unbroken
      (show breaks "Structure of the file (calls in execution order):" = 0 by decide)
    have hempty : lines "" = [[]] := by decide
    have hassoc : ∀ a b c : String, "" ++ "\n" ++ a ++ "\n" ++ b ++ c =
        "" ++ "\n" ++ (a ++ "\n" ++ (b ++ c)) := by simp [String.append_assoc]
    have hend := lines_append ("\n".intercalate m.outline) ""
    rw [String.append_empty] at hend
    rw [hsection, hassoc, lines_append, lines_append, hend,
      lines_intercalate (Metadata.outline_ne_nil hnone), h.lines_outline, hline, hempty]
    simp only [List.cons_append, List.nil_append, List.append_assoc]

end Java.NamesUnbroken

/-! ## The report for a terminal -/

namespace Report

/-- The row of a call, with the number of the call in its method. -/
def callRow (number : Nat) (c : Call) : String :=
  "    " ++ Style.dim.of (padLeft 3 number) ++ "  " ++ c.display

/-- The line of a method above its calls. -/
def methodHeader (s : MethodSummary) : String :=
  if s.annotations.isEmpty then "  " ++ Style.bold.of s.name
  else "  " ++ " ".intercalate (s.annotations.map annotationText) ++ " " ++ Style.bold.of s.name

def callRows (s : MethodSummary) : List String := s.calls.zipIdx.map fun (c, i) => callRow (i + 1) c

theorem methodText_eq (s : MethodSummary) : methodText s =
    String.join (("" :: methodHeader s :: callRows s).map (· ++ "\n")) := by
  have hrows : (s.calls.zipIdx.map fun (c, i) => callLine (i + 1) c) =
      (callRows s).map (· ++ "\n") := by
    -- `callLine` is the row with a line break behind it.
    rw [callRows, List.map_map]
    rfl
  have hindent : "\n  " = "\n" ++ "  " := by decide
  rw [methodText, hrows, methodHeader, hindent]
  split <;> simp only [List.map_cons, String.join_cons, String.empty_append, String.append_assoc]

/-- What stands in the report in front of the methods. -/
def front (m : Metadata) : List String :=
  let title := if m.fileName.isEmpty then "<source>" else m.fileName
  let className :=
    if m.className.isEmpty then Style.dim.of "(none)" else Style.cyan.of m.className
  ["", Style.bold.of title, Style.dim.of rule,
    "Class: " ++ className ++ "  " ++ "Imports: " ++ toString m.imports.length ++ " (" ++
      toString m.automationImports.length ++ " automation)  TestNG: " ++
      (if m.usesTestFramework then "yes" else "no")] ++
  if m.methods.isEmpty then ["  " ++ Style.dim.of "no methods"] else []

theorem join_methods (m : Metadata) :
    (if m.methods.isEmpty then "  " ++ Style.dim.of "no methods" ++ "\n"
      else String.join (m.methods.map methodText)) =
    String.join ((if m.methods.isEmpty then ["  " ++ Style.dim.of "no methods"] else []).map
      (· ++ "\n")) ++
    String.join ((m.methods.flatMap fun s => "" :: methodHeader s :: callRows s).map
      (· ++ "\n")) := by
  have hjoin : String.join ((m.methods.flatMap fun s => "" :: methodHeader s :: callRows s).map
      (· ++ "\n")) = String.join (m.methods.map methodText) := by
    rw [List.map_flatMap]
    induction m.methods with
    | nil => rfl
    | cons s ss ih =>
      rw [List.flatMap_cons, String.join_append, ih, ← methodText_eq, List.map_cons,
        String.join_cons]
  rw [hjoin]
  split
  · rename_i hnone
    rw [List.isEmpty_iff.mp hnone]
    simp
  · simp

theorem summary_eq (m : Metadata) : summary m =
    String.join ((front m ++ m.methods.flatMap fun s => "" :: methodHeader s :: callRows s).map
      (· ++ "\n")) := by
  rw [List.map_append, String.join_append, front, List.map_append, String.join_append,
    String.append_assoc, ← join_methods m]
  unfold summary
  simp only [List.map_cons, List.map_nil, String.join_cons, String.join_nil, String.empty_append,
    String.append_empty, String.append_assoc]

/-! ### Line breaks -/

theorem breaks_styled (style : Style) (text : String) : breaks (style.of text) = breaks text := by
  have hcode : breaks style.code = 0 := by cases style <;> decide
  have hend : breaks "\x1b[0m" = 0 := by decide
  rw [Style.of, breaks_append, breaks_append, hcode, hend, Nat.zero_add, Nat.add_zero]

/-- A number is blanks and digits. -/
theorem padLeft_chars (width n : Nat) :
    ∀ c ∈ (padLeft width n).toList, c = ' ' ∨ c.isDigit = true := by
  intro c hc
  rw [padLeft, String.toList_append, String.toList_ofList] at hc
  rcases List.mem_append.mp hc with hc | hc
  · exact Or.inl (List.eq_of_mem_replicate hc)
  · rw [Json.toList_toString] at hc
    exact Or.inr ((Json.isDigits_toDigits n).2 c hc)

theorem breaks_padLeft (width n : Nat) : breaks (padLeft width n) = 0 := by
  rw [breaks_eq_zero_iff]
  intro hmem
  rcases padLeft_chars width n _ hmem with hc | hc
  · exact absurd hc (by decide)
  · exact absurd hc (by decide)

theorem breaks_callRow (number : Nat) (c : Call) :
    breaks (callRow number c) = breaks c.display := by
  have hindent : breaks "    " = 0 := by decide
  have hgap : breaks "  " = 0 := by decide
  rw [callRow, breaks_append, breaks_append, breaks_append, breaks_styled, breaks_padLeft, hindent,
    hgap]
  omega

theorem breaks_annotationText (a : String) : breaks (annotationText a) = breaks a := by
  have hsign : breaks "@" = 0 := by decide
  rw [annotationText, breaks_styled, breaks_append, hsign, Nat.zero_add]

theorem breaks_methodHeader {s : MethodSummary} (hname : breaks s.name = 0)
    (hannotations : ∀ a ∈ s.annotations, breaks a = 0) : breaks (methodHeader s) = 0 := by
  have hindent : breaks "  " = 0 := by decide
  have hgap : breaks " " = 0 := by decide
  have hlist : breaks (" ".intercalate (s.annotations.map annotationText)) = 0 := by
    rw [breaks_intercalate hgap]
    refine List.sum_eq_zero_iff_forall_eq_nat.mpr ?_
    simpa [breaks_annotationText] using hannotations
  rw [methodHeader]
  split <;> simp only [breaks_append, breaks_styled, hindent, hgap, hname, hlist]

/-! ### Rows -/

/-- The lines of the calls of a method in the report. -/
def rows (s : MethodSummary) : List (List Char) := (callRows s).flatMap lines

/-- The lines of a method in the report, with the blank line in front of it. -/
def block (s : MethodSummary) : List (List Char) := [] :: (methodHeader s).toList :: rows s

/-- What does not depend on the number of a call. -/
theorem map_callRows {α : Type} {f : String → α} {g : Call → α}
    (h : ∀ n c, f (callRow n c) = g c) (s : MethodSummary) :
    (callRows s).map f = s.calls.map g := by
  have hfst : s.calls = s.calls.zipIdx.map Prod.fst := (List.zipIdx_map_fst 0 s.calls).symm
  conv_rhs => rw [hfst, List.map_map]
  rw [callRows, List.map_map]
  refine List.map_congr_left fun x _ => ?_
  simp only [Function.comp_apply, h]

theorem length_rows (s : MethodSummary) : (rows s).length =
    s.calls.length + (s.calls.map fun c => breaks c.display).sum := by
  rw [rows, length_flatMap_lines, map_callRows breaks_callRow, callRows, List.length_map,
    List.length_zipIdx]

theorem rows_of_unbroken {s : MethodSummary} (h : s.Unbroken) :
    rows s = (callRows s).map String.toList := by
  refine flatMap_lines_of_unbroken fun r hr => ?_
  obtain ⟨x, hx, rfl⟩ := List.mem_map.mp hr
  rw [breaks_callRow, h x.1 (List.fst_mem_of_mem_zipIdx hx)]

/-- The call in a row: what follows the number and the blanks behind it. -/
def displayIn (row : List Char) : List Char := ((row.drop 8).dropWhile (· != '\x1b')).drop 6

theorem displayIn_callRow (number : Nat) (c : Call) :
    displayIn (callRow number c).toList = c.display.toList := by
  have hrow : (callRow number c).toList = "    \x1b[2m".toList ++
      ((padLeft 3 number).toList ++ ("\x1b[0m  ".toList ++ c.display.toList)) := by
    simp [callRow, Style.of, Style.code]
  have hnumber : ∀ d ∈ (padLeft 3 number).toList, (d != '\x1b') = true := by
    intro d hd
    rw [bne_iff_ne]
    rintro rfl
    rcases padLeft_chars 3 number _ hd with h | h
    · exact absurd h (by decide)
    · exact absurd h (by decide)
  rw [displayIn, hrow, List.drop_left' (by decide), List.dropWhile_append_of_pos hnumber]
  rfl

/-- A call is read from its row in the report. -/
theorem displays_of_rows {s : MethodSummary} (h : s.Unbroken) :
    (rows s).map displayIn = s.calls.map (·.display.toList) := by
  rw [rows_of_unbroken h, List.map_map, Function.comp_def]
  exact map_callRows (f := fun r => displayIn r.toList) displayIn_callRow s

theorem isBlock_block {s : MethodSummary} (h : s.Unbroken) : IsBlock List.isEmpty (block s) := by
  refine ⟨[], (methodHeader s).toList :: rows s, rfl, rfl, fun row hrow => ?_⟩
  rcases List.mem_cons.mp hrow with rfl | hrow
  · unfold methodHeader
    split <;> simp only [String.toList_append, List.append_assoc] <;> rfl
  · rw [rows_of_unbroken h] at hrow
    obtain ⟨r, hr, rfl⟩ := List.mem_map.mp hrow
    obtain ⟨x, -, rfl⟩ := List.mem_map.mp hr
    simp only [callRow, String.toList_append, List.append_assoc]
    rfl

/-- Without line breaks in calls, the methods are found again in the report. -/
theorem rows_read {methods : List MethodSummary} (h : ∀ s ∈ methods, s.Unbroken) :
    (methods.flatMap block).splitBy (fun _ row => !row.isEmpty) = methods.map block :=
  splitBy_blocks fun s hs => isBlock_block (h s hs)

/-- The report: for each method a blank line, a header and below it the lines of its calls. -/
theorem lines_summary {m : Metadata} (h : Java.NamesUnbroken m) : lines (summary m) =
    (front m).flatMap lines ++ m.methods.flatMap block ++ [[]] := by
  have hblock : ∀ s ∈ m.methods,
      ("" :: methodHeader s :: callRows s).flatMap lines = block s := by
    intro s hs
    have hheader := breaks_methodHeader (h.name s hs) (h.annotations s hs)
    rw [List.flatMap_cons, List.flatMap_cons, lines_of_unbroken hheader]
    rfl
  rw [summary_eq, lines_join, List.flatMap_append, List.flatMap_assoc, List.flatMap_congr hblock]

end Report

/-! ## Calls of a source text -/

namespace Java

open Syntax Code

/-- For every admitted text, the outline in the prompt and the report for a terminal have one header
for each method and below it the rows of its calls in their order, a call of the method each. A call
has one row and one more for each line break in the literals that its arguments are spelled with. So
there are as many rows as calls exactly if no such literal has a line break; and then the calls are
read from their rows, and the methods are found again by their headers. -/
theorem calls_by_rows {reading : List Char → Tree} {source label : String} {unit : CompilationUnit}
    (hparse : parseWith reading source label = .ok unit)
    (h : grammar.Valid (reading source.toList))
    (hl : Lexed source.toList (reading source.toList)) (fileName : String) :
    let text := source.toList
    let m := extract unit fileName
    (lines m.structureSection =
      if m.className.isEmpty && m.methods.isEmpty then [[]]
      else [[], "Structure of the file (calls in execution order):".toList] ++
        m.outlineFront.map String.toList ++ m.methods.flatMap MethodSummary.outlineBlock ++
        [[]]) ∧
    lines (Report.summary m) =
      (Report.front m).flatMap lines ++ m.methods.flatMap Report.block ++ [[]] ∧
    (∀ s ∈ m.methods, ∃ nodes : List Tree, s.calls = nodes.map (callOf text) ∧
      (∀ n ∈ nodes, n ∈ (reading text).preorder ∧ n.kind = "method_invocation" ∧
        (lines (callOf text n).outlineLine).length = 1 + callBreaks text n ∧
        ∀ number, (lines (Report.callRow number (callOf text n))).length =
          1 + callBreaks text n) ∧
      (s.Unbroken ↔ ∀ n ∈ nodes, callBreaks text n = 0) ∧
      (s.outlineRows.length = s.calls.length ↔ s.Unbroken) ∧
      ((Report.rows s).length = s.calls.length ↔ s.Unbroken) ∧
      (s.Unbroken → s.outlineRows.map (·.drop 4) = s.calls.map (·.display.toList) ∧
        (Report.rows s).map Report.displayIn = s.calls.map (·.display.toList))) ∧
    ((∀ s ∈ m.methods, s.Unbroken) →
      (m.methods.flatMap MethodSummary.outlineBlock).splitBy (fun _ row => !headsOutline row) =
        m.methods.map MethodSummary.outlineBlock ∧
      (m.methods.flatMap Report.block).splitBy (fun _ row => !row.isEmpty) =
        m.methods.map Report.block) := by
  intro text m
  obtain ⟨-, rfl⟩ := (parseWith_eq_ok_iff h).mp hparse
  have hnames : NamesUnbroken m := breaks_names h hl fileName
  refine ⟨hnames.lines_structureSection, Report.lines_summary hnames, fun s hs => ?_,
    fun hunbroken => ⟨outline_read hunbroken, Report.rows_read hunbroken⟩⟩
  obtain ⟨nodes, hnodes, hcalls⟩ := exists_nodes_of_calls h hs
  have hbreaks : ∀ n ∈ nodes, breaks (callOf text n).display = callBreaks text n := fun n hn =>
    breaks_display_callOf (h.of_mem (hnodes n hn).1) (hl.of_mem (hnodes n hn).1) (hnodes n hn).2
  refine ⟨nodes, hcalls, fun n hn => ⟨(hnodes n hn).1, eq_of_beq (hnodes n hn).2, ?_, ?_⟩, ?_,
    MethodSummary.length_eq_iff s.length_outlineRows,
    MethodSummary.length_eq_iff (Report.length_rows s),
    fun hunbroken => ⟨MethodSummary.displays_of_outlineRows hunbroken,
      Report.displays_of_rows hunbroken⟩⟩
  · rw [length_lines, breaks_outlineLine, hbreaks n hn]
  · intro number
    rw [length_lines, Report.breaks_callRow, hbreaks n hn]
  · rw [MethodSummary.Unbroken, hcalls, List.forall_mem_map]
    exact forall₂_congr fun n hn => by rw [hbreaks n hn]

theorem lexed_pathTree : Lexed pathSource.toList pathTree := by decide +kernel

theorem calls_by_rows_sample :
    grammar.Valid pathTree ∧ Lexed pathSource.toList pathTree ∧
      parseWith (fun _ => pathTree) pathSource "" = .ok (unitOf pathSource.toList pathTree) ∧
      let m := extract (unitOf pathSource.toList pathTree) "A.java"
      (∀ s ∈ m.methods, s.outlineRows.length = s.calls.length) ∧
        (m.methods.flatMap MethodSummary.outlineBlock).splitBy (fun _ row => !headsOutline row) =
          [["- m".toList, "    a.b.c(d.e, f + g)".toList]] := by
  have hunbroken : ∀ s ∈ (extract (unitOf pathSource.toList pathTree) "A.java").methods,
      s.Unbroken := by decide +kernel
  obtain ⟨-, -, hrows, hread⟩ := @calls_by_rows (fun _ => pathTree) pathSource "" _
    parseWith_pathTree valid_pathTree lexed_pathTree "A.java"
  refine ⟨valid_pathTree, lexed_pathTree, parseWith_pathTree, fun s hs => ?_, ?_⟩
  · obtain ⟨nodes, -, -, -, hlength, -⟩ := hrows s hs
    exact hlength.mpr (hunbroken s hs)
  · rw [(hread hunbroken).1]
    decide +kernel

def textBlockSource : String := "class A \x7b void m() \x7b f(\"\"\"\na\"\"\"); \x7d \x7d"

/-- The only statement is a call of `f` with a text block that goes over two lines. -/
def textBlockTree : Tree :=
  programAround <| branchAt "expression_statement" none 21 33 [
    branchAt "method_invocation" none 21 32 [
      nameAt (some "name") 21,
      branchAt "argument_list" (some "arguments") 22 32 [
        textAt "(" 22,
        branchAt "string_literal" none 23 31 [
          textAt "\"\"\"" 23,
          branchAt "multiline_string_fragment" none 26 28 [],
          textAt "\"\"\"" 28],
        textAt ")" 31]],
    textAt ";" 32]

/-- The only call is shown on two lines. -/
theorem text_block_breaks_row :
    grammar.Valid textBlockTree ∧ Lexed textBlockSource.toList textBlockTree ∧
      ∃ unit, parseWith (fun _ => textBlockTree) textBlockSource "" = .ok unit ∧
        (extract unit "A.java").methods.map (fun s =>
          (s.calls.length, s.outlineRows.length, (Report.rows s).length)) = [(1, 2, 2)] ∧
        (extract unit "A.java").methods.flatMap MethodSummary.outlineBlock =
          ["- m".toList, "    .f(\"\"\"".toList, "a\"\"\")".toList] := by
  have hvalid : grammar.Valid textBlockTree := Grammar.valid_of_recognises 8 (by decide +kernel)
  have hnone : firstForbidden textBlockSource.toList textBlockTree = none := by decide +kernel
  exact ⟨hvalid, by decide +kernel, _,
    (@parseWith_eq_ok_iff (fun _ => textBlockTree) textBlockSource "" hvalid _).mpr ⟨hnone, rfl⟩,
    by decide +kernel, by decide +kernel⟩

end Java

end TestConversion
