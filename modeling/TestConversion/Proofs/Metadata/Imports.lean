import Mathlib.Data.List.Infix
import TestConversion.Metadata.Extract

/-!
# Imports by their segments

A path is its segments with dots between them. So one path starts another one exactly if its
segments do, and stands in another one exactly if it does with a dot at each end.

* `splitOn_prefix_iff`, `splitOn_infix_iff`: parts of a list of segments as parts of the text.
* `startsWithSegments_iff`, `containsSegments_iff`: what is compared when imports are classified.
* `imports_classified`: the imports of a unit in its metadata.
-/

namespace TestConversion

open Text

section

variable {α : Type*} {sep : α}

theorem intercalate_append {front back : List (List α)} (hfront : front ≠ []) (hback : back ≠ []) :
    [sep].intercalate (front ++ back) =
      [sep].intercalate front ++ sep :: [sep].intercalate back := by
  induction front with
  | nil => exact absurd rfl hfront
  | cons w ws ih =>
    cases ws with
    | nil =>
      rw [List.singleton_append, List.intercalate_cons_of_ne_nil hback, List.intercalate_singleton,
        List.append_assoc, List.singleton_append]
    | cons v vs =>
      rw [List.cons_append, List.cons_append, List.intercalate_cons_cons, ← List.cons_append,
        ih (List.cons_ne_nil v vs), List.intercalate_cons_cons]
      simp only [List.append_assoc]

variable [BEq α] [LawfulBEq α]

theorem splitOn_framed (xs : List α) :
    (sep :: xs ++ [sep]).splitOn sep = [] :: xs.splitOn sep ++ [[]] := by
  rw [List.splitOn_append_cons_self, List.splitOn_nil]
  exact congrArg (· ++ [[]]) (List.splitOn_append_cons_self [] xs)

/-- The segments of one text begin with those of another one if the text goes on with a separator
after the other one, if it goes on at all. -/
theorem splitOn_prefix_iff {xs ys : List α} :
    xs.splitOn sep <+: ys.splitOn sep ↔ ys = xs ∨ ∃ rest, ys = xs ++ sep :: rest := by
  constructor
  · rintro ⟨more, hmore⟩
    have hys : [sep].intercalate (ys.splitOn sep) = ys := List.intercalate_splitOn sep
    rw [← hmore] at hys
    cases more with
    | nil =>
      rw [List.append_nil, List.intercalate_splitOn] at hys
      exact .inl hys.symm
    | cons w ws =>
      rw [intercalate_append (List.splitOn_ne_nil sep xs) (List.cons_ne_nil w ws),
        List.intercalate_splitOn] at hys
      exact .inr ⟨_, hys.symm⟩
  · rintro (rfl | ⟨rest, rfl⟩)
    · exact List.prefix_refl _
    · rw [List.splitOn_append_cons_self]
      exact List.prefix_append _ _

/-- The segments of one text stand in those of another one if the text itself does, both with a
separator at each end. -/
theorem splitOn_infix_iff {xs ys : List α} :
    xs.splitOn sep <:+: ys.splitOn sep ↔ sep :: xs ++ [sep] <:+: sep :: ys ++ [sep] := by
  constructor
  · rintro ⟨front, back, hys⟩
    have hsplit : [] :: ys.splitOn sep ++ [[]] =
        ([] :: front) ++ (xs.splitOn sep ++ (back ++ [[]])) := by
      rw [← hys]
      simp only [List.cons_append, List.append_assoc]
    have hframed : [sep].intercalate ((sep :: ys ++ [sep]).splitOn sep) = sep :: ys ++ [sep] :=
      List.intercalate_splitOn sep
    rw [splitOn_framed, hsplit, intercalate_append (List.cons_ne_nil _ _) (by simp),
      intercalate_append (List.splitOn_ne_nil sep xs) (by simp),
      List.intercalate_splitOn] at hframed
    refine ⟨[sep].intercalate ([] :: front), [sep].intercalate (back ++ [[]]), ?_⟩
    rw [← hframed]
    simp only [List.cons_append, List.append_assoc, List.nil_append]
  · rintro ⟨front, back, hys⟩
    -- Splitting the framed text puts an empty segment at each end; they stand outside of `xs`.
    have hsplit : [] :: ys.splitOn sep ++ [[]] =
        front.splitOn sep ++ xs.splitOn sep ++ back.splitOn sep := by
      rw [← splitOn_framed, ← hys, ← List.splitOn_append_cons_self,
        ← List.splitOn_append_cons_self]
      simp only [List.cons_append, List.append_assoc, List.nil_append]
    obtain ⟨first, front', hfront⟩ := List.exists_cons_of_ne_nil (List.splitOn_ne_nil sep front)
    obtain ⟨back', last, hback⟩ :=
      (List.eq_nil_or_concat' _).resolve_left (List.splitOn_ne_nil sep back)
    rw [hfront, hback] at hsplit
    simp only [List.cons_append, List.cons.injEq, ← List.append_assoc] at hsplit
    exact ⟨front', back', (List.append_inj_left' hsplit.2 rfl).symm⟩

end

/-! ## Segments of a path -/

theorem segmentsFrom_eq_splitOnPPrepend (word cs : List Char) :
    segmentsFrom word cs = cs.splitOnPPrepend (· == '.') word := by
  induction cs generalizing word with
  | nil => rw [segmentsFrom, List.splitOnPPrepend_nil]
  | cons c cs ih =>
    rw [segmentsFrom, List.splitOnPPrepend_cons_eq_if, ih, ih]
    simp only [beq_iff_eq, List.splitOnPPrepend_nil_right]

theorem charSegments_eq_splitOn (cs : List Char) : charSegments cs = cs.splitOn '.' :=
  segmentsFrom_eq_splitOnPPrepend [] cs

theorem segments_eq (s : String) : segments s = (s.toList.splitOn '.').map String.ofList := by
  rw [segments, charSegments_eq_splitOn]

theorem map_infix_map_iff {α β : Type*} {f : α → β} (hf : f.Injective) {l l' : List α} :
    l.map f <:+: l'.map f ↔ l <:+: l' := by
  constructor
  · intro h
    obtain ⟨l₀, hl₀, heq⟩ := List.infix_map_iff.mp h
    rwa [hf.list_map heq]
  · exact fun h => h.map f

/-! ## Comparing paths -/

theorem afterStart?_eq_some_iff {start cs rest : List Char} :
    afterStart? start cs = some rest ↔ cs = start ++ rest := by
  induction start generalizing cs with
  | nil => simp [afterStart?, eq_comm]
  | cons p ps ih =>
    cases cs with
    | nil => simp [afterStart?]
    | cons c cs =>
      rw [afterStart?]
      split
      · rename_i h
        subst h
        simp [ih]
      · rename_i h
        simp [Ne.symm h]

/-- A path starts with another one exactly if its segments start with those of the other one. -/
theorem startsWithSegments_iff (path start : String) :
    startsWithSegments path start = true ↔
      start.toList.splitOn '.' <+: path.toList.splitOn '.' := by
  rw [splitOn_prefix_iff, startsWithSegments]
  constructor
  · intro h
    split at h
    · rename_i rest hrest
      rw [afterStart?_eq_some_iff] at hrest
      cases rest with
      | nil => exact .inl (by rw [hrest, List.append_nil])
      | cons c cs =>
        have hc : c = '.' := by simpa using h
        exact .inr ⟨cs, hc ▸ hrest⟩
    · cases h
  · rintro (h | ⟨rest, h⟩)
    · have hnone : afterStart? start.toList path.toList = some [] :=
        afterStart?_eq_some_iff.mpr (by rw [h, List.append_nil])
      rw [hnone]
      rfl
    · rw [afterStart?_eq_some_iff.mpr h]
      rfl

theorem hasInfix_iff (needle ws : List String) : hasInfix needle ws = true ↔ needle <:+: ws := by
  induction ws with
  | nil => simp [hasInfix]
  | cons w ws ih => simp [hasInfix, ih, List.infix_cons_iff]

theorem containsSegments_iff_splitOn (path needle : String) :
    containsSegments path needle = true ↔
      needle.toList.splitOn '.' <:+: path.toList.splitOn '.' := by
  rw [containsSegments, hasInfix_iff, segments_eq, segments_eq,
    map_infix_map_iff fun _ _ => String.ofList_injective]

/-- A path holds the segments of another one exactly if it holds the other one between dots. -/
theorem containsSegments_iff (path needle : String) :
    containsSegments path needle = true ↔
      '.' :: needle.toList ++ ['.'] <:+: '.' :: path.toList ++ ['.'] := by
  rw [containsSegments_iff_splitOn, splitOn_infix_iff]

/-! ## Imports -/

/-- All packages that control browsers are parts of the first one. -/
theorem isAutomationImport_iff (path : String) :
    isAutomationImport path = true ↔
      ["org".toList, "openqa".toList, "selenium".toList] <+: path.toList.splitOn '.' := by
  simp only [isAutomationImport, List.any_eq_true, startsWithSegments_iff]
  constructor
  · rintro ⟨package, hpackage, h⟩
    have hfirst : ∀ p ∈ automationPackages,
        ["org".toList, "openqa".toList, "selenium".toList] <+: p.toList.splitOn '.' := by decide
    exact (hfirst package hpackage).trans h
  · intro h
    exact ⟨"org.openqa.selenium", by decide, h⟩

theorem isTestFrameworkImport_iff (path : String) :
    isTestFrameworkImport path = true ↔
      ["org".toList, "testng".toList] <:+: path.toList.splitOn '.' :=
  containsSegments_iff_splitOn path testFramework

/-- Paths are compared by their segments, and the metadata have all imports in their order, those of
them that are about browsers, and whether one is about the test runner, wherever it stands. -/
theorem imports_classified :
    (∀ path start : String, startsWithSegments path start = true ↔
      start.toList.splitOn '.' <+: path.toList.splitOn '.') ∧
    (∀ path needle : String, containsSegments path needle = true ↔
      '.' :: needle.toList ++ ['.'] <:+: '.' :: path.toList ++ ['.']) ∧
    ∀ (unit : Code.CompilationUnit) (fileName : String),
      (extract unit fileName).imports = unit.imports.map (·.path) ∧
      (extract unit fileName).automationImports = (unit.imports.map (·.path)).filter (fun path =>
        ["org".toList, "openqa".toList, "selenium".toList] <+: path.toList.splitOn '.') ∧
      ((extract unit fileName).usesTestFramework = true ↔
        ∃ path ∈ unit.imports.map (·.path),
          ["org".toList, "testng".toList] <:+: path.toList.splitOn '.') ∧
      ∀ unit' : Code.CompilationUnit, unit'.imports.Perm unit.imports →
        (extract unit' fileName).usesTestFramework = (extract unit fileName).usesTestFramework := by
  refine ⟨startsWithSegments_iff, containsSegments_iff, fun unit fileName => ⟨rfl, ?_, ?_, ?_⟩⟩
  · rw [extract]
    refine List.filter_congr fun path _ => ?_
    rw [Bool.eq_iff_iff, isAutomationImport_iff, decide_eq_true_iff]
  · simp only [extract, List.any_eq_true, isTestFrameworkImport_iff]
  · intro unit' hperm
    exact (hperm.map _).any_eq

def listImport : Code.Import := ⟨"java.util.List", false, false⟩

def assertImport : Code.Import := ⟨"org.testng.Assert", false, false⟩

theorem framework_found_in_either_order :
    [listImport, assertImport].Perm [assertImport, listImport] ∧
      (extract ⟨[listImport, assertImport], []⟩ "A.java").usesTestFramework =
        (extract ⟨[assertImport, listImport], []⟩ "A.java").usesTestFramework ∧
      (extract ⟨[assertImport, listImport], []⟩ "A.java").usesTestFramework = true := by
  have hperm : [listImport, assertImport].Perm [assertImport, listImport] := List.Perm.swap _ _ _
  obtain ⟨-, -, hunit⟩ := imports_classified
  obtain ⟨-, -, hiff, horder⟩ := hunit ⟨[assertImport, listImport], []⟩ "A.java"
  exact ⟨hperm, horder ⟨[listImport, assertImport], []⟩ hperm,
    hiff.mpr ⟨"org.testng.Assert", by decide, by decide⟩⟩

end TestConversion
