import Mathlib.Data.List.Nodup
import TestConversion.Files.JavaFiles
import TestConversion.Proofs.Files.Paths

/-!
# Collected files

The Java files of a directory stand in the order of their paths, each of them is a file with the
ending of Java files, and none stands there twice.

* `sorted_javaFiles`: the paths are in order.
* `leadsToJavaFile_of_mem`: what is collected from a directory is a Java file.
* `nodup_javaFiles`: no path is collected twice.
-/

namespace TestConversion.Files

/-! ## The order of paths -/

namespace Component

theorem le_name {s t : String} : (name s).le (name t) = true ↔ s ≤ t := by
  simp only [le, Bool.not_eq_true', decide_eq_false_iff_not, String.not_lt]

/-- Components are in order by their kinds, and names by their texts. -/
theorem le_iff {a b : Component} :
    a.le b = true ↔ a.rank < b.rank ∨ a.rank = b.rank ∧ a.text ≤ b.text := by
  by_cases h : ∃ s t, a = name s ∧ b = name t
  · obtain ⟨s, t, rfl, rfl⟩ := h
    rw [le_name]
    exact ⟨fun hle => .inr ⟨rfl, hle⟩, fun hor => hor.elim (fun hlt => absurd hlt (Nat.lt_irrefl _))
      And.right⟩
  · have hrank : a.le b = decide (a.rank ≤ b.rank) := by
      cases a <;> cases b <;> first | rfl | exact absurd ⟨_, _, rfl, rfl⟩ h
    have htext : a.rank = b.rank → a.text ≤ b.text := by
      intro heq
      have hab : a = b := by
        cases a <;> cases b <;> first | rfl | exact absurd ⟨_, _, rfl, rfl⟩ h | cases heq
      subst hab
      exact String.le_refl _
    rw [hrank, decide_eq_true_iff, Nat.le_iff_lt_or_eq]
    exact or_congr_right ⟨fun heq => ⟨heq, htext heq⟩, And.left⟩

theorem eq_of_rank_of_text {a b : Component} (hrank : a.rank = b.rank) (htext : a.text = b.text) :
    a = b := by
  cases a <;> cases b <;> first | rfl | exact congrArg name htext | cases hrank

theorem le_total (a b : Component) : a.le b = true ∨ b.le a = true := by
  rw [le_iff, le_iff]
  rcases Nat.lt_trichotomy a.rank b.rank with h | h | h
  · exact .inl (.inl h)
  · rcases String.le_total a.text b.text with ht | ht
    · exact .inl (.inr ⟨h, ht⟩)
    · exact .inr (.inr ⟨h.symm, ht⟩)
  · exact .inr (.inl h)

theorem le_trans {a b c : Component} (hab : a.le b = true) (hbc : b.le c = true) :
    a.le c = true := by
  rw [le_iff] at *
  rcases hab with hab | ⟨hab, htab⟩
  · rcases hbc with hbc | ⟨hbc, -⟩
    · exact .inl (Nat.lt_trans hab hbc)
    · exact .inl (hbc ▸ hab)
  · rcases hbc with hbc | ⟨hbc, htbc⟩
    · exact .inl (hab ▸ hbc)
    · exact .inr ⟨hab.trans hbc, String.le_trans htab htbc⟩

theorem le_antisymm {a b : Component} (hab : a.le b = true) (hba : b.le a = true) : a = b := by
  rw [le_iff] at hab hba
  have hrank : a.rank = b.rank := by omega
  have htext : a.text ≤ b.text ∧ b.text ≤ a.text := by
    rcases hab with hab | hab
    · omega
    rcases hba with hba | hba
    · omega
    exact ⟨hab.2, hba.2⟩
  exact eq_of_rank_of_text hrank (String.le_antisymm htext.1 htext.2)

end Component

theorem componentsLe_total (as bs : List Component) :
    componentsLe as bs = true ∨ componentsLe bs as = true := by
  induction as generalizing bs with
  | nil => exact .inl rfl
  | cons a as ih =>
    cases bs with
    | nil => exact .inr rfl
    | cons b bs =>
      by_cases h : a = b
      · simpa [componentsLe, h] using ih bs
      · simpa [componentsLe, h, Ne.symm h] using Component.le_total a b

theorem componentsLe_trans {as bs cs : List Component} (hab : componentsLe as bs = true)
    (hbc : componentsLe bs cs = true) : componentsLe as cs = true := by
  induction as generalizing bs cs with
  | nil => rfl
  | cons a as ih =>
    cases bs with
    | nil => cases hab
    | cons b bs =>
      cases cs with
      | nil => cases hbc
      | cons c cs =>
        rw [componentsLe] at hab hbc ⊢
        by_cases h : a = b
        · subst h
          rw [if_pos rfl] at hab
          split at hbc
          · rename_i h'
            rw [if_pos h']
            exact ih hab hbc
          · rename_i h'
            rwa [if_neg h']
        rw [if_neg h] at hab
        by_cases h' : b = c
        · subst h'
          rwa [if_neg h]
        rw [if_neg h'] at hbc
        have hac : a ≠ c := by
          rintro rfl
          exact h (Component.le_antisymm hab hbc)
        rw [if_neg hac]
        exact Component.le_trans hab hbc

/-- Collected paths are in order. -/
theorem sorted_javaFiles (fs : FileSystem) (path : String) :
    (javaFiles fs path).Pairwise (fun p q => le p q = true) := by
  unfold javaFiles
  split
  · simp
  split
  · simp
  split
  · simp
  · refine List.pairwise_mergeSort ?_ ?_ _
    · intro p q r hpq hqr
      exact componentsLe_trans hpq hqr
    · intro p q
      exact (Bool.or_eq_true _ _).mpr (componentsLe_total (components p) (components q))

/-- The files of a directory, where they are in order already. -/
theorem javaFiles_eq {fs : FileSystem} {path : String} {l : Location} {files : List String}
    (hdir : fs.isFile path = false) (hpath : path ≠ standardInput) (hl : fs.locate path = .ok l)
    (hfiles : ((filesBelow fs l).map fun f => pathBelow path (f.drop l.length)).filter
      (leadsToJavaFile fs) = files) (hsorted : files.Pairwise (fun p q => le p q = true)) :
    javaFiles fs path = files := by
  have hinput : (path == standardInput) = false := by simpa using hpath
  simp only [javaFiles, hdir, hinput, hl, Bool.false_eq_true, if_false, hfiles]
  exact List.mergeSort_of_pairwise hsorted

/-! ## What is collected -/

/-- A path that is no file has only Java files. -/
theorem leadsToJavaFile_of_mem {fs : FileSystem} {path f : String} (hp : fs.isFile path = false)
    (h : f ∈ javaFiles fs path) : leadsToJavaFile fs f = true := by
  unfold javaFiles at h
  rw [if_neg (by simp [hp])] at h
  split at h
  · cases h
  split at h
  · cases h
  · exact List.of_mem_filter (List.mem_mergeSort.mp h)

theorem isFile_of_mem {fs : FileSystem} {path f : String} (h : f ∈ javaFiles fs path) :
    fs.isFile f = true := by
  by_cases hp : fs.isFile path = true
  · rw [javaFiles, if_pos hp] at h
    rwa [List.mem_singleton.mp h]
  · have hf := leadsToJavaFile_of_mem (by simpa using hp) h
    rw [leadsToJavaFile, Bool.and_eq_true] at hf
    exact hf.1

/-! ## Distinct paths -/

/-- A name that leads one step down. -/
structure IsName (n : String) : Prop where
  ne_empty : n ≠ ""
  not_mem : '/' ∉ n.toList
  ne_here : n ≠ "."
  ne_up : n ≠ ".."

/-- Every location is held once, and there are names on the way to it. -/
structure FileSystem.IsTidy (fs : FileSystem) : Prop where
  nodup : (fs.entries.map (·.1)).Nodup
  names : ∀ e ∈ fs.entries, ∀ n ∈ e.1, IsName n

theorem FileSystem.step_of_isName {fs : FileSystem} {l : Location} {n : String} (hn : IsName n)
    (h : fs.at? l = some .directory) : fs.step l n = .ok (l ++ [n]) := by
  rw [step_of_directory h]
  simp only [beq_iff_eq, Bool.or_eq_true, hn.ne_empty, hn.ne_here, hn.ne_up, or_self, if_false]

theorem FileSystem.step_eq_ok_of_isName {fs : FileSystem} {l k : Location} {n : String}
    (hn : IsName n) (h : fs.step l n = .ok k) : k = l ++ [n] := by
  rw [step_of_isName hn (at?_of_step h)] at h
  cases h
  rfl

theorem join_ne_empty {directory n : String} (hn : n ≠ "") : join directory n ≠ "" := by
  unfold join
  split
  · exact hn
  split <;> simp [hn]

/-- Where the path of a location below a directory leads. -/
theorem locate_pathBelow {fs : FileSystem} {directory : String} {l k : Location}
    (hl : fs.locate directory = .ok l) {names : List String} (hnames : ∀ n ∈ names, IsName n)
    (h : fs.locate (pathBelow directory names) = .ok k) : k = l ++ names := by
  induction names using List.reverseRecOn generalizing k with
  | nil =>
    rw [pathBelow, List.foldl_nil, hl] at h
    cases h
    simp
  | append_singleton names n ih =>
    have hn : IsName n := hnames n (by simp)
    have hne : pathBelow directory names ≠ "" := by
      rintro he
      rcases List.eq_nil_or_concat names with rfl | ⟨rest, m, rfl⟩
      · rw [pathBelow, List.foldl_nil] at he
        rw [he] at hl
        cases hl
      · have hm : m ≠ "" := (hnames m (by simp)).ne_empty
        rw [pathBelow, List.concat_eq_append, List.foldl_append] at he
        exact join_ne_empty hm he
    have hsplit : pathBelow directory (names ++ [n]) = join (pathBelow directory names) n := by
      simp [pathBelow]
    rw [hsplit, FileSystem.locate_join hn.ne_empty hn.not_mem, directoryPath, if_neg hne] at h
    obtain ⟨m, hm, hstep⟩ := exists_of_bind_eq_ok h
    obtain rfl : m = l ++ names := ih (fun n' hn' => hnames n' (by simp [hn'])) hm
    rw [FileSystem.step_eq_ok_of_isName hn hstep, List.append_assoc]

theorem exists_of_mem_filesBelow {fs : FileSystem} {l f : Location} (h : f ∈ filesBelow fs l) :
    (∃ e ∈ fs.entries, e.1 = f) ∧ f = l ++ f.drop l.length := by
  obtain ⟨e, he, rfl⟩ := List.mem_map.mp h
  rw [List.mem_filter] at he
  simp only [Bool.and_eq_true] at he
  refine ⟨⟨e, he.1, rfl⟩, ?_⟩
  obtain ⟨names, hnames⟩ := List.isPrefixOf_iff_prefix.mp he.2.1.1.2
  rw [← hnames, List.drop_left]

theorem nodup_filesBelow {fs : FileSystem} (h : fs.IsTidy) (l : Location) :
    (filesBelow fs l).Nodup :=
  h.nodup.sublist (List.filter_sublist.map _)

/-- No path is collected twice. -/
theorem nodup_javaFiles {fs : FileSystem} (h : fs.IsTidy) (path : String) :
    (javaFiles fs path).Nodup := by
  unfold javaFiles
  split
  · simp
  split
  · simp
  split
  · simp
  rename_i l hl
  refine (List.mergeSort_perm _ _).nodup_iff.mpr ?_
  rw [List.filter_map]
  refine List.Nodup.map_on ?_ ((nodup_filesBelow h l).filter _)
  intro f hf g hg heq
  rw [List.mem_filter] at hf hg
  have hbelow : ∀ k ∈ filesBelow fs l, (∀ n ∈ k.drop l.length, IsName n) ∧ k = l ++ k.drop l.length := by
    intro k hk
    obtain ⟨⟨e, he, rfl⟩, hpre⟩ := exists_of_mem_filesBelow hk
    exact ⟨fun n hn => h.names e he n (List.mem_of_mem_drop hn), hpre⟩
  have hfile : fs.isFile (pathBelow path (f.drop l.length)) = true := by
    have := hf.2
    simp only [Function.comp_apply, leadsToJavaFile, Bool.and_eq_true] at this
    exact this.1
  obtain ⟨k, content, hk, -⟩ := isFile_iff.mp hfile
  have hkf := locate_pathBelow hl (hbelow f hf.1).1 hk
  have hkg := locate_pathBelow hl (hbelow g hg.1).1 (heq ▸ hk)
  rw [(hbelow f hf.1).2, (hbelow g hg.1).2, ← hkf, ← hkg]

end TestConversion.Files
