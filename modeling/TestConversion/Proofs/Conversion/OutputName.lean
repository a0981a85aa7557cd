import TestConversion.Conversion.OutputName
import TestConversion.Files.JavaFiles
import TestConversion.Proofs.Files.Collected

/-!
# Where converted files are

The name of a converted file is a single name, and it ends as the tests of its language do. So it
lies in the output directory itself, and no Java file is in its place.

* `isName_outputName`: the name leads one step down.
* `getLast?_of_locate_output`: the location of an output ends in its name.
* `ne_outputName_of_isJavaFile`: no Java file has the name of an output.
-/

namespace TestConversion

open Files

/-! ## The lower case has no slash -/

namespace Text

theorem toLower_ne_slash {c : Char} (hc : c ≠ '/') (h : c.toNat < 128) : c.toLower ≠ '/' := by
  have hall : ∀ n < 128, n ≠ 47 → (Char.ofNat n).toLower ≠ '/' := by decide
  have hn : c.toNat ≠ 47 := by
    intro hn
    rw [← Char.ofNat_toNat c, hn] at hc
    exact hc rfl
  rw [← Char.ofNat_toNat c]
  exact hall c.toNat h hn

/-- No run of letters is moved down to the slash. -/
theorem slash_lt_shifted {r : LowerRun} (h : r ∈ lowerRuns) : (47 : Int) < r.first + r.shift := by
  have hall : lowerRuns.all (fun r => decide ((47 : Int) < r.first + r.shift)) = true := by
    decide +kernel
  simpa using Array.all_eq_true_iff_forall_mem.mp hall r h

theorem ofNat_ne_slash {n : Nat} (h : 47 < n) : Char.ofNat n ≠ '/' := by
  intro he
  have hn : (Char.ofNat n).toNat = 47 := by rw [he]; rfl
  by_cases hv : n.isValidChar
  · rw [Char.ofNat, dif_pos hv] at hn
    change n = 47 at hn
    omega
  · rw [Char.ofNat, dif_neg hv] at hn
    cases hn

theorem slash_not_mem_lowerChar {c : Char} (hc : c ≠ '/') : '/' ∉ lowerChar c := by
  unfold lowerChar
  split
  · rename_i h
    simpa using (toLower_ne_slash hc h).symm
  split
  · decide
  split
  · rename_i r hr
    have hmem := Array.mem_of_find?_eq_some hr
    have hfirst : r.first ≤ c.toNat := by
      have := Array.find?_some hr
      simp [LowerRun.covers] at this
      exact this.1.1
    have := slash_lt_shifted hmem
    simpa using (ofNat_ne_slash (by omega)).symm
  · simpa using hc.symm

end Text

theorem slash_not_mem_hyphenated {cs : List Char} (h : '/' ∉ cs) : '/' ∉ hyphenated cs := by
  induction cs with
  | nil => simp [hyphenated]
  | cons c cs ih =>
    have hc : c ≠ '/' := fun e => h (e ▸ List.mem_cons_self)
    have hcs : '/' ∉ cs := fun e => h (List.mem_cons_of_mem _ e)
    rw [hyphenated, List.mem_append, not_or]
    refine ⟨?_, ih hcs⟩
    split
    · simpa using Text.slash_not_mem_lowerChar hc
    · exact Text.slash_not_mem_lowerChar hc

theorem slash_not_mem_kebab {name : String} (h : '/' ∉ name.toList) : '/' ∉ (kebab name).toList := by
  rw [kebab, String.toList_ofList]
  cases hn : name.toList with
  | nil => simp [kebabChars]
  | cons c cs =>
    rw [hn] at h
    have hc : c ≠ '/' := fun e => h (e ▸ List.mem_cons_self)
    have hcs : '/' ∉ cs := fun e => h (List.mem_cons_of_mem _ e)
    rw [kebabChars, List.mem_append, not_or]
    exact ⟨Text.slash_not_mem_lowerChar hc, slash_not_mem_hyphenated hcs⟩

/-! ## Names of outputs -/

theorem mem_of_mem_splitName {name : String} {c : Char} (h : c ∈ (splitName name).1.toList) :
    c ∈ name.toList := by
  unfold splitName at h
  split at h
  · rename_i before after hsplit
    split at h
    · exact h
    · unfold splitLastDot at hsplit
      dsimp only at hsplit
      split at hsplit
      · cases hsplit
      · cases hsplit
        rw [String.toList_ofList] at h
        exact List.mem_of_mem_take h
  · exact h

theorem slash_not_mem_stem {file stem : String} (h : stem? file = some stem) :
    '/' ∉ stem.toList := by
  obtain ⟨name, hname, rfl⟩ := Option.map_eq_some_iff.mp h
  intro hmem
  exact (isPart_of_fileName? hname).2 (mem_of_mem_splitName hmem)

theorem exists_outputName (file : String) (language : Language) :
    ∃ word : String, '/' ∉ word.toList ∧ outputName file language = word ++ language.extension := by
  unfold outputName
  split
  · rename_i stem h
    obtain ⟨hstem, -⟩ := Option.filter_eq_some_iff.mp h
    exact ⟨kebab stem, slash_not_mem_kebab (slash_not_mem_stem hstem), rfl⟩
  · exact ⟨namelessOutput, by decide, rfl⟩

theorem getLast?_outputName (file : String) (language : Language) :
    (outputName file language).toList.getLast? = some 's' := by
  obtain ⟨word, -, h⟩ := exists_outputName file language
  rw [h, String.toList_append]
  cases language <;> simp [Language.extension]

/-- The name of an output leads one step down. -/
theorem isName_outputName (file : String) (language : Language) :
    IsName (outputName file language) := by
  have hlast := getLast?_outputName file language
  refine ⟨?_, ?_, ?_, ?_⟩
  · intro he
    rw [he] at hlast
    cases hlast
  · obtain ⟨word, hword, h⟩ := exists_outputName file language
    rw [h, String.toList_append, List.mem_append, not_or]
    refine ⟨hword, ?_⟩
    cases language <;> decide
  · intro he
    rw [he] at hlast
    cases hlast
  · intro he
    rw [he] at hlast
    cases hlast

theorem splitName_outputName (file : String) (language : Language) :
    ∃ e, (splitName (outputName file language)).2 = some e ∧
      (e.toList.map Char.toLower == "java".toList) = false := by
  obtain ⟨word, -, h⟩ := exists_outputName file language
  rw [h]
  cases language with
  | typeScript =>
    refine ⟨"ts", ?_, by decide⟩
    simp [splitName, splitLastDot, Language.extension]
  | javaScript =>
    refine ⟨"js", ?_, by decide⟩
    simp [splitName, splitLastDot, Language.extension]

/-- A Java file never stands where an output is written. -/
theorem getLast?_ne_outputName {fs : FileSystem} {f : String} {l : Location}
    (hf : leadsToJavaFile fs f = true) (hl : fs.locate f = .ok l) (file : String)
    (language : Language) : l.getLast? ≠ some (outputName file language) := by
  intro hlast
  rw [leadsToJavaFile, Bool.and_eq_true, isJavaFile] at hf
  cases hname : fileName? f with
  | none => simp [extension?, hname] at hf
  | some s =>
    obtain rfl : s = outputName file language := by
      rw [getLast?_of_locate hl hname] at hlast
      simpa using hlast
    obtain ⟨e, he, hjava⟩ := splitName_outputName file language
    simp [extension?, hname, he] at hf
    simp [hf.2] at hjava

end TestConversion
