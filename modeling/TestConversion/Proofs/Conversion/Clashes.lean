import TestConversion.Proofs.Conversion.Saving

/-!
# Outputs of one name

In a name of words each hyphen stands for a capital, if the text it was made from had no hyphens. So
the text can be read back from the name, all but the case of its first character, and the
conversions of two files are saved in one place only if their stems differ in nothing else.

* `unhyphenated_hyphenated`: the text behind the first character is read back.
* `kebab_eq_iff`: when two texts have one name.
* `outputs_clash_iff`: when two files have one output.
-/

namespace TestConversion

open Files

/-! ## Reading names back -/

/-- A character behind a hyphen was a capital. -/
def unhyphenated : List Char → List Char
  | '-' :: c :: cs => c.toUpper :: unhyphenated cs
  | c :: cs => c :: unhyphenated cs
  | [] => []

theorem unhyphenated_hyphen (c : Char) (cs : List Char) :
    unhyphenated ('-' :: c :: cs) = c.toUpper :: unhyphenated cs := by
  rw [unhyphenated]

theorem unhyphenated_cons {c : Char} (h : c ≠ '-') (cs : List Char) :
    unhyphenated (c :: cs) = c :: unhyphenated cs := by
  rw [unhyphenated]
  rintro d ds rfl
  exact absurd rfl h

theorem hyphenated_cons {c : Char} (h : c.toNat < 128) (cs : List Char) :
    hyphenated (c :: cs) = (if c.isUpper then ['-', c.toLower] else [c.toLower]) ++ hyphenated cs := by
  rw [hyphenated, Text.isUpper, Text.lowerChar, if_pos h, if_pos h]

theorem toLower_of_not_isUpper {c : Char} (h : ¬ c.isUpper = true) : c.toLower = c := by
  delta Char.isUpper at h
  rw [decide_eq_true_eq] at h
  exact dif_neg h

/-- A capital is the capital of its small letter. -/
theorem toUpper_toLower {c : Char} (h : c.isUpper = true) : c.toLower.toUpper = c := by
  delta Char.isUpper at h
  rw [decide_eq_true_eq] at h
  delta Char.toLower Char.toUpper
  apply Char.ext
  simp only [dif_pos h]
  split <;> grind [UInt32.toNat_add, Char.toNat_val]

/-- The text is read back from its words. -/
theorem unhyphenated_hyphenated {cs : List Char} (hascii : ∀ c ∈ cs, c.toNat < 128)
    (hhyphen : '-' ∉ cs) : unhyphenated (hyphenated cs) = cs := by
  induction cs with
  | nil => rfl
  | cons c cs ih =>
    have hc : c ≠ '-' := fun e => hhyphen (e ▸ List.mem_cons_self)
    have hcs : unhyphenated (hyphenated cs) = cs :=
      ih (fun d hd => hascii d (List.mem_cons_of_mem _ hd))
        fun hd => hhyphen (List.mem_cons_of_mem _ hd)
    rw [hyphenated_cons (hascii c List.mem_cons_self)]
    split
    · rename_i hupper
      rw [List.cons_append, List.singleton_append, unhyphenated_hyphen, toUpper_toLower hupper, hcs]
    · rename_i hlower
      rw [toLower_of_not_isUpper hlower, List.singleton_append, unhyphenated_cons hc, hcs]

/-! ## When names are equal -/

/-- A text of ASCII characters without hyphens. -/
structure IsPlainStem (stem : String) : Prop where
  ne_empty : stem ≠ ""
  ascii : ∀ c ∈ stem.toList, c.toNat < 128
  not_mem : '-' ∉ stem.toList

/-- The texts are equal up to the case of their first characters. -/
def SameButFirstCase (s t : String) : Prop :=
  ∃ c d rest, s.toList = c :: rest ∧ t.toList = d :: rest ∧ c.toLower = d.toLower

theorem IsPlainStem.exists_cons {s : String} (h : IsPlainStem s) :
    ∃ c rest, s.toList = c :: rest ∧ (kebab s).toList = c.toLower :: hyphenated rest ∧
      unhyphenated (hyphenated rest) = rest := by
  have hne : s.toList ≠ [] := by simpa using h.ne_empty
  obtain ⟨c, rest, hs⟩ := List.exists_cons_of_ne_nil hne
  have hascii : ∀ d ∈ c :: rest, d.toNat < 128 := hs ▸ h.ascii
  have hhyphen : '-' ∉ c :: rest := hs ▸ h.not_mem
  refine ⟨c, rest, hs, ?_, ?_⟩
  · rw [kebab, String.toList_ofList, hs, kebabChars, Text.lowerChar,
      if_pos (hascii c List.mem_cons_self), List.singleton_append]
  · exact unhyphenated_hyphenated (fun d hd => hascii d (List.mem_cons_of_mem _ hd))
      fun hd => hhyphen (List.mem_cons_of_mem _ hd)

/-- Two texts have one name of words exactly if they are equal up to the case of their first
characters. -/
theorem kebab_eq_iff {s t : String} (hs : IsPlainStem s) (ht : IsPlainStem t) :
    kebab s = kebab t ↔ SameButFirstCase s t := by
  obtain ⟨c, cs, hsc, hks, hcs⟩ := hs.exists_cons
  obtain ⟨d, ds, htd, hkt, hds⟩ := ht.exists_cons
  rw [← String.toList_inj, hks, hkt, List.cons.injEq]
  constructor
  · rintro ⟨hcase, hwords⟩
    have hrest : cs = ds := by rw [← hcs, hwords, hds]
    exact ⟨c, d, ds, hrest ▸ hsc, htd, hcase⟩
  · rintro ⟨c', d', rest, hs', ht', hcase⟩
    rw [hs', List.cons.injEq] at hsc
    rw [ht', List.cons.injEq] at htd
    obtain ⟨rfl, rfl⟩ := hsc
    obtain ⟨rfl, rfl⟩ := htd
    exact ⟨hcase, rfl⟩

-- a hyphen of the text itself looks like one in front of a capital
example : kebab "aB" = kebab "a-b" := by decide

theorem outputName_of_stem {file s : String} (h : stem? file = some s) (hs : s ≠ "")
    (language : Language) : outputName file language = kebab s ++ language.extension := by
  simp [outputName, h, Option.filter, hs]

/-! ## When outputs are in one place -/

variable {m : Type → Type}

/-- Outputs are in one place exactly if they have one name. -/
theorem locate_outputFile_iff {c : Converter m} {fs : FileSystem} {p q : String} {l : Location}
    (hl : fs.locate (c.outputFile p) = .ok l) :
    fs.locate (c.outputFile q) = .ok l ↔ outputName p c.language = outputName q c.language := by
  constructor
  · intro hq
    obtain ⟨d, -, -, hp⟩ := Converter.exists_of_locate_outputFile hl
    obtain ⟨e, -, -, hq⟩ := Converter.exists_of_locate_outputFile hq
    exact List.singleton_inj.mp (List.append_inj' (hp.symm.trans hq) rfl).2
  · intro h
    rw [← hl, Converter.outputFile, Converter.outputFile, h]

/-- Files whose stems are ASCII texts without hyphens have one output exactly if their stems are
equal up to the case of the first characters, in every language, and only then is the one saved in
the place of the other. -/
theorem outputs_clash_iff {p q s t : String} (hp : stem? p = some s) (hq : stem? q = some t)
    (hs : IsPlainStem s) (ht : IsPlainStem t) :
    (∀ language, outputName p language = outputName q language ↔ SameButFirstCase s t) ∧
    (kebab s = kebab t ↔ SameButFirstCase s t) ∧
    ∀ (c : Converter m) (fs : FileSystem) (l : Location), fs.locate (c.outputFile p) = .ok l →
      (fs.locate (c.outputFile q) = .ok l ↔ SameButFirstCase s t) := by
  have hname : ∀ language, outputName p language = outputName q language ↔
      SameButFirstCase s t := by
    intro language
    rw [outputName_of_stem hp hs.ne_empty, outputName_of_stem hq ht.ne_empty,
      String.append_left_inj, kebab_eq_iff hs ht]
  refine ⟨hname, kebab_eq_iff hs ht, fun c fs l hl => ?_⟩
  rw [locate_outputFile_iff hl, hname]

/-- The first letter may be small or not, and further capitals tell names apart. -/
theorem outputs_clash_iff_capitals :
    (stem? "a/URL.java" = some "URL" ∧ stem? "b/uRL.java" = some "uRL" ∧
      outputName "a/URL.java" .typeScript = outputName "b/uRL.java" .typeScript) ∧
    stem? "a/Url.java" = some "Url" ∧
      outputName "a/URL.java" .typeScript ≠ outputName "a/Url.java" .typeScript := by
  have hupper : stem? "a/URL.java" = some "URL" := rfl
  have hlower : stem? "b/uRL.java" = some "uRL" := rfl
  have hother : stem? "a/Url.java" = some "Url" := rfl
  have hplain : IsPlainStem "URL" := ⟨by decide, by simp, by decide⟩
  have hplain' : IsPlainStem "uRL" := ⟨by decide, by simp, by decide⟩
  have hplain'' : IsPlainStem "Url" := ⟨by decide, by simp, by decide⟩
  refine ⟨⟨hupper, hlower, ?_⟩, hother, ?_⟩
  · exact ((@outputs_clash_iff Id _ _ _ _ hupper hlower hplain hplain').1 _).mpr
      ⟨'U', 'u', ['R', 'L'], by decide, by decide, by decide⟩
  · rw [Ne, (@outputs_clash_iff Id _ _ _ _ hupper hother hplain hplain'').1]
    rintro ⟨c, d, rest, hs, ht, -⟩
    exact absurd ((congrArg List.tail hs).trans (congrArg List.tail ht).symm) (by decide)

end TestConversion
