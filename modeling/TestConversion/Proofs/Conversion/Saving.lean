import TestConversion.Conversion.Converter
import TestConversion.Proofs.Conversion.OutputPlace
import TestConversion.Proofs.Files.Changes

/-!
# Saving conversions

Saving creates the output directory, which changes nothing from the second time on, and then writes
one file in it. So whatever was saved before, the same saves succeed, and the Java files read as
they did at first.

* `reaches_save`: the states that saving leads to.
* `agree_save`: a save succeeds after other saves exactly if it does without them.
* `readText_of_reaches`: saving changes no Java file.
* `agree_convertAll`: the files of a batch come to what they come to alone.
-/

namespace TestConversion

open Files

namespace Converter

variable {m : Type → Type}

/-- Where the conversion of a file is saved. -/
def outputFile (c : Converter m) (file : String) : String :=
  join c.outputDirectory (outputName file c.language)

/-- An output lies in the output directory itself. -/
theorem exists_of_locate_outputFile {c : Converter m} {fs : FileSystem} {file : String}
    {l : Location} (h : fs.locate (c.outputFile file) = .ok l) :
    ∃ d, fs.locate (directoryPath c.outputDirectory) = .ok d ∧ fs.at? d = some .directory ∧
      l = d ++ [outputName file c.language] :=
  (locate_join_iff (isName_outputName file c.language)).mp h

/-! ## States that saving leads to -/

/-- Nothing but files in the places of outputs differs. -/
structure OutputsOnly (c : Converter m) (fs fs' : FileSystem) : Prop where
  access : FileSystem.SameAccess fs fs'
  changed : ∀ l, fs'.at? l ≠ fs.at? l → ∃ file, l.getLast? = some (outputName file c.language)

theorem OutputsOnly.refl (c : Converter m) (fs : FileSystem) : c.OutputsOnly fs fs :=
  ⟨.refl fs, fun _ h => absurd rfl h⟩

theorem OutputsOnly.write {c : Converter m} {fs fs' fs'' : FileSystem} {file : String}
    {content : ByteArray} (h : c.OutputsOnly fs fs')
    (hw : fs'.write (c.outputFile file) content = .ok fs'') : c.OutputsOnly fs fs'' := by
  obtain ⟨l, hl, hd, hs, rfl⟩ := FileSystem.write_eq_ok.mp hw
  obtain ⟨d, -, -, rfl⟩ := exists_of_locate_outputFile hl
  refine ⟨h.access.trans (FileSystem.sameAccess_set hd hs content), fun k hk => ?_⟩
  by_cases hkl : k = d ++ [outputName file c.language]
  · exact ⟨file, by simp [hkl]⟩
  · rw [FileSystem.at?_set_of_ne _ _ hkl] at hk
    exact h.changed k hk

/-- The states that a file system comes to when conversions are saved in it. -/
inductive Reaches (c : Converter m) (fs : FileSystem) : FileSystem → Prop where
  | start : Reaches c fs fs
  /-- The output directory could not be created. -/
  | refused {s : FileSystem} {fault : Fault}
      (h : fs.createDirectories c.outputDirectory = (s, some fault)) : Reaches c fs s
  | saved {s s' : FileSystem} (h : fs.createDirectories c.outputDirectory = (s, none))
      (ho : c.OutputsOnly s s') : Reaches c fs s'

/-- The output directory can be created again exactly if it could be at first. -/
theorem createDirectories_of_reaches {c : Converter m} {fs s : FileSystem} (h : c.Reaches fs s) :
    (∃ t fault fault', fs.createDirectories c.outputDirectory = (t, some fault) ∧
      s.createDirectories c.outputDirectory = (t, some fault')) ∨
    (∃ t t', fs.createDirectories c.outputDirectory = (t, none) ∧
      s.createDirectories c.outputDirectory = (t', none) ∧ c.OutputsOnly t t') := by
  cases h with
  | start =>
    cases hr : fs.createDirectories c.outputDirectory with
    | mk t fault =>
      cases fault with
      | some fault => exact .inl ⟨t, fault, fault, rfl, rfl⟩
      | none => exact .inr ⟨t, t, rfl, rfl, .refl c t⟩
  | refused h =>
    obtain ⟨fault', h'⟩ := FileSystem.createDirectories_fails_again h
    exact .inl ⟨s, _, fault', h, h'⟩
  | @saved t _ h ho =>
    exact .inr ⟨t, s, h, FileSystem.createDirectories_again h ho.access.keeps, ho⟩

/-- Results that are the same, or both of which the file system is the cause of. -/
inductive Agree :
    Except ConversionError Outcome → Except ConversionError Outcome → Prop where
  | same (r : Except ConversionError Outcome) : Agree r r
  | faults (fault fault' : Fault) : Agree (.error (.file fault)) (.error (.file fault'))

theorem Agree.isOk_eq {r r' : Except ConversionError Outcome} (h : Agree r r') :
    r.isOk = r'.isOk := by
  cases h <;> rfl

/-- How a save can go. -/
theorem save_cases (c : Converter m) (file code : String) (metadata : Metadata) (fs : FileSystem) :
    (∃ t fault, fs.createDirectories c.outputDirectory = (t, some fault) ∧
      c.save file code metadata fs = (.error (.file fault), t)) ∨
    (∃ t fault, fs.createDirectories c.outputDirectory = (t, none) ∧
      t.write (c.outputFile file) code.toUTF8 = .error fault ∧
      c.save file code metadata fs = (.error (.file fault), t)) ∨
    (∃ t t', fs.createDirectories c.outputDirectory = (t, none) ∧
      t.write (c.outputFile file) code.toUTF8 = .ok t' ∧
      c.save file code metadata fs = (.ok ⟨c.outputFile file, code, metadata⟩, t')) := by
  cases hr : fs.createDirectories c.outputDirectory with
  | mk t fault =>
    cases fault with
    | some fault => exact .inl ⟨t, fault, rfl, by simp only [save, hr]⟩
    | none =>
      right
      cases hw : t.write (c.outputFile file) code.toUTF8 with
      | error fault =>
        refine .inl ⟨t, fault, rfl, hw, ?_⟩
        rw [outputFile] at hw
        simp only [save, hr, hw]
      | ok t' =>
        refine .inr ⟨t, t', rfl, hw, ?_⟩
        rw [outputFile] at hw
        simp only [save, hr, hw, outputFile]

/-- Saving leads on. -/
theorem reaches_save {c : Converter m} {fs s : FileSystem} (h : c.Reaches fs s)
    (file code : String) (metadata : Metadata) :
    c.Reaches fs (c.save file code metadata s).2 := by
  rcases createDirectories_of_reaches h with ⟨t, fault, fault', hfs, hs⟩ | ⟨t, t', hfs, hs, ho⟩
  · rcases save_cases c file code metadata s with ⟨u, _, hu, he⟩ | ⟨u, _, hu, -⟩ | ⟨u, _, hu, -⟩ <;>
      rw [hs] at hu <;> cases hu
    rw [he]
    exact .refused hfs
  · rcases save_cases c file code metadata s with
      ⟨u, _, hu, -⟩ | ⟨u, _, hu, -, he⟩ | ⟨u, u', hu, hw, he⟩ <;> rw [hs] at hu <;> cases hu
    · rw [he]
      exact .saved hfs ho
    · rw [he]
      exact .saved hfs (ho.write hw)

/-- A save succeeds after other saves exactly if it does without them. -/
theorem agree_save {c : Converter m} {fs s : FileSystem} (h : c.Reaches fs s)
    (file code : String) (metadata : Metadata) :
    Agree (c.save file code metadata s).1 (c.save file code metadata fs).1 := by
  rcases createDirectories_of_reaches h with ⟨t, fault, fault', hfs, hs⟩ | ⟨t, t', hfs, hs, ho⟩
  · have hrefused : c.save file code metadata fs = (.error (.file fault), t) := by
      simp only [save, hfs]
    have hrefused' : c.save file code metadata s = (.error (.file fault'), t) := by
      simp only [save, hs]
    rw [hrefused, hrefused']
    exact .faults fault' fault
  -- the directory is there both times, so the same file can be written in it
  rcases save_cases c file code metadata s with
    ⟨u, _, hu, -⟩ | ⟨u, fault, hu, hw, he⟩ | ⟨u, u', hu, hw, he⟩ <;> rw [hs] at hu <;> cases hu <;>
    rcases save_cases c file code metadata fs with
      ⟨v, _, hv, -⟩ | ⟨v, fault', hv, hw', he'⟩ | ⟨v, v', hv, hw', he'⟩ <;>
    rw [hfs] at hv <;> cases hv <;> rw [he, he']
  · exact .faults fault fault'
  · obtain ⟨u, hu⟩ := ho.access.exists_write ⟨_, hw'⟩ code.toUTF8
    rw [hw] at hu
    cases hu
  · obtain ⟨u, hu⟩ := ho.access.symm.exists_write ⟨_, hw⟩ code.toUTF8
    rw [hw'] at hu
    cases hu
  · exact .same _

/-! ## Java files stay as they are -/

theorem keepsDirectories_of_reaches {c : Converter m} {fs s : FileSystem} (h : c.Reaches fs s) :
    FileSystem.KeepsDirectories fs s := by
  have hcreated := FileSystem.created_createDirectories fs c.outputDirectory
  cases h with
  | start => exact .refl fs
  | refused h =>
    rw [h] at hcreated
    exact hcreated.keeps
  | saved h ho =>
    rw [h] at hcreated
    exact hcreated.keeps.trans ho.access.keeps

/-- What is not in the place of an output stays as it is. -/
theorem at?_of_reaches {c : Converter m} {fs s : FileSystem} (h : c.Reaches fs s) {l : Location}
    {e : Entry} (hl : fs.at? l = some e)
    (hname : ∀ file, l.getLast? ≠ some (outputName file c.language)) : s.at? l = some e := by
  have hcreated : (fs.createDirectories c.outputDirectory).1.at? l = fs.at? l := by
    by_contra hne
    obtain ⟨hnone, -⟩ :=
      (FileSystem.created_createDirectories fs c.outputDirectory).changed l hne
    rw [hl] at hnone
    cases hnone
  cases h with
  | start => exact hl
  | refused h =>
    rw [h] at hcreated
    rw [hcreated, hl]
  | saved h ho =>
    rw [h] at hcreated
    by_cases hsame : s.at? l = fs.at? l
    · rw [hsame, hl]
    · obtain ⟨file, hfile⟩ := ho.changed l (by rwa [hcreated])
      exact absurd hfile (hname file)

/-- Saving changes no Java file. -/
theorem readText_of_reaches {c : Converter m} {fs s : FileSystem} (h : c.Reaches fs s)
    {file : String} (hf : leadsToJavaFile fs file = true) :
    s.readText file = fs.readText file := by
  have hfile : fs.isFile file = true := by
    rw [leadsToJavaFile, Bool.and_eq_true] at hf
    exact hf.1
  obtain ⟨l, content, hl, hc⟩ := isFile_iff.mp hfile
  have hl' := (keepsDirectories_of_reaches h).locate_eq_ok hl
  have hc' := at?_of_reaches h hc fun other => getLast?_ne_outputName hf hl other c.language
  simp only [FileSystem.readText, FileSystem.read, hl, hl', hc, hc']

/-! ## Files one after another -/

variable {c : Converter Id} {fs s : FileSystem}

/-- After other saves a file comes to what it comes to alone. -/
theorem agree_convertFile (h : c.Reaches fs s) {file : String}
    (hf : leadsToJavaFile fs file = true) :
    Agree (c.convertFile file s).1 (c.convertFile file fs).1 ∧
      c.Reaches fs (c.convertFile file s).2 := by
  have hread := readText_of_reaches h hf
  cases hr : fs.readText file with
  | error fault =>
    rw [convertFile_of_unreadable hr, convertFile_of_unreadable (hread.trans hr)]
    exact ⟨.same _, h⟩
  | ok source =>
    simp only [convertFile, hread.trans hr, hr]
    cases hm : metadataOf source file with
    | error e =>
      rw [convert_of_invalid hm, convert_of_invalid hm]
      exact ⟨.same _, h⟩
    | ok metadata =>
      simp only [convert, hm]
      cases hg : c.generator source metadata c.language with
      | error failure => exact ⟨.same _, h⟩
      | ok code => exact ⟨agree_save h file code metadata, reaches_save h file code metadata⟩

/-- Each file of a batch comes to what it comes to alone. -/
theorem agree_convertAll (h : c.Reaches fs s) {files : List String}
    (hjava : ∀ f ∈ files, leadsToJavaFile fs f = true) :
    List.Forall₂ (fun e f => e.input = f ∧ Agree e.result (c.convertFile f fs).1)
      (c.convertAll files s).1 files := by
  induction files generalizing s with
  | nil => exact .nil
  | cons file files ih =>
    obtain ⟨hagree, hnext⟩ := agree_convertFile h (hjava file List.mem_cons_self)
    exact .cons ⟨rfl, hagree⟩ (ih hnext fun f hf => hjava f (List.mem_cons_of_mem _ hf))

/-- A converter whose generator copies the source. -/
def sampleConverter : Converter Id where
  generator := fun source _ _ => .ok source

end Converter

end TestConversion
