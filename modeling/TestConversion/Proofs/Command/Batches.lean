import TestConversion.Command.Conversion
import TestConversion.Proofs.Conversion.Saving

/-!
# Commands on directories

A command that gets a directory deals with each collected file as it does with the file alone, and
fails with the count of the files that it fails with alone. Only a dry run does not: it ends at the
first file that cannot be read, and tells nothing of the files after it.

* `Accounts`: what a command on a directory fails with.
* `previewFiles_append`: what a dry run shows of files that can be read.
* `batches_account`: what the three commands tell of the files of a directory.
* `dryRunAll_breaks_off`: a dry run that leaves a file out.
-/

namespace TestConversion.Command

open Files Report

/-- A command on a directory fails if it fails with one of the files alone, and says with how many
of how many. -/
structure Accounts (alone : String → Result) (files : List String) (what : String) (r : Result) :
    Prop where
  problem : r.problem = failures (files.countP fun f => !(alone f).succeeded) files.length what
  status : r.status = 0 ↔ ∀ f ∈ files, (alone f).status = 0

theorem status_eq_zero_iff_succeeded (r : Result) : r.status = 0 ↔ r.succeeded = true := by
  cases h : r.succeeded <;> simp [Result.status, h]

theorem Accounts.of_problem {alone : String → Result} {files : List String} {what : String}
    {r : Result}
    (h : r.problem = failures (files.countP fun f => !(alone f).succeeded) files.length what) :
    Accounts alone files what r := by
  refine ⟨h, ?_⟩
  rw [Result.status_eq_zero_iff, h, failures]
  simp only [status_eq_zero_iff_succeeded]
  split
  · rename_i h₀
    simpa [List.countP_eq_zero] using h₀
  · rename_i h₀
    simpa [List.countP_eq_zero] using h₀

variable {fs : FileSystem}

theorem hasEntry_of_isFile {path : String} (h : fs.isFile path = true) :
    fs.hasEntry path = true := by
  obtain ⟨l, content, hl, hc⟩ := isFile_iff.mp h
  simp [FileSystem.hasEntry, FileSystem.entry?, hl, hc]

/-! ## Looking through -/

theorem path_parsedFile (path : String) : (parsedFile fs path).path = path := by
  unfold parsedFile
  split <;> rfl

theorem isOk_parsedFile (path : String) :
    (parsedFile fs path).result.isOk = (metadataOfFile fs path).isOk := by
  unfold parsedFile
  cases metadataOfFile fs path <;> rfl

theorem succeeded_inspect {path : String} (h : fs.isFile path = true) (format : Format)
    (compact : Bool) :
    (inspect fs path format compact none).succeeded = (metadataOfFile fs path).isOk := by
  have hentry := hasEntry_of_isFile h
  rw [inspect, if_neg (by simp [hentry]), if_pos h, inspectFile]
  cases metadataOfFile fs path <;> rfl

theorem failedCount_eq (files : List ParsedFile) :
    failedCount files = files.countP fun f => !f.result.isOk := by
  unfold failedCount
  congr 1
  funext f
  cases f.result <;> rfl

/-! ## Converting -/

theorem succeeded_convertWith {path : String} (h : fs.isFile path = true) (c : Converter Id) :
    (convertWith c fs path).succeeded = (c.convertFile path fs).1.isOk := by
  rw [convertWith, if_pos h]
  change Result.succeeded (match c.convertFile path fs with
    | (.ok outcome, fs) => _
    | (.error e, fs) => _) = _
  split <;> rename_i hc <;> rw [hc] <;> rfl

/-! ## Dry runs -/

theorem dryRunAll_of_isFile {file : String} (h : fs.isFile file = true) (language : Language) :
    dryRunAll fs file language =
      { files := fs, output := (previewFiles fs language [file]).shown,
        problem := (previewFiles fs language [file]).broken <|>
          failures (previewFiles fs language [file]).failed 1 "parse" } := by
  rw [dryRunAll, javaFiles, if_pos h]
  rfl

/-- A file that can be read is shown, with its prompt or with what is wrong with it. -/
theorem output_dryRunAll_ne_nil {file source : String} (h : fs.isFile file = true)
    (hr : fs.readText file = .ok source) (language : Language) :
    (dryRunAll fs file language).output ≠ [] := by
  rw [dryRunAll_of_isFile h]
  simp only [previewFiles, hr]
  cases dryRun source file language <;> simp

/-- A file that can be read is shown as it is alone. -/
theorem previewFiles_cons {file source : String} (h : fs.isFile file = true)
    (hr : fs.readText file = .ok source) (language : Language) (files : List String) :
    previewFiles fs language (file :: files) =
      { shown := (dryRunAll fs file language).output ++ (previewFiles fs language files).shown
        failed := (previewFiles fs language files).failed +
          if (dryRunAll fs file language).succeeded then 0 else 1
        broken := (previewFiles fs language files).broken } := by
  rw [dryRunAll_of_isFile h]
  simp only [previewFiles, hr]
  cases dryRun source file language with
  | ok result => rfl
  | error e => rfl

theorem previewFiles_append {before : List String}
    (h : ∀ f ∈ before, fs.isFile f = true ∧ ∃ source, fs.readText f = .ok source)
    (language : Language) (files : List String) :
    previewFiles fs language (before ++ files) =
      { shown := (before.flatMap fun f => (dryRunAll fs f language).output) ++
          (previewFiles fs language files).shown
        failed := (before.countP fun f => !(dryRunAll fs f language).succeeded) +
          (previewFiles fs language files).failed
        broken := (previewFiles fs language files).broken } := by
  induction before with
  | nil => simp
  | cons file before ih =>
    obtain ⟨hfile, source, hr⟩ := h file List.mem_cons_self
    rw [List.cons_append, previewFiles_cons hfile hr,
      ih fun f hf => h f (List.mem_cons_of_mem _ hf)]
    cases hs : (dryRunAll fs file language).succeeded <;>
      simp [hs, Nat.add_comm, Nat.add_left_comm]

/-- A file that cannot be read ends a dry run. -/
theorem previewFiles_unreadable {file : String} {fault : Fault}
    (hr : fs.readText file = .error fault) (language : Language) (files : List String) :
    previewFiles fs language (file :: files) =
      ⟨[], 0, some (FileProblem.unreadable file fault).chain⟩ := by
  simp only [previewFiles, hr]

/-! ## Directories -/

/-- What looking through a directory tells of its files. -/
structure Reports (fs : FileSystem) (format : Format) (compact : Bool) (files : List String)
    (r : Result) : Prop where
  each : ∃ reports, r.output = [reportBatch format reports] ∧
    reports.map (fun x => (x.path, x.result.isOk)) =
      files.map fun f => (f, (inspect fs f format compact none).succeeded)
  accounts : Accounts (fun f => inspect fs f format compact none) files "parse" r

/-- What converting a directory tells of its files. -/
structure Converts (c : Converter Id) (fs : FileSystem) (files : List String) (r : Result) :
    Prop where
  each : ∃ entries, r = batchResult r.files entries ∧
    List.Forall₂ (fun e f => e.input = f ∧ Converter.Agree e.result (c.convertFile f fs).1)
      entries files ∧
    entries.map (fun e => (e.input, e.result.isOk)) =
      files.map fun f => (f, (convertWith c fs f : Result).succeeded)
  accounts : Accounts (fun f => (convertWith c fs f : Result)) files "convert" r

/-- What a dry run tells of the files of a directory. -/
structure Previews (fs : FileSystem) (language : Language) (files : List String) (r : Result) :
    Prop where
  each : r.output = files.flatMap fun f => (dryRunAll fs f language).output
  accounts : Accounts (fun f => dryRunAll fs f language) files "parse" r

theorem reports_inspect {path : String} (hentry : fs.hasEntry path = true)
    (hdir : fs.isFile path = false) (format : Format) (compact : Bool) :
    Reports fs format compact (javaFiles fs path) (inspect fs path format compact none) := by
  have hr : inspect fs path format compact none = inspectDirectory fs path format none := by
    rw [inspect, if_neg (by simp [hentry]), if_neg (by simp [hdir])]
  have hok : ∀ f ∈ javaFiles fs path, (parsedFile fs f).result.isOk =
      (inspect fs f format compact none).succeeded := by
    intro f hf
    rw [isOk_parsedFile, succeeded_inspect (isFile_of_mem hf)]
  refine ⟨⟨(javaFiles fs path).map (parsedFile fs), ?_, ?_⟩, .of_problem ?_⟩
  · rw [hr]
    rfl
  · rw [List.map_map]
    refine List.map_congr_left fun f hf => ?_
    rw [Function.comp_apply, path_parsedFile, hok f hf]
  · have hcount : failedCount ((javaFiles fs path).map (parsedFile fs)) =
        (javaFiles fs path).countP
          fun f => !(inspect fs f format compact none).succeeded := by
      rw [failedCount_eq, List.countP_map]
      refine List.countP_congr fun f hf => ?_
      rw [Function.comp_apply, hok f hf]
    rw [hr, inspectDirectory, hcount]
    simp [emit]

theorem converts_convertWith {path : String} (hentry : fs.hasEntry path = true)
    (hdir : fs.isFile path = false) (c : Converter Id) :
    Converts c fs (javaFiles fs path) (convertWith c fs path : Result) := by
  obtain ⟨entries, s, hall⟩ : ∃ entries s,
      c.convertAll (javaFiles fs path) fs = (entries, s) := ⟨_, _, rfl⟩
  have hr : (convertWith c fs path : Result) = batchResult s entries := by
    rw [convertWith, if_neg (by simp [hdir])]
    simp only [Converter.convertPath, if_pos hentry]
    change (batchResult (c.convertAll (javaFiles fs path) fs).2
      (c.convertAll (javaFiles fs path) fs).1) = _
    rw [hall]
  have hagree := Converter.agree_convertAll (c := c) .start fun f hf => leadsToJavaFile_of_mem hdir hf
  rw [hall] at hagree
  have htold : entries.map (fun e => (e.input, e.result.isOk)) =
      (javaFiles fs path).map fun f => (f, (convertWith c fs f : Result).succeeded) := by
    have hok : ∀ f ∈ javaFiles fs path, (f, (convertWith c fs f : Result).succeeded) =
        (f, (c.convertFile f fs).1.isOk) := by
      intro f hf
      rw [succeeded_convertWith (isFile_of_mem hf)]
    rw [List.map_congr_left hok, ← List.forall₂_eq_eq_eq, List.forall₂_map_left_iff,
      List.forall₂_map_right_iff]
    refine hagree.imp fun e f h => ?_
    rw [h.1, h.2.isOk_eq]
  refine ⟨⟨entries, ?_, hagree, htold⟩, .of_problem ?_⟩
  · rw [hr]
    rfl
  · have hcount := congrArg (List.countP fun x : String × Bool => !x.2) htold
    have hlength := congrArg List.length htold
    rw [List.countP_map, List.countP_map] at hcount
    rw [List.length_map, List.length_map] at hlength
    rw [hr, batchResult, failedEntries, hlength]
    exact congrArg (fun n => failures n _ "convert") hcount

theorem previews_dryRunAll {path : String} {language : Language}
    (hread : ∀ f ∈ javaFiles fs path, ∃ source, fs.readText f = .ok source) :
    Previews fs language (javaFiles fs path) (dryRunAll fs path language) := by
  have hp := previewFiles_append (fun f hf => ⟨isFile_of_mem hf, hread f hf⟩) language []
  rw [List.append_nil] at hp
  refine ⟨?_, .of_problem ?_⟩
  · simp [dryRunAll, hp, previewFiles]
  · simp [dryRunAll, hp, previewFiles]

/-- A dry run ends at a file that cannot be read, with what it says of that file alone. -/
structure BreaksOff (fs : FileSystem) (language : Language) (before : List String) (file : String)
    (r : Result) : Prop where
  each : r.output = before.flatMap fun f => (dryRunAll fs f language).output
  problem : r.problem = (dryRunAll fs file language).problem
  status : r.status = 1

theorem breaksOff_dryRunAll {path : String} {language : Language} {before after : List String}
    {file : String} {fault : Fault} (hfiles : javaFiles fs path = before ++ file :: after)
    (hread : ∀ f ∈ before, ∃ source, fs.readText f = .ok source)
    (hr : fs.readText file = .error fault) :
    BreaksOff fs language before file (dryRunAll fs path language) := by
  have hmem : ∀ f ∈ before, f ∈ javaFiles fs path := by
    intro f hf
    rw [hfiles]
    exact List.mem_append_left _ hf
  have hfile : fs.isFile file = true := isFile_of_mem (by rw [hfiles]; simp)
  have hp := previewFiles_append (fun f hf => ⟨isFile_of_mem (hmem f hf), hread f hf⟩) language
    (file :: after)
  rw [← hfiles, previewFiles_unreadable hr] at hp
  refine ⟨?_, ?_, ?_⟩
  · simp [dryRunAll, hp]
  · rw [dryRunAll_of_isFile hfile, previewFiles_unreadable hr]
    simp [dryRunAll, hp]
  · simp [dryRunAll, hp, Result.status, Result.succeeded]

/-- The commands on a directory tell of each collected file, in order, what they tell of it alone,
and fail with the count of those that fail alone. A dry run does so if all files can be read, and
otherwise ends at the first one that cannot. -/
theorem batches_account (c : Converter Id) (fs : FileSystem) (path : String) (format : Format)
    (compact : Bool) (language : Language) (hentry : fs.hasEntry path = true)
    (hdir : fs.isFile path = false) :
    (javaFiles fs path).Pairwise (fun p q => le p q = true) ∧
    (fs.IsTidy → (javaFiles fs path).Nodup) ∧
    Reports fs format compact (javaFiles fs path) (inspect fs path format compact none) ∧
    Converts c fs (javaFiles fs path) (convertWith c fs path : Result) ∧
    ((∀ f ∈ javaFiles fs path, ∃ source, fs.readText f = .ok source) →
      Previews fs language (javaFiles fs path) (dryRunAll fs path language)) ∧
    ∀ before file after fault, javaFiles fs path = before ++ file :: after →
      (∀ f ∈ before, ∃ source, fs.readText f = .ok source) →
      fs.readText file = .error fault →
      BreaksOff fs language before file (dryRunAll fs path language) := by
  refine ⟨sorted_javaFiles fs path, fun h => nodup_javaFiles h path, ?_, ?_, ?_, ?_⟩
  · exact reports_inspect hentry hdir format compact
  · exact converts_convertWith hentry hdir c
  · exact previews_dryRunAll
  · intro before file after fault hfiles hread hr
    exact breaksOff_dryRunAll hfiles hread hr

/-- A directory with a file that is no text in front of one that is Java and one that may not be
opened. -/
def sampleDirectory : FileSystem where
  entries := [(["d"], .directory), (["d", "A.java"], .file { bytes := ⟨#[0xff]⟩ }),
    (["d", "B.java"], .file "class B {}".toUTF8),
    (["d", "C.java"], .file ⟨"class C {}".toUTF8, true⟩)]
  workingDirectory := []

theorem javaFiles_sample : javaFiles sampleDirectory "d" = ["d/A.java", "d/B.java", "d/C.java"] := by
  have hl : sampleDirectory.locate "d" = .ok ["d"] := by rfl
  exact javaFiles_eq (by decide +kernel) (by decide) hl (by decide +kernel) (by decide +kernel)

theorem readText_sample : sampleDirectory.readText "d/A.java" = .error .notText := by rfl

theorem isTidy_sample : sampleDirectory.IsTidy := by
  have hname : ∀ n ∈ ["d", "A.java", "B.java", "C.java"], IsName n := by
    intro n hn
    simp only [List.mem_cons, List.not_mem_nil, or_false] at hn
    rcases hn with rfl | rfl | rfl | rfl <;> exact ⟨by decide, by decide, by decide, by decide⟩
  refine ⟨by decide, fun e he n hn => hname n ?_⟩
  simp only [sampleDirectory, List.mem_cons, List.not_mem_nil, or_false] at he
  rcases he with rfl | rfl | rfl | rfl <;> simp at hn <;> grind

theorem batches_account_sample :
    sampleDirectory.hasEntry "d" = true ∧ sampleDirectory.isFile "d" = false ∧
    (javaFiles sampleDirectory "d").Nodup ∧
    Reports sampleDirectory .json false (javaFiles sampleDirectory "d")
      (inspect sampleDirectory "d" .json false none) ∧
    Converts Converter.sampleConverter sampleDirectory (javaFiles sampleDirectory "d")
      (convertWith Converter.sampleConverter sampleDirectory "d" : Result) ∧
    BreaksOff sampleDirectory .typeScript [] "d/A.java"
      (dryRunAll sampleDirectory "d" .typeScript) := by
  have hentry : sampleDirectory.hasEntry "d" = true := by decide +kernel
  have hdir : sampleDirectory.isFile "d" = false := by decide +kernel
  obtain ⟨-, hnodup, hreports, hconverts, -, hbreaks⟩ :=
    batches_account Converter.sampleConverter sampleDirectory "d" .json false .typeScript hentry hdir
  exact ⟨hentry, hdir, hnodup isTidy_sample, hreports, hconverts,
    hbreaks [] "d/A.java" ["d/B.java", "d/C.java"] _ javaFiles_sample (by simp) readText_sample⟩

/-- A dry run says nothing of a Java file that follows one that is no text. -/
theorem dryRunAll_breaks_off :
    sampleDirectory.hasEntry "d" = true ∧ sampleDirectory.isFile "d" = false ∧
    javaFiles sampleDirectory "d" = ["d/A.java", "d/B.java", "d/C.java"] ∧
    (dryRunAll sampleDirectory "d" .typeScript).output = [] ∧
    (dryRunAll sampleDirectory "d/B.java" .typeScript).output ≠ [] ∧
    ¬ Previews sampleDirectory .typeScript (javaFiles sampleDirectory "d")
      (dryRunAll sampleDirectory "d" .typeScript) := by
  have hentry : sampleDirectory.hasEntry "d" = true := by decide +kernel
  have hdir : sampleDirectory.isFile "d" = false := by decide +kernel
  have hbreaks : BreaksOff sampleDirectory .typeScript [] "d/A.java"
      (dryRunAll sampleDirectory "d" .typeScript) :=
    breaksOff_dryRunAll javaFiles_sample (by simp) readText_sample
  have hshown : (dryRunAll sampleDirectory "d/B.java" .typeScript).output ≠ [] := by
    have hfile : sampleDirectory.isFile "d/B.java" = true := by decide +kernel
    have hread : sampleDirectory.readText "d/B.java" = .ok "class B {}" := by rfl
    exact output_dryRunAll_ne_nil hfile hread .typeScript
  refine ⟨hentry, hdir, javaFiles_sample, hbreaks.each, hshown, fun h => ?_⟩
  have heach := h.each
  rw [hbreaks.each, javaFiles_sample] at heach
  simp [hshown] at heach

end TestConversion.Command
