import TestConversion.Proofs.Conversion.Saving

/-!
# Batches of conversions

A batch asks the generator once for each file that can be read and looked through, gives one entry
for each file, and writes what the last successful entry with an output has for it. Nothing else
changes, apart from the output directory, which is there as soon as one entry is successful.

* `codeFor`, `lastCode`: what the entries of a batch have for an output.
* `lastCode_of_batchWarnings`: a batch without warnings keeps the code of every entry.
* `batch_step`, `batch_run`: one file of a batch, and the files of a batch one after another.
* `convertPath_effects`: what a batch asks for, what it gives, and what it changes.
-/

namespace TestConversion

open Files

/-! ## Questions to a generator -/

/-- What a generator is asked. -/
structure Query where
  source : String
  metadata : Metadata
  language : Language

/-- A generator that keeps a record of what it is asked. -/
def Generator.logged (g : Generator Id) : Generator (StateM (List Query)) :=
  fun source metadata language log =>
    (g source metadata language, log ++ [⟨source, metadata, language⟩])

/-! ## Entries -/

/-- The code that an entry has for an output. -/
def codeFor (file : String) (e : BatchEntry) : Option String :=
  match e.result with
  | .ok o => if o.outputFile = file then some o.code else none
  | .error _ => none

/-- The code that the last successful entry with an output has for it. -/
def lastCode (entries : List BatchEntry) (file : String) : Option String :=
  (entries.filterMap (codeFor file)).getLast?

theorem lastCode_concat (entries : List BatchEntry) (e : BatchEntry) (file : String) :
    lastCode (entries ++ [e]) file = (codeFor file e).or (lastCode entries file) := by
  cases h : codeFor file e with
  | none => simp [lastCode, List.filterMap_append, h]
  | some code => simp [lastCode, List.filterMap_append, h]

theorem exists_of_lastCode {entries : List BatchEntry} {file code : String}
    (h : lastCode entries file = some code) :
    ∃ e ∈ entries, ∃ o, e.result = .ok o ∧ o.outputFile = file := by
  obtain ⟨e, he, hcode⟩ := List.mem_filterMap.mp (List.mem_of_getLast? h)
  refine ⟨e, he, ?_⟩
  unfold codeFor at hcode
  split at hcode
  · rename_i o ho
    split at hcode
    · exact ⟨o, ho, by assumption⟩
    · cases hcode
  · cases hcode

/-- Nothing is logged of an entry that is successful and whose output was not written before. -/
theorem batchWarnings_cons_eq_nil {written : List String} {e : BatchEntry}
    {entries : List BatchEntry} : batchWarnings written (e :: entries) = [] ↔
      ∃ o, e.result = .ok o ∧ o.outputFile ∉ written ∧
        batchWarnings (o.outputFile :: written) entries = [] := by
  cases h : e.result with
  | error error => simp [batchWarnings, h]
  | ok o => simp [batchWarnings, h]

theorem exists_of_batchWarnings {written : List String} {e : BatchEntry}
    {entries : List BatchEntry} (h : batchWarnings written entries = []) (he : e ∈ entries) :
    ∃ o, e.result = .ok o ∧ o.outputFile ∉ written := by
  induction entries generalizing written with
  | nil => cases he
  | cons first entries ih =>
    obtain ⟨o, ho, hnew, hrest⟩ := batchWarnings_cons_eq_nil.mp h
    rcases List.mem_cons.mp he with rfl | he
    · exact ⟨o, ho, hnew⟩
    · obtain ⟨p, hp, hfresh⟩ := ih hrest he
      exact ⟨p, hp, fun hmem => hfresh (List.mem_cons_of_mem _ hmem)⟩

/-- Where nothing is logged of a batch, each output keeps the code of its entry. -/
theorem lastCode_of_batchWarnings {written : List String} {e : BatchEntry} {o : Outcome}
    {entries : List BatchEntry} (h : batchWarnings written entries = []) (he : e ∈ entries)
    (ho : e.result = .ok o) : lastCode entries o.outputFile = some o.code := by
  induction entries generalizing written with
  | nil => cases he
  | cons first entries ih =>
    obtain ⟨p, hp, -, hrest⟩ := batchWarnings_cons_eq_nil.mp h
    rcases List.mem_cons.mp he with rfl | he
    · -- no later entry has the output
      have hothers : entries.filterMap (codeFor o.outputFile) = [] := by
        rw [List.filterMap_eq_nil_iff]
        intro other hmem
        obtain ⟨q, hq, hnew⟩ := exists_of_batchWarnings hrest hmem
        have hne : q.outputFile ≠ o.outputFile := by
          cases hp.symm.trans ho
          exact fun heq => hnew (heq ▸ List.mem_cons_self)
        simp [codeFor, hq, hne]
      simp [lastCode, codeFor, ho, hothers]
    · have hlast := ih hrest he
      rw [lastCode] at hlast ⊢
      rw [List.filterMap_cons]
      split
      · exact hlast
      · rw [List.getLast?_cons, hlast, Option.getD_some]

/-- What a batch with some entries changes, whose outputs are in a directory. -/
structure Effects (outputs : String) (entries : List BatchEntry) (fs fs' : FileSystem) :
    Prop where
  workingDirectory : fs'.workingDirectory = fs.workingDirectory
  /-- Without a successful entry nothing changes. -/
  untouched : (∀ e ∈ entries, e.result.isOk = false) → fs' = fs
  /-- With one the output directory is there. -/
  directory : (∃ e ∈ entries, e.result.isOk = true) →
    fs'.isDirectory (directoryPath outputs) = true
  /-- An output holds what was generated last for it. -/
  saved : ∀ file code, lastCode entries file = some code → fs'.read file = .ok code.toUTF8
  /-- What differs is the output of a successful entry, or a directory on the way to the outputs
  that was missing. -/
  changed : ∀ l, fs'.at? l ≠ fs.at? l →
    (∃ e ∈ entries, ∃ o, e.result = .ok o ∧ fs'.locate o.outputFile = .ok l) ∨
    (fs.at? l = none ∧ fs'.at? l = some .directory ∧
      ∃ p ∈ ancestors (components outputs), fs'.locate p = .ok l)

namespace Converter

/-- The converter that keeps a record of what its generator is asked. -/
def logged (c : Converter Id) : Converter (StateM (List Query)) :=
  { generator := c.generator.logged, language := c.language, outputDirectory := c.outputDirectory }

/-- What the generator is asked for a file, if the file is read and looked through. -/
def query? (c : Converter Id) (fs : FileSystem) (file : String) : Option Query :=
  match fs.readText file with
  | .error _ => none
  | .ok source =>
    match metadataOf source file with
    | .error _ => none
    | .ok metadata => some ⟨source, metadata, c.language⟩

/-- What becomes of a file whose conversion can be saved. -/
def resultOf (c : Converter Id) (fs : FileSystem) (file : String) :
    Except ConversionError Outcome :=
  match fs.readText file with
  | .error fault => .error (.file fault)
  | .ok source =>
    match metadataOf source file with
    | .error e => .error (.invalid e)
    | .ok metadata =>
      match c.generator source metadata c.language with
      | .error failure => .error (.generation failure)
      | .ok code => .ok ⟨c.outputFile file, code, metadata⟩

def entry (c : Converter Id) (fs : FileSystem) (file : String) : BatchEntry :=
  ⟨file, c.resultOf fs file⟩

/-- The output directory can be created, and then the outputs of some files can be written. -/
structure Saves (c : Converter Id) (fs : FileSystem) (files : List String) : Prop where
  creates : (fs.createDirectories c.outputDirectory).2 = none
  writes : ∀ file ∈ files, ∀ content,
    ∃ s, (fs.createDirectories c.outputDirectory).1.write (c.outputFile file) content = .ok s

variable {c : Converter Id} {fs s : FileSystem} {done files : List String} {file : String}

/-! ## One file -/

/-- Files were written for the successful ones among some files, after the output directory was
created. -/
structure Written (c : Converter Id) (fs : FileSystem) (done : List String) (t s : FileSystem) :
    Prop where
  created : fs.createDirectories c.outputDirectory = (t, none)
  access : FileSystem.SameAccess t s
  saved : ∀ file code, lastCode (done.map (c.entry fs)) file = some code →
    s.read file = .ok code.toUTF8
  changed : ∀ l, s.at? l ≠ t.at? l →
    ∃ f ∈ done, ∃ o, c.resultOf fs f = .ok o ∧ s.locate o.outputFile = .ok l

/-- The state after some files of a batch. -/
inductive After (c : Converter Id) (fs : FileSystem) (done : List String) : FileSystem → Prop where
  | untouched (h : ∀ f ∈ done, (c.resultOf fs f).isOk = false) : After c fs done fs
  | written {t s : FileSystem} (hok : ∃ f ∈ done, (c.resultOf fs f).isOk = true)
      (h : Written c fs done t s) : After c fs done s

theorem outputFile_of_resultOf {o : Outcome} (h : c.resultOf fs file = .ok o) :
    o.outputFile = c.outputFile file := by
  unfold resultOf at h
  split at h
  · cases h
  split at h
  · cases h
  split at h
  · cases h
  · cases h
    rfl

theorem reaches_of_after (h : After c fs done s) : c.Reaches fs s := by
  cases h with
  | untouched => exact .start
  | @written t _ _ h =>
    refine .saved h.created ⟨h.access, fun l hl => ?_⟩
    obtain ⟨f, -, o, ho, hloc⟩ := h.changed l hl
    rw [outputFile_of_resultOf ho] at hloc
    obtain ⟨d, -, -, rfl⟩ := exists_of_locate_outputFile hloc
    exact ⟨f, by simp⟩

theorem codeFor_of_not_ok (h : (c.resultOf fs file).isOk = false) (other : String) :
    codeFor other (c.entry fs file) = none := by
  cases hr : c.resultOf fs file with
  | error e => simp [codeFor, entry, hr]
  | ok o =>
    rw [hr] at h
    cases h

theorem lastCode_of_untouched (h : ∀ f ∈ done, (c.resultOf fs f).isOk = false) (other : String) :
    lastCode (done.map (c.entry fs)) other = none := by
  have hnone : (done.map (c.entry fs)).filterMap (codeFor other) = [] := by
    rw [List.filterMap_eq_nil_iff]
    intro e he
    obtain ⟨f, hf, rfl⟩ := List.mem_map.mp he
    exact codeFor_of_not_ok (h f hf) other
  rw [lastCode, hnone, List.getLast?_nil]

namespace Written

variable {t : FileSystem}

theorem of_untouched (ht : fs.createDirectories c.outputDirectory = (t, none))
    (h : ∀ f ∈ done, (c.resultOf fs f).isOk = false) : Written c fs done t t := by
  refine ⟨ht, .refl t, fun other code hcode => ?_, fun _ hl => absurd rfl hl⟩
  rw [lastCode_of_untouched h] at hcode
  cases hcode

/-- A file without a result adds nothing. -/
theorem skip (h : Written c fs done t s) (hfile : (c.resultOf fs file).isOk = false) :
    Written c fs (done ++ [file]) t s := by
  refine ⟨h.created, h.access, fun other code hcode => ?_, fun l hl => ?_⟩
  · rw [List.map_append, List.map_singleton, lastCode_concat, codeFor_of_not_ok hfile,
      Option.none_or] at hcode
    exact h.saved other code hcode
  · obtain ⟨f, hf, hrest⟩ := h.changed l hl
    exact ⟨f, List.mem_append_left _ hf, hrest⟩

/-- Outputs with different paths are in different places. -/
theorem output_ne {l k : Location} {f : String} (hl : s.locate (c.outputFile file) = .ok l)
    (hk : s.locate (c.outputFile f) = .ok k) (hne : c.outputFile f ≠ c.outputFile file) : k ≠ l := by
  obtain ⟨d, hd, -, rfl⟩ := exists_of_locate_outputFile hl
  obtain ⟨d', hd', -, rfl⟩ := exists_of_locate_outputFile hk
  rw [hd] at hd'
  cases hd'
  intro he
  have hname : outputName f c.language = outputName file c.language := by simpa using he
  exact hne (by rw [outputFile, outputFile, hname])

/-- Writing the output of a further file. -/
theorem write {o : Outcome} {s' : FileSystem} (h : Written c fs done t s)
    (ho : c.resultOf fs file = .ok o) (hw : s.write o.outputFile o.code.toUTF8 = .ok s') :
    Written c fs (done ++ [file]) t s' := by
  have hout := outputFile_of_resultOf ho
  obtain ⟨l, hl, hd, hs, rfl⟩ := FileSystem.write_eq_ok.mp hw
  have hset := FileSystem.sameAccess_set hd hs o.code.toUTF8
  have hne : l ≠ [] := by
    rintro rfl
    exact hd rfl
  refine ⟨h.created, h.access.trans hset, fun other code hcode => ?_, fun k hk => ?_⟩
  · rw [List.map_append, List.map_singleton, lastCode_concat] at hcode
    by_cases hother : o.outputFile = other
    · -- the new content is the last one
      have hnew : codeFor other (c.entry fs file) = some o.code := by
        simp [codeFor, entry, ho, hother]
      rw [hnew, Option.some_or] at hcode
      cases hcode
      rw [← hother]
      exact FileSystem.read_eq_ok.mpr ⟨l, hset.1.locate_eq_ok hl, FileSystem.at?_set _ _ hne⟩
    · have hnone : codeFor other (c.entry fs file) = none := by
        simp [codeFor, entry, ho, hother]
      rw [hnone, Option.none_or] at hcode
      obtain ⟨k, hk, hc⟩ := FileSystem.read_eq_ok.mp (h.saved other code hcode)
      obtain ⟨e, he, o', ho', rfl⟩ := exists_of_lastCode hcode
      obtain ⟨f, -, rfl⟩ := List.mem_map.mp he
      have hout' := outputFile_of_resultOf ho'
      have hkl : k ≠ l := by
        rw [hout] at hl hother
        rw [hout'] at hk hother
        exact output_ne hl hk (Ne.symm hother)
      refine FileSystem.read_eq_ok.mpr ⟨k, hset.1.locate_eq_ok hk, ?_⟩
      rw [FileSystem.at?_set_of_ne _ _ hkl, hc]
  · by_cases hkl : k = l
    · exact ⟨file, by simp, o, ho, hkl ▸ hset.1.locate_eq_ok hl⟩
    · rw [FileSystem.at?_set_of_ne _ _ hkl] at hk
      obtain ⟨f, hf, o', ho', hloc⟩ := h.changed k hk
      exact ⟨f, List.mem_append_left _ hf, o', ho', hset.1.locate_eq_ok hloc⟩

end Written

theorem After.skip (h : After c fs done s) (hfile : (c.resultOf fs file).isOk = false) :
    After c fs (done ++ [file]) s := by
  cases h with
  | untouched h =>
    refine .untouched fun f hf => ?_
    rcases List.mem_append.mp hf with hf | hf
    · exact h f hf
    · rwa [List.mem_singleton.mp hf]
  | written hok h =>
    obtain ⟨f, hf, hfok⟩ := hok
    exact .written ⟨f, List.mem_append_left _ hf, hfok⟩ (h.skip hfile)

theorem save_of_saves (hs : c.Saves fs files) (hfile : file ∈ files) (code : String)
    (metadata : Metadata) :
    (c.save file code metadata fs).1 = .ok ⟨c.outputFile file, code, metadata⟩ := by
  obtain ⟨u, hu⟩ := hs.writes file hfile code.toUTF8
  have hcreates := hs.creates
  rcases save_cases c file code metadata fs with
    ⟨t, _, ht, -⟩ | ⟨t, _, ht, hw, -⟩ | ⟨t, t', ht, hw, he⟩
  · rw [ht] at hcreates
    cases hcreates
  · rw [ht, hw] at hu
    cases hu
  · rw [he]

/-- A file with a result is saved. -/
theorem After.save (h : After c fs done s) (hs : c.Saves fs files) (hfile : file ∈ files)
    {o : Outcome} (ho : c.resultOf fs file = .ok o) :
    ∃ s', c.save file o.code o.metadata s = (.ok o, s') ∧ After c fs (done ++ [file]) s' := by
  have hout := outputFile_of_resultOf ho
  have hagree := agree_save (reaches_of_after h) file o.code o.metadata
  rw [save_of_saves hs hfile] at hagree
  rcases save_cases c file o.code o.metadata s with
    ⟨t, _, -, he⟩ | ⟨t, _, -, -, he⟩ | ⟨t, s', ht, hw, he⟩
  · rw [he] at hagree
    cases hagree
  · rw [he] at hagree
    cases hagree
  rw [← hout] at hw he
  have hok : ∃ f ∈ done ++ [file], (c.resultOf fs f).isOk = true :=
    ⟨file, by simp, by rw [ho]; rfl⟩
  cases h with
  | untouched h =>
    exact ⟨s', he, .written hok ((Written.of_untouched ht h).write ho hw)⟩
  | written _ h =>
    rw [FileSystem.createDirectories_again h.created h.access.keeps] at ht
    cases ht
    exact ⟨s', he, .written hok (h.write ho hw)⟩

/-- Asking the generator is noted, and its answer is what the generator has without notes. -/
theorem run_ask (c : Converter Id) {α : Type} (source : String) (metadata : Metadata)
    (next : Except Model.Failure String → StateM (List Query) α) (log : List Query) :
    (c.logged.generator source metadata c.logged.language >>= next) log =
      next (c.generator source metadata c.language) (log ++ [⟨source, metadata, c.language⟩]) :=
  rfl

/-- What one file of a batch asks for, gives and changes. -/
theorem batch_step (h : After c fs done s) (hs : c.Saves fs files) (hfile : file ∈ files)
    (hread : s.readText file = fs.readText file) :
    ∃ s', (∀ log, c.logged.convertFile file s log =
        ((c.resultOf fs file, s'), log ++ (c.query? fs file).toList)) ∧
      After c fs (done ++ [file]) s' := by
  cases hr : fs.readText file with
  | error fault =>
    have hres : c.resultOf fs file = .error (.file fault) := by simp only [resultOf, hr]
    have hquery : c.query? fs file = none := by simp only [query?, hr]
    refine ⟨s, fun log => ?_, h.skip (by rw [hres]; rfl)⟩
    rw [convertFile_of_unreadable (hread.trans hr), hres, hquery, Option.toList_none,
      List.append_nil]
    rfl
  | ok source =>
    cases hm : metadataOf source file with
    | error e =>
      have hres : c.resultOf fs file = .error (.invalid e) := by simp only [resultOf, hr, hm]
      have hquery : c.query? fs file = none := by simp only [query?, hr, hm]
      refine ⟨s, fun log => ?_, h.skip (by rw [hres]; rfl)⟩
      rw [convertFile, hread.trans hr]
      rw [hres, hquery, Option.toList_none, List.append_nil]
      simp only [convert_of_invalid hm]
      rfl
    | ok metadata =>
      have hquery : c.query? fs file = some ⟨source, metadata, c.language⟩ := by
        simp only [query?, hr, hm]
      cases hg : c.generator source metadata c.language with
      | error failure =>
        have hres : c.resultOf fs file = .error (.generation failure) := by
          simp only [resultOf, hr, hm, hg]
        refine ⟨s, fun log => ?_, h.skip (by rw [hres]; rfl)⟩
        rw [convertFile, hread.trans hr, hres, hquery]
        simp only [convert, hm]
        rw [run_ask, hg]
        rfl
      | ok code =>
        have hres : c.resultOf fs file = .ok ⟨c.outputFile file, code, metadata⟩ := by
          simp only [resultOf, hr, hm, hg]
        obtain ⟨s', hsave, hafter⟩ := h.save hs hfile hres
        refine ⟨s', fun log => ?_, hafter⟩
        rw [convertFile, hread.trans hr, hres, hquery]
        simp only [convert, hm]
        rw [run_ask, hg]
        change ((c.save file code metadata s), _) = _
        rw [hsave]
        rfl

/-! ## Batches -/

/-- A first file and the files after it. -/
theorem convertAll_cons {s₁ s₂ : FileSystem} {path : String} {paths : List String}
    {r : Except ConversionError Outcome} {entries : List BatchEntry} {asked asked' : List Query}
    (hfirst : ∀ log, c.logged.convertFile path s log = ((r, s₁), log ++ asked))
    (hrest : ∀ log, c.logged.convertAll paths s₁ log = ((entries, s₂), log ++ asked'))
    (log : List Query) :
    c.logged.convertAll (path :: paths) s log =
      ((⟨path, r⟩ :: entries, s₂), log ++ (asked ++ asked')) := by
  rw [convertAll, ← List.append_assoc]
  change (let first := c.logged.convertFile path s log
    let rest := c.logged.convertAll paths first.1.2 first.2
    ((⟨path, first.1.1⟩ :: rest.1.1, rest.1.2), rest.2)) = _
  simp only [hfirst, hrest]

/-- After some files of a batch, further files ask for, give and change what they should. -/
def Continues (c : Converter Id) (fs : FileSystem) (done paths : List String) (s : FileSystem) :
    Prop :=
  ∃ s', (∀ log, c.logged.convertAll paths s log =
      ((paths.map (c.entry fs), s'), log ++ paths.filterMap (c.query? fs))) ∧
    After c fs (done ++ paths) s'

theorem continues_nil (h : After c fs done s) : Continues c fs done [] s := by
  refine ⟨s, fun log => ?_, by simpa using h⟩
  rw [List.filterMap_nil, List.append_nil]
  rfl

theorem continues_cons {path : String} {paths : List String} (h : After c fs done s)
    (hs : c.Saves fs files) (hpath : path ∈ files) (hread : s.readText path = fs.readText path)
    (hrest : ∀ s₁, After c fs (done ++ [path]) s₁ → Continues c fs (done ++ [path]) paths s₁) :
    Continues c fs done (path :: paths) s := by
  obtain ⟨s₁, hfirst, h₁⟩ := batch_step h hs hpath hread
  obtain ⟨s₂, hlog, h₂⟩ := hrest s₁ h₁
  refine ⟨s₂, fun log => ?_, by simpa using h₂⟩
  rw [convertAll_cons hfirst hlog log]
  cases hq : c.query? fs path <;> simp [hq, entry]

/-- The files of a batch one after another. -/
theorem batch_run (hs : c.Saves fs files) {paths : List String} (hpaths : ∀ f ∈ paths, f ∈ files)
    (hjava : ∀ f ∈ paths, leadsToJavaFile fs f = true) (h : After c fs done s) :
    Continues c fs done paths s := by
  induction paths generalizing done s with
  | nil => exact continues_nil h
  | cons path paths ih =>
    have hread := readText_of_reaches (reaches_of_after h) (hjava path List.mem_cons_self)
    refine continues_cons h hs (hpaths path List.mem_cons_self) hread fun s₁ h₁ => ?_
    exact ih (fun f hf => hpaths f (List.mem_cons_of_mem _ hf))
      (fun f hf => hjava f (List.mem_cons_of_mem _ hf)) h₁

theorem exists_lastCode {entries : List BatchEntry} {e : BatchEntry} (he : e ∈ entries)
    {o : Outcome} (ho : e.result = .ok o) : ∃ code, lastCode entries o.outputFile = some code := by
  have hmem : o.code ∈ entries.filterMap (codeFor o.outputFile) := by
    refine List.mem_filterMap.mpr ⟨e, he, ?_⟩
    simp [codeFor, ho]
  exact ⟨_, List.getLast?_eq_some_getLast (List.ne_nil_of_mem hmem)⟩

/-- What the files of a batch have changed in the end. -/
theorem effects_of_after (h : After c fs files s) :
    Effects c.outputDirectory (files.map (c.entry fs)) fs s := by
  cases h with
  | untouched h =>
    refine ⟨rfl, fun _ => rfl, ?_, ?_, fun _ hl => absurd rfl hl⟩
    · rintro ⟨e, he, hok⟩
      obtain ⟨f, hf, rfl⟩ := List.mem_map.mp he
      rw [entry, h f hf] at hok
      cases hok
    · intro file code hcode
      rw [lastCode_of_untouched h] at hcode
      cases hcode
  | @written t _ hok h =>
    obtain ⟨f, hf, hfok⟩ := hok
    have hmem : c.entry fs f ∈ files.map (c.entry fs) := List.mem_map_of_mem hf
    have hcreated := FileSystem.created_createDirectories fs c.outputDirectory
    rw [h.created] at hcreated
    refine ⟨h.access.keeps.workingDirectory.trans hcreated.keeps.workingDirectory, ?_, ?_,
      h.saved, ?_⟩
    · intro hnone
      rw [entry] at hmem
      rw [hnone _ hmem] at hfok
      cases hfok
    · intro _
      cases ho : c.resultOf fs f with
      | error e =>
        rw [ho] at hfok
        cases hfok
      | ok o =>
        obtain ⟨code, hcode⟩ := exists_lastCode hmem ho
        obtain ⟨l, hl, -⟩ := FileSystem.read_eq_ok.mp (h.saved _ _ hcode)
        rw [outputFile_of_resultOf ho] at hl
        obtain ⟨d, hd, hdir, -⟩ := exists_of_locate_outputFile hl
        exact isDirectory_iff.mpr ⟨d, hd, hdir⟩
    · intro l hl
      by_cases hlt : s.at? l = t.at? l
      · right
        obtain ⟨h₀, h₁, p, hp, hloc⟩ := hcreated.changed l (by rwa [← hlt])
        exact ⟨h₀, hlt.trans h₁, p, hp, h.access.keeps.locate_eq_ok hloc⟩
      · left
        obtain ⟨g, hg, o, ho, hloc⟩ := h.changed l hlt
        exact ⟨c.entry fs g, List.mem_map_of_mem hg, o, ho, hloc⟩

/-- A batch asks the generator once for each file that is read and looked through, in order, gives
one entry for each file, and changes nothing but the outputs of the successful ones. -/
theorem convertPath_effects (c : Converter Id) (fs : FileSystem) (path : String)
    (hpath : fs.hasEntry path = true) (hs : c.Saves fs (javaFiles fs path)) :
    ∃ fs', (∀ log, c.logged.convertPath path fs log =
        ((.ok ((javaFiles fs path).map (c.entry fs)), fs'),
          log ++ (javaFiles fs path).filterMap (c.query? fs))) ∧
      Effects c.outputDirectory ((javaFiles fs path).map (c.entry fs)) fs fs' := by
  have hnone : After c fs [] fs := .untouched (by simp)
  have hrun : Continues c fs [] (javaFiles fs path) fs := by
    by_cases hfile : fs.isFile path = true
    · -- a single file can have any name, but nothing is saved before it is read
      have hsingle : javaFiles fs path = [path] := by rw [javaFiles, if_pos hfile]
      rw [hsingle] at hs ⊢
      exact continues_cons hnone hs List.mem_cons_self rfl fun _ h₁ => continues_nil h₁
    · have hjava : ∀ f ∈ javaFiles fs path, leadsToJavaFile fs f = true := by
        intro f hf
        exact leadsToJavaFile_of_mem (by simpa using hfile) hf
      exact batch_run hs (fun _ hf => hf) hjava hnone
  obtain ⟨s, hlog, hafter⟩ := hrun
  refine ⟨s, fun log => ?_, effects_of_after hafter⟩
  rw [convertPath, if_pos hpath]
  change (let all := c.logged.convertAll (javaFiles fs path) fs log
    ((Except.ok all.1.1, all.1.2), all.2)) = _
  simp only [hlog]

/-- A directory with a file that is no text, one that is Java and one that may not be opened, and
an old output of the second. -/
def sampleFiles : FileSystem where
  entries := [(["d"], .directory), (["d", "A.java"], .file { bytes := ⟨#[0xff]⟩ }),
    (["d", "B.java"], .file "class B {}".toUTF8),
    (["d", "C.java"], .file ⟨"class C {}".toUTF8, true⟩),
    (["output"], .directory), (["output", "b.spec.ts"], .file "old".toUTF8)]
  workingDirectory := []

theorem saves_sample (files : List String) : sampleConverter.Saves sampleFiles files := by
  have hthere : sampleFiles.isDirectory "output" = true := by decide +kernel
  have hcreate : sampleFiles.createDirectories "output" = (sampleFiles, none) := by
    have hup : ancestors (components "output") = ["output"] := by decide +kernel
    rw [FileSystem.createDirectories, hup, FileSystem.createAll_of_isDirectory hthere]
  refine ⟨congrArg Prod.snd hcreate, fun file _ content => ?_⟩
  have hn := isName_outputName file .typeScript
  have hl : sampleFiles.locate (sampleConverter.outputFile file) =
      .ok ["output", outputName file .typeScript] := by
    have houtput : sampleFiles.locate (directoryPath "output") = .ok ["output"] := by rfl
    rw [outputFile, show sampleConverter.outputDirectory = "output" from rfl,
      show sampleConverter.language = .typeScript from rfl,
      FileSystem.locate_join hn.ne_empty hn.not_mem, houtput]
    have hdir : sampleFiles.at? ["output"] = some .directory := by rfl
    exact FileSystem.step_of_isName hn hdir
  have hat : sampleFiles.at? ["output", outputName file .typeScript] ≠ some .directory ∧
      ¬ sampleFiles.IsSealed ["output", outputName file .typeScript] := by
    by_cases hname : "b.spec.ts" = outputName file .typeScript
    · simp [FileSystem.IsSealed, FileSystem.at?, sampleFiles, ← hname]
    · simp [FileSystem.IsSealed, FileSystem.at?, sampleFiles, hname]
  rw [show sampleConverter.outputDirectory = "output" from rfl, hcreate]
  exact ⟨_, FileSystem.write_eq_ok.mpr ⟨_, hl, hat.1, hat.2, rfl⟩⟩

/-- All three files are accounted for, whatever becomes of them. -/
theorem convertPath_effects_sample :
    sampleFiles.hasEntry "d" = true ∧
    sampleConverter.Saves sampleFiles (javaFiles sampleFiles "d") ∧
    ∃ fs', (∀ log, sampleConverter.logged.convertPath "d" sampleFiles log =
        ((.ok ((javaFiles sampleFiles "d").map (sampleConverter.entry sampleFiles)), fs'),
          log ++ (javaFiles sampleFiles "d").filterMap (sampleConverter.query? sampleFiles))) ∧
      Effects "output" ((javaFiles sampleFiles "d").map (sampleConverter.entry sampleFiles))
        sampleFiles fs' :=
  have hentry : sampleFiles.hasEntry "d" = true := by decide +kernel
  ⟨hentry, saves_sample _,
    convertPath_effects sampleConverter sampleFiles "d" hentry (saves_sample _)⟩

end Converter

end TestConversion
