import TestConversion.Command.Inspection
import TestConversion.Proofs.Files.Changes
import TestConversion.Proofs.Files.Collected
import TestConversion.Proofs.Report.Texts

/-!
# Reports in files

A report that goes to a file goes without escape sequences, which are meant for a terminal. In a
JSON report there is no sequence but in a text that an introducer stands in. So the file holds the
report of what is left of the texts, and it holds what would be printed exactly if no text has such
a sequence in it.

* `withoutEscapes_text`: a JSON report without sequences is the report of plain texts.
* `inspect_written`: what is written to a file, next to what is printed without one.
* `sequence_lost`: a path that is not written as it is printed.
-/

namespace TestConversion.Command

open Files Report Text

/-! ## What is reported -/

/-- What is reported of a path: one file or the files of a directory. -/
inductive Reported where
  | one (m : Metadata)
  | many (files : List ParsedFile)

namespace Reported

/-- The JSON report. -/
def text (compact : Bool) : Reported → String
  | one m => fileReport .json compact m
  | many files => reportBatch .json files

def texts : Reported → List String
  | one m => m.texts
  | many files => files.flatMap ParsedFile.texts

/-- What is left without sequences behind an introducer. -/
def stripped : Reported → Reported
  | one m => one (m.mapTexts plain)
  | many files => many (files.map (ParsedFile.mapTexts plain))

/-- The text decodes to what was reported. -/
def IsReadFrom (text : String) : Reported → Prop
  | one m => Metadata.decode text = .ok m
  | many files => ∃ vs, Json.parse? text = some (.array vs) ∧ List.Forall₂ IsEntry files vs

theorem stripped_eq_self_iff (p : Reported) : p.stripped = p ↔ ∀ s ∈ p.texts, IsPlain s := by
  cases p with
  | one m => simp only [stripped, texts, one.injEq, m.mapTexts_eq_self_iff, plain_eq_self_iff]
  | many files =>
    simp only [stripped, texts, many.injEq,
      forall_mem_flatMap_iff ParsedFile.mapTexts_eq_self_iff, plain_eq_self_iff]

/-- A JSON report without sequences is the report of plain texts. -/
theorem withoutEscapes_text (p : Reported) (compact : Bool) :
    withoutEscapes (p.text compact) = p.stripped.text compact := by
  cases p with
  | one m =>
    cases compact with
    | true => exact withoutEscapes_record Json.Layout.isBlank_compact m
    | false => exact withoutEscapes_record Json.Layout.isBlank_pretty m
  | many files => exact withoutEscapes_recordBatch files

theorem isReadFrom_text (p : Reported) (compact : Bool) : p.IsReadFrom (p.text compact) := by
  cases p with
  | one m =>
    cases compact with
    | true => exact decode_write Json.Layout.isBlank_compact rearranges_id m
    | false => exact decode_write Json.Layout.isBlank_pretty rearranges_id m
  | many files => exact parse?_recordBatch files

/-- An entry tells the file that it is for. -/
theorem eq_of_isEntry {f g : ParsedFile} {v : Json} (hf : IsEntry f v) (hg : IsEntry g v) :
    f = g := by
  obtain ⟨path, result⟩ := f
  obtain ⟨path', result'⟩ := g
  obtain ⟨hpath, hresult⟩ := hf
  obtain ⟨hpath', hresult'⟩ := hg
  have hsame : path = path' := by simpa [hpath] using hpath'
  subst hsame
  cases result with
  | ok m =>
    obtain ⟨herror, w, hw, hm⟩ := hresult
    cases result' with
    | ok m' =>
      obtain ⟨-, w', hw', hm'⟩ := hresult'
      rw [hw] at hw'
      cases hw'
      rw [hm] at hm'
      cases hm'
      rfl
    | error e =>
      obtain ⟨-, he⟩ := hresult'
      rw [herror] at he
      cases he
  | error e =>
    obtain ⟨hmetadata, he⟩ := hresult
    cases result' with
    | ok m' =>
      obtain ⟨-, w', hw', -⟩ := hresult'
      rw [hmetadata] at hw'
      cases hw'
    | error e' =>
      obtain ⟨-, he'⟩ := hresult'
      rw [he] at he'
      cases he'
      rfl

theorem eq_of_entries {fs gs : List ParsedFile} {vs : List Json} (hf : List.Forall₂ IsEntry fs vs)
    (hg : List.Forall₂ IsEntry gs vs) : fs = gs := by
  induction hf generalizing gs with
  | nil =>
    cases hg
    rfl
  | cons h _ ih =>
    cases hg with
    | cons h' hs => rw [eq_of_isEntry h h', ih hs]

/-- A text that both a report and what is left of it decode from leaves nothing out. -/
theorem stripped_eq_self_of_isReadFrom {p : Reported} {text : String} (h : p.IsReadFrom text)
    (hs : p.stripped.IsReadFrom text) : p.stripped = p := by
  cases p with
  | one m =>
    have hm : (Except.ok (m.mapTexts plain) : Except Json.Failure Metadata) = .ok m :=
      hs.symm.trans h
    rw [stripped, Except.ok.inj hm]
  | many files =>
    obtain ⟨vs, hvs, hfiles⟩ := h
    obtain ⟨ws, hws, hstripped⟩ := hs
    rw [hvs] at hws
    cases hws
    rw [stripped, eq_of_entries hstripped hfiles]

end Reported

/-- What is reported of a path in JSON, if anything is. -/
def reported? (fs : FileSystem) (path : String) : Option Reported :=
  if !fs.hasEntry path then none
  else if fs.isFile path then (metadataOfFile fs path).toOption.map .one
  else some (.many ((javaFiles fs path).map (parsedFile fs)))

/-! ## Writing -/

theorem readText_of_write {fs after : FileSystem} {file text : String}
    (h : fs.write file text.toUTF8 = .ok after) : after.readText file = .ok text := by
  obtain ⟨l, hl, hd, hs, rfl⟩ := FileSystem.write_eq_ok.mp h
  have hne : l ≠ [] := fun e => hd (by rw [e]; rfl)
  have hread : (fs.set l (.file text.toUTF8)).read file = .ok text.toUTF8 :=
    FileSystem.read_eq_ok.mpr
      ⟨l, (FileSystem.sameAccess_set hd hs _).locate_iff.mp hl, FileSystem.at?_set fs _ hne⟩
  have htext : String.fromUTF8? text.toUTF8 = some text := dif_pos text.isValidUTF8
  rw [FileSystem.readText, hread]
  simp only [htext]

/-- The file holds the text, and nothing else went wrong than without it; or nothing could be
written. -/
def Writes (fs : FileSystem) (file text : String) (printed written : Result) : Prop :=
  match fs.write file text.toUTF8 with
  | .ok after => written.files = after ∧ after.readText file = .ok text ∧
      written.problem = printed.problem
  | .error fault => written.files = fs ∧
      written.problem = some ["Failed to write " ++ file, fault.message]

theorem writes_emit (fs : FileSystem) (file report : String) :
    Writes fs file (withoutEscapes report) (emit fs report none) (emit fs report (some file)) := by
  rw [Writes, emit, emit]
  cases h : fs.write file (withoutEscapes report).toUTF8 with
  | ok after => exact ⟨rfl, readText_of_write h, rfl⟩
  | error fault => exact ⟨rfl, rfl⟩

theorem writes_inspectDirectory (fs : FileSystem) (path file : String) :
    Writes fs file (withoutEscapes (reportBatch .json ((javaFiles fs path).map (parsedFile fs))))
      (inspectDirectory fs path .json none) (inspectDirectory fs path .json (some file)) := by
  rw [Writes, inspectDirectory, inspectDirectory, emit, emit]
  dsimp only
  cases h : fs.write file (withoutEscapes
      (reportBatch .json ((javaFiles fs path).map (parsedFile fs)))).toUTF8 with
  | ok after => exact ⟨rfl, readText_of_write h, rfl⟩
  | error fault => exact ⟨rfl, rfl⟩

/-- How a JSON report goes to a file: nothing is written where nothing is printed, and otherwise the
file gets the report without sequences. -/
theorem inspect_some (fs : FileSystem) (path file : String) (compact : Bool) :
    match reported? fs path with
    | none => (inspect fs path .json compact none).output = [] ∧
        inspect fs path .json compact (some file) = inspect fs path .json compact none
    | some p => (inspect fs path .json compact none).output = [p.text compact] ∧
        Writes fs file (withoutEscapes (p.text compact)) (inspect fs path .json compact none)
          (inspect fs path .json compact (some file)) := by
  rw [reported?, inspect, inspect]
  by_cases hentry : (!fs.hasEntry path) = true
  · simp [hentry]
  simp only [hentry]
  by_cases hfile : fs.isFile path = true
  · simp only [hfile, if_true, inspectFile]
    cases metadataOfFile fs path with
    | error problem => exact ⟨rfl, rfl⟩
    | ok m => exact ⟨rfl, writes_emit fs file _⟩
  · simp only [hfile]
    exact ⟨rfl, writes_inspectDirectory fs path file⟩

/-- A file gets the JSON report of what is left of the texts without sequences behind an
introducer. That is what is printed without a file, and decodes to what is reported, exactly if there
is no such sequence in any of the texts. -/
theorem inspect_written (fs : FileSystem) (path file : String) (compact : Bool) :
    let printed := inspect fs path .json compact none
    let written := inspect fs path .json compact (some file)
    match reported? fs path with
    | none => printed.output = [] ∧ written = printed
    | some p =>
      printed.output = [p.text compact] ∧ p.IsReadFrom (p.text compact) ∧
      Writes fs file (p.stripped.text compact) printed written ∧
      p.stripped.IsReadFrom (p.stripped.text compact) ∧
      (p.stripped.text compact = p.text compact ↔ ∀ s ∈ p.texts, IsPlain s) ∧
      (p.IsReadFrom (p.stripped.text compact) ↔ ∀ s ∈ p.texts, IsPlain s) := by
  intro printed written
  have hwritten := inspect_some fs path file compact
  cases hreported : reported? fs path with
  | none =>
    rw [hreported] at hwritten
    exact hwritten
  | some p =>
    rw [hreported] at hwritten
    obtain ⟨hprinted, hwrites⟩ := hwritten
    rw [p.withoutEscapes_text] at hwrites
    have hread := p.isReadFrom_text compact
    have hstripped := p.stripped.isReadFrom_text compact
    refine ⟨hprinted, hread, hwrites, hstripped, ?_, ?_⟩
    · rw [← p.stripped_eq_self_iff]
      constructor
      · intro h
        rw [h] at hstripped
        exact Reported.stripped_eq_self_of_isReadFrom hread hstripped
      · intro h
        rw [h]
    · rw [← p.stripped_eq_self_iff]
      constructor
      · intro h
        exact Reported.stripped_eq_self_of_isReadFrom h hstripped
      · intro h
        rw [h]
        exact hread

/-- A directory whose name begins with a sequence, with a file that is no text. -/
def colouredFiles : FileSystem where
  entries := [(["\u009b31md"], .directory), (["\u009b31md", "A.java"], .file { bytes := ⟨#[0xff]⟩ })]
  workingDirectory := []

theorem javaFiles_coloured : javaFiles colouredFiles "\u009b31md" = ["\u009b31md/A.java"] := by
  have hl : colouredFiles.locate "\u009b31md" = .ok ["\u009b31md"] := by rfl
  exact javaFiles_eq (by decide +kernel) (by decide) hl (by decide +kernel) (by decide +kernel)

/-- A path with a sequence behind an introducer is printed, and is not in the file. -/
theorem sequence_lost :
    ∃ p, reported? colouredFiles "\u009b31md" = some p ∧
      (inspect colouredFiles "\u009b31md" .json false none).output = [p.text false] ∧
      p.IsReadFrom (p.text false) ∧
      ∃ text, (inspect colouredFiles "\u009b31md" .json false (some "out.json")).files.readText
          "out.json" = .ok text ∧ text ≠ p.text false ∧ ¬ p.IsReadFrom text := by
  let p : Reported := .many [parsedFile colouredFiles "\u009b31md/A.java"]
  have hp : reported? colouredFiles "\u009b31md" = some p := by
    have hentry : (!colouredFiles.hasEntry "\u009b31md") = false := by decide +kernel
    have hdir : colouredFiles.isFile "\u009b31md" = false := by decide +kernel
    rw [reported?, hentry, hdir, javaFiles_coloured]
    rfl
  have hlost : ¬ IsPlain "\u009b31md/A.java" := by
    rw [← plain_eq_self_iff]
    decide +kernel
  have hmem : "\u009b31md/A.java" ∈ p.texts := by
    have hpath : (parsedFile colouredFiles "\u009b31md/A.java").path = "\u009b31md/A.java" := by rfl
    simp [p, Reported.texts, ParsedFile.texts, hpath]
  have hno : p.stripped ≠ p := by
    rw [Ne, p.stripped_eq_self_iff]
    exact fun h => hlost (h _ hmem)
  have hprinted := inspect_some colouredFiles "\u009b31md" "out.json" false
  rw [hp] at hprinted
  obtain ⟨houtput, hwrites⟩ := hprinted
  rw [p.withoutEscapes_text, Writes] at hwrites
  obtain ⟨after, hafter⟩ :
      ∃ after, colouredFiles.write "out.json" (p.stripped.text false).toUTF8 = .ok after :=
    ⟨_, rfl⟩
  rw [hafter] at hwrites
  obtain ⟨hfiles, hread, -⟩ := hwrites
  have hstripped := p.stripped.isReadFrom_text false
  refine ⟨p, hp, houtput, p.isReadFrom_text false, p.stripped.text false, hfiles ▸ hread, ?_, ?_⟩
  · intro h
    rw [h] at hstripped
    exact hno (Reported.stripped_eq_self_of_isReadFrom (p.isReadFrom_text false) hstripped)
  · intro h
    exact hno (Reported.stripped_eq_self_of_isReadFrom h hstripped)

end TestConversion.Command
