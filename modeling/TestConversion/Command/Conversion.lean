import TestConversion.Command.Basic
import TestConversion.Command.Inspection
import TestConversion.Settings.Document

/-!
# Converting files

What is asked for on the command line stands above the settings. A dry run shows what a model would
be asked and changes nothing. Otherwise a client is connected before the first file is read, and a
directory is converted file by file, with one line for each.

* `files_dryRunAll`: a dry run leaves all files as they are.
-/

namespace TestConversion

open Files Model

namespace Command

/-! ## Dry runs -/

/-- What is shown for files, and how many of them have no metadata. A file that cannot be read ends
the run. -/
structure Preview where
  shown : List String
  failed : Nat
  broken : Option (List String)

def previewFiles (fs : FileSystem) (language : Language) : List String → Preview
  | [] => ⟨[], 0, none⟩
  | path :: paths =>
    match fs.readText path with
    | .error fault => ⟨[], 0, some (FileProblem.unreadable path fault).chain⟩
    | .ok source =>
      let rest := previewFiles fs language paths
      match dryRun source path language with
      | .ok (_, prompt) =>
        { rest with
          shown := ("==> " ++ path ++ " -> " ++ outputName path language) :: prompt :: rest.shown }
      | .error e =>
        { rest with shown := ("✗ " ++ path ++ ": " ++ e.display) :: rest.shown, failed := rest.failed + 1 }

/-- Shows the prompts for a file or for all files of a directory. -/
def dryRunAll (fs : FileSystem) (path : String) (language : Language) : Result :=
  let paths := javaFiles fs path
  let p := previewFiles fs language paths
  { files := fs, output := p.shown
    problem := p.broken <|> failures p.failed paths.length "parse" }

/-! ## Conversions -/

def entryLine (e : BatchEntry) : String :=
  match e.result with
  | .ok outcome => "  ✓ " ++ e.input ++ " -> " ++ outcome.outputFile
  | .error error => "  ✗ " ++ e.input ++ ": " ++ error.message

def failedEntries (entries : List BatchEntry) : Nat :=
  entries.countP fun e => !e.result.isOk

/-- What a batch of conversions comes to. -/
def batchResult (fs : FileSystem) (entries : List BatchEntry) : Result :=
  let failed := failedEntries entries
  { files := fs
    output := ("Found " ++ toString entries.length ++ " Java files") :: entries.map entryLine ++
      ["\n" ++ toString (entries.length - failed) ++ " converted, " ++ toString failed ++ " failed"]
    problem := failures failed entries.length "convert" }

variable {m : Type → Type} [Monad m]

/-- Converts a file or a directory. -/
def convertWith (c : Converter m) (fs : FileSystem) (path : String) : m Result := do
  if fs.isFile path then
    let heading := "Converting: " ++ path
    match ← c.convertFile path fs with
    | (.ok outcome, fs) =>
      return { files := fs, output := [heading, "✓ Success! Output: " ++ outcome.outputFile] }
    | (.error e, fs) =>
      return { files := fs, output := [heading], problem := some [e.message, e.cause] }
  else
    match ← c.convertPath path fs with
    | (.ok entries, fs) => return batchResult fs entries
    | (.error e, fs) => return { files := fs, problem := some [e.message, e.cause] }

/-! ## Laws -/

theorem files_dryRunAll (fs : FileSystem) (path : String) (language : Language) :
    (dryRunAll fs path language).files = fs := rfl

end Command

namespace ConvertRequest

variable {m : Type → Type} [Monad m]

/-- The language of a conversion: the one asked for, or that of the settings. -/
def chosenLanguage (r : ConvertRequest) (s : Settings) : Language :=
  r.language.getD s.chosenLanguage

/-- The backend of a conversion: the one asked for, or that of the settings. -/
def chosenBackend (r : ConvertRequest) (s : Settings) : Except Failure Backend :=
  match r.backend with
  | some name => Backend.ofName name
  | none => .ok s.chosenBackend

/-- The client of a conversion. -/
def client (r : ConvertRequest) (s : Settings) (environment : Environment) :
    Except Failure Client := do
  let backend ← r.chosenBackend s
  let config := s.modelConfig backend
  connect { config with model := r.model <|> config.model } (s.key backend) environment

/-- Carries the conversion out. -/
def run (send : Transport m) (environment : Environment) (fs : FileSystem)
    (r : ConvertRequest) : m Command.Result :=
  let s := Settings.load fs environment
  let language := r.chosenLanguage s
  if !fs.hasEntry r.path then return { files := fs, problem := some [notAnInput r.path] }
  else if r.dryRun then return Command.dryRunAll fs r.path language
  else
    match r.client s environment with
    | .error f => return { files := fs, problem := some [f.message] }
    | .ok client =>
      let c : Converter m :=
        { generator := modelGenerator send client, language
          outputDirectory := r.output.getD s.outputPath }
      Command.convertWith c fs r.path

end ConvertRequest

end TestConversion
