import TestConversion.Files.FileSystem
import TestConversion.Settings.Basic
import TestConversion.Toml.Reader

/-!
# The settings file

The file has a table for the model and one for conversions, each of which may be missing. What is
not known in it does not matter. If a value is not of its kind, or if the file cannot be read, no
choice in it counts.
-/

namespace TestConversion

open Number Toml

namespace Settings

/-! ## Values -/

/-- The values of the fields of a table. A list gives the fields in their order, and a date none. -/
def fieldsOf (names : List String) : Value → Option (List (Option Value))
  | .closed ms => some (names.map (Members.get? ms))
  | .table _ ms => some (names.map (Members.get? ms))
  | .moment => some (names.map fun _ => none)
  | .list vs => if names.length ≤ vs.length then some ((vs.take names.length).map some) else none
  | .tables es =>
    if names.length ≤ es.length then
      some ((es.take names.length).map fun e => some (.table .header e))
    else none
  | _ => none

/-- The value of a choice, if there is one; no value is none of its kind. -/
def choice {α : Type} (kind : Value → Option α) : Option Value → Option (Option α)
  | none => some none
  | some v => (kind v).map some

def text : Value → Option String
  | .text s => some s
  | _ => none

/-- The nearest single number. -/
def temperatureOf : Value → Option Binary
  | .number x => some (single.narrow x)
  | .integer n => some (single.narrow (.finite (n < 0) n.natAbs 0))
  | _ => none

/-- What a natural number of 32 bits is below. -/
def countLimit : Int := 4294967296

/-- A natural number of 32 bits. -/
def count : Value → Option Nat
  | .integer n => if 0 ≤ n && n < countLimit then some n.toNat else none
  | _ => none

/-! ## Tables -/

def modelFields : List String := [
  "backend", "model", "ollama_url", "ollama_model", "anthropic_api_key", "openai_api_key",
  "temperature", "max_tokens"]

def conversionFields : List String := ["language", "output_dir"]

/-- The choices about the model. -/
def withModelTable (s : Settings) (v : Value) : Option Settings :=
  match fieldsOf modelFields v with
  | some [backend, model, url, serverModel, anthropic, openAi, temperature, tokens] => do
    return { s with
      backend := ← choice text backend
      model := ← choice text model
      ollamaUrl := ← choice text url
      ollamaModel := ← choice text serverModel
      anthropicKey := ← choice text anthropic
      openAiKey := ← choice text openAi
      temperature := ← choice temperatureOf temperature
      maxTokens := ← choice count tokens }
  | _ => none

/-- The choices about conversions. -/
def withConversionTable (s : Settings) (v : Value) : Option Settings :=
  match fieldsOf conversionFields v with
  | some [language, directory] => do
    return { s with
      language := ← choice text language
      outputDirectory := ← choice text directory }
  | _ => none

def withTable (change : Settings → Value → Option Settings) (s : Settings) :
    Option Value → Option Settings
  | none => some s
  | some v => change s v

/-- The choices in a document. -/
def ofDocument? (ms : Members) : Option Settings :=
  (withTable withModelTable {} (Members.get? ms "ai")).bind fun s =>
    withTable withConversionTable s (Members.get? ms "convert")

/-- The choices in the text of a settings file, put over none. -/
def ofText (document : String) : Settings :=
  match (parse document).bind ofDocument? with
  | some s => ({} : Settings).merge s
  | none => {}

/-! ## The file -/

/-- The choices in a file. -/
def ofFile (fs : Files.FileSystem) (path : String) : Settings :=
  match fs.readText path with
  | .ok document => ofText document
  | .error _ => {}

/-- The directory for the settings of programs. -/
def configDirectory (environment : Environment) : Option String :=
  match (environment "XDG_CONFIG_HOME").filter Files.isAbsolute with
  | some directory => some directory
  | none => ((environment "HOME").filter (· ≠ "")).map fun home => Files.join home ".config"

/-- Where the settings file is. -/
def filePath (environment : Environment) : Option String :=
  (configDirectory environment).map fun d => Files.join (Files.join d "seleniport") "config.toml"

/-- The choices in the file and in the environment. -/
def load (fs : Files.FileSystem) (environment : Environment) : Settings :=
  let stored := ((filePath environment).map (ofFile fs)).getD {}
  stored.withEnvironment environment

end Settings

end TestConversion
