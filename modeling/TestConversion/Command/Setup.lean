import TestConversion.Command.Result
import TestConversion.Metadata.File
import TestConversion.Model.Client
import TestConversion.Settings.Document

/-!
# Settings and checks

The settings can be shown, a settings file to start from can be written, and it can be checked
whether conversions can work: whether sources are understood, and whether the backend can be used.

* `files_presentSettings`: showing the settings changes no file.
-/

namespace TestConversion.Command

open Files Model

/-! ## The settings file -/

/-- The lines of a settings file in which every choice is a comment. -/
def exampleLines : List String := [
  "# Seleniport User Configuration",
  "",
  "[ai]",
  "# Backend: \"ollama\" (free, local), \"anthropic\" or \"openai\" (need API key)",
  "# backend = \"ollama\"",
  "",
  "# For Ollama backend (free, runs locally)",
  "# ollama_url = \"http://localhost:11434\"",
  "# ollama_model = \"codellama\"  # or \"deepseek-coder\", \"qwen2.5-coder\", etc.",
  "",
  "# Model for whichever backend is active (overrides ollama_model)",
  "# model = \"claude-sonnet-4-20250514\"",
  "# anthropic_api_key = \"sk-ant-...\"",
  "# openai_api_key = \"sk-...\"",
  "",
  "# temperature = 0.1",
  "# max_tokens = 2048",
  "",
  "[convert]",
  "# language = \"typescript\"  # or \"javascript\"",
  "# output_dir = \"output\""]

def exampleSettings : String := lines exampleLines

/-- Creates the settings file with the directories above it, unless it is there. -/
def writeExample (fs : FileSystem) (path : String) : FileSystem × Option Fault :=
  match fs.createDirectories (ofComponents (components path).dropLast) with
  | (fs, some fault) => (fs, some fault)
  | (fs, none) =>
    if fs.hasEntry path then (fs, none)
    else
      match fs.write path exampleSettings.toUTF8 with
      | .ok fs => (fs, none)
      | .error fault => (fs, some fault)

def writeSettings (environment : Environment) (fs : FileSystem) : Result :=
  match Settings.filePath environment with
  | none => { files := fs, problem := some ["Could not determine config directory"] }
  | some path =>
    match writeExample fs path with
    | (fs, some fault) => { files := fs, problem := some [fault.message] }
    | (fs, none) =>
      { files := fs
        output := [
          "✅ Config initialized at: " ++ path,
          "\nEdit to pick a backend or add an API key:",
          "  " ++ path,
          "\nOr set via environment:",
          "  export SELENIPORT_BACKEND=anthropic",
          "  export ANTHROPIC_API_KEY=\"sk-ant-...\""] }

/-! ## The settings -/

def keyLine (s : Settings) (b : Backend) : String :=
  "  " ++ b.environmentName ++ ": " ++
    match s.key b with
    | some key => "✓ " ++ maskKey key
    | none => "✗ not set"

def settingsLines (s : Settings) : List String :=
  let backend := s.chosenBackend
  let config := s.modelConfig backend
  [ "🤖 AI Backend: " ++ backend.name,
    "  Model:       " ++ config.modelName,
    "  Endpoint:    " ++ config.endpoint,
    "  Temperature: " ++ Number.plainNumeral config.temperature,
    "  Max tokens:  " ++ toString config.maxTokens ] ++
  (if backend.needsKey then [keyLine s backend] else []) ++
  [ "",
    "📝 Conversion:",
    "  Language:   " ++ s.chosenLanguage.name,
    "  Output dir: " ++ s.outputPath ]

def presentSettings (environment : Environment) (fs : FileSystem) : Result :=
  let place := (Settings.filePath environment).map fun path =>
    "  User: " ++ path ++ " " ++ if fs.hasEntry path then "✓" else "(not found)"
  { files := fs
    output := "📁 Config path:" :: place.toList ++ "" :: settingsLines (Settings.load fs environment) }

/-! ## Checks -/

/-- The outcome of a check: whether all is well, and what to print. -/
structure Finding where
  good : Bool
  lines : List String

/-- A source with one call. -/
def sampleSource : String :=
  "import org.openqa.selenium.By;\nclass Check \x7b void m() \x7b a.b(); \x7d \x7d"

def grammarFinding : Finding :=
  match metadataOf sampleSource "" with
  | .ok m =>
    if m.callCount = 1 then ⟨true, ["✓ Java grammar: OK"]⟩
    else ⟨false, ["✗ Java grammar: loaded, but extraction returned unexpected results"]⟩
  | .error e => ⟨false, ["✗ Java grammar: " ++ e.display]⟩

def serverFinding (url model : String) (reachable : Bool) : Finding :=
  if reachable then ⟨true, ["✓ Ollama: reachable at " ++ url ++ " (model " ++ model ++ ")"]⟩
  else ⟨false, [
    "✗ Ollama: not reachable at " ++ url,
    "  Start it with `ollama serve` and `ollama pull " ++ model ++ "`",
    "  or set SELENIPORT_BACKEND=anthropic|openai with an API key"]⟩

def keyFinding (s : Settings) (b : Backend) : Finding :=
  if (s.key b).isSome then ⟨true, ["✓ " ++ b.name ++ ": API key configured"]⟩
  else ⟨false, [
    "✗ " ++ b.name ++ ": " ++ b.environmentName ++ " not set",
    "  Get a key at " ++ b.signupUrl]⟩

variable {m : Type → Type} [Monad m]

/-- Whether the chosen backend can be used. -/
def backendFinding (send : Transport m) (s : Settings) : m Finding :=
  match s.chosenBackend with
  | .ollama => serverFinding s.serverUrl s.serverModel <$> isReachable send s.serverUrl
  | b => pure (keyFinding s b)

def examine (send : Transport m) (environment : Environment) (fs : FileSystem) : m Result := do
  let grammar := grammarFinding
  let backend ← backendFinding send (Settings.load fs environment)
  let found := "🩺 Seleniport Doctor\n" :: grammar.lines ++ backend.lines
  if grammar.good && backend.good then
    return { files := fs, output := found ++ ["\n✅ All checks passed!"] }
  else
    return {
      files := fs
      output := found ++
        ["\n⚠️  Some checks failed; `parse` still works, `convert` needs a backend."]
      problem := some ["doctor found problems"] }

/-! ## Laws -/

theorem files_presentSettings (environment : Environment) (fs : FileSystem) :
    (presentSettings environment fs).files = fs := rfl

end TestConversion.Command
