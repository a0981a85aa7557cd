import TestConversion.Conversion.Language
import TestConversion.Model.Request

/-!
# Settings

What a user has chosen, each choice being optional. A choice in the environment stands above the one
in the settings file, and what is not chosen has a default.

* `withEnvironment_of_none`: an environment without choices changes nothing.
* `merge_empty`: choices that are put over none stay as they are.
-/

namespace TestConversion

open Model Number

structure Settings where
  backend : Option String := none
  /-- The model of whichever backend is in use. -/
  model : Option String := none
  ollamaUrl : Option String := none
  /-- The model of the local server, if no other one is chosen. -/
  ollamaModel : Option String := none
  anthropicKey : Option String := none
  openAiKey : Option String := none
  /-- A single number. -/
  temperature : Option Binary := none
  maxTokens : Option Nat := none
  language : Option String := none
  outputDirectory : Option String := none

/-- What an environment variable holds. -/
abbrev Environment := String → Option String

namespace Settings

/-- The choices with those of `other` above them. -/
def merge (s other : Settings) : Settings where
  backend := other.backend <|> s.backend
  model := other.model <|> s.model
  ollamaUrl := other.ollamaUrl <|> s.ollamaUrl
  ollamaModel := other.ollamaModel <|> s.ollamaModel
  anthropicKey := other.anthropicKey <|> s.anthropicKey
  openAiKey := other.openAiKey <|> s.openAiKey
  temperature := other.temperature <|> s.temperature
  maxTokens := other.maxTokens <|> s.maxTokens
  language := other.language <|> s.language
  outputDirectory := other.outputDirectory <|> s.outputDirectory

/-- The choices with those in the environment above them. -/
def withEnvironment (s : Settings) (environment : Environment) : Settings :=
  { s with
    backend := environment "SELENIPORT_BACKEND" <|> s.backend
    model := environment "SELENIPORT_MODEL" <|> s.model
    ollamaUrl := environment Backend.ollama.environmentName <|> s.ollamaUrl
    anthropicKey := environment Backend.anthropic.environmentName <|> s.anthropicKey
    openAiKey := environment Backend.openAi.environmentName <|> s.openAiKey }

/-- The chosen backend; a name of none counts as no choice. -/
def chosenBackend (s : Settings) : Backend := (s.backend.bind Backend.ofName?).getD .ollama

/-- The chosen language; a name of none counts as no choice. -/
def chosenLanguage (s : Settings) : Language := (s.language.bind Language.ofName?).getD .typeScript

def serverUrl (s : Settings) : String := s.ollamaUrl.getD Backend.ollama.defaultBaseUrl

def serverModel (s : Settings) : String := s.ollamaModel.getD Backend.ollama.defaultModel

/-- The key of a backend. -/
def key (s : Settings) : Backend → Option String
  | .ollama => none
  | .anthropic => s.anthropicKey
  | .openAi => s.openAiKey

def outputPath (s : Settings) : String := s.outputDirectory.getD "output"

/-- How a backend is asked. -/
def modelConfig (s : Settings) (b : Backend) : Config :=
  let defaults : Config := {}
  { backend := b
    model := if b = .ollama then some (s.model.getD s.serverModel) else s.model
    baseUrl := if b = .ollama then some s.serverUrl else none
    maxTokens := s.maxTokens.getD defaults.maxTokens
    temperature := s.temperature.getD defaults.temperature }

/-! ## Laws -/

theorem withEnvironment_of_none (s : Settings) {environment : Environment}
    (h : ∀ name, environment name = none) : s.withEnvironment environment = s := by
  simp [withEnvironment, h]

theorem merge_empty (s : Settings) : ({} : Settings).merge s = s := by
  simp [merge]

end Settings

/-! ## Keys on display -/

/-- How many characters of a key are shown. -/
def shownLength : Nat := 4

/-- The last characters of a key, if it has more than these. -/
def maskKey (key : String) : String :=
  let cs := key.toList
  if cs.length ≤ shownLength then "****"
  else "****" ++ String.ofList (cs.drop (cs.length - shownLength))

end TestConversion
