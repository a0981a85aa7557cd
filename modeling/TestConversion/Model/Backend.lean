import TestConversion.Text.Blank
import TestConversion.Text.Case

/-!
# Backends

The services that language models are asked through: a server of one's own, or one of two hosted
services that need a key.

* `ofName?_name`: a backend is found by its name.
-/

namespace TestConversion.Model

open Text

inductive Backend where
  | ollama
  | anthropic
  | openAi
  deriving DecidableEq

namespace Backend

def name : Backend → String
  | ollama => "ollama"
  | anthropic => "anthropic"
  | openAi => "openai"

/-- The environment variable with the address of the server or with the key. -/
def environmentName : Backend → String
  | ollama => "OLLAMA_HOST"
  | anthropic => "ANTHROPIC_API_KEY"
  | openAi => "OPENAI_API_KEY"

/-- Where a key is to be had. -/
def signupUrl : Backend → String
  | ollama => "https://ollama.ai (no key needed, just run locally)"
  | anthropic => "https://console.anthropic.com/settings/keys"
  | openAi => "https://platform.openai.com/api-keys"

def defaultModel : Backend → String
  | ollama => "codellama"
  | anthropic => "claude-sonnet-4-20250514"
  | openAi => "gpt-4o"

/-- The path of requests on a server of the backend. -/
def requestPath : Backend → String
  | anthropic => "/v1/messages"
  | _ => "/v1/chat/completions"

def defaultBaseUrl : Backend → String
  | ollama => "http://localhost:11434"
  | anthropic => "https://api.anthropic.com"
  | openAi => "https://api.openai.com"

def defaultEndpoint (b : Backend) : String := b.defaultBaseUrl ++ b.requestPath

/-- Requests are chat completions, with system texts as messages of their own. -/
def speaksChat : Backend → Bool
  | anthropic => false
  | _ => true

def needsKey : Backend → Bool
  | ollama => false
  | _ => true

/-- The form in which names of backends are compared. -/
def normalize (name : String) : String := toLower (trimBlanks name)

/-- The backend of a name, in any case and with blanks around it. -/
def ofName? (name : String) : Option Backend :=
  let n := normalize name
  if n == "ollama" then some ollama
  else if n == "anthropic" || n == "claude" then some anthropic
  else if n == "openai" || n == "gpt" then some openAi
  else none

theorem ofName?_name (b : Backend) : ofName? b.name = some b := by
  cases b <;> decide +kernel

end Backend

end TestConversion.Model
