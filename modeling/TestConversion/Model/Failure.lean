import TestConversion.Model.Backend

/-!
# Why there is no answer from a model
-/

namespace TestConversion.Model

inductive Failure where
  /-- A backend needs a key and has none. -/
  | missingKey (backend : Backend)
  /-- The server answers with the status of an error. -/
  | refused (status : Nat) (body : String)
  /-- The request does not get to a server. -/
  | undelivered (reason : String)
  /-- The answer is not of the form that the backend promises. -/
  | malformed (reason : String)
  /-- A chat completion without choices. -/
  | noChoice
  /-- A message without a block of text. -/
  | noText
  /-- The answer holds no code. -/
  | noCode
  /-- Something else is wrong with the answer. -/
  | unusable (reason : String)
  /-- A name of no backend. -/
  | unknownBackend (name : String)
  deriving DecidableEq

namespace Failure

/-- What is said of an answer that cannot be used. -/
def complaint : Failure → Option String
  | malformed reason => some reason
  | noChoice => some "No response choices"
  | noText => some "No text content in response"
  | noCode => some "model returned no code"
  | unusable reason => some reason
  | _ => none

def refusal (status : Nat) (text : String) : String :=
  "API error: " ++ toString status ++ " - " ++ text

def unreadable (reason : String) : String := "Failed to parse API response: " ++ reason

def message (f : Failure) : String :=
  match f with
  | missingKey b =>
    "Missing API key: " ++ b.environmentName ++ " not set. Get your key at " ++ b.signupUrl
  | refused status body => refusal status body
  | undelivered reason => refusal 0 reason
  | unknownBackend name =>
    "Invalid configuration: unknown backend '" ++ name ++
      "' (expected ollama, anthropic or openai)"
  | f => unreadable (f.complaint.getD "")

end Failure

/-- The backend of a name, or what is wrong with it. -/
def Backend.ofName (name : String) : Except Failure Backend :=
  match ofName? name with
  | some b => .ok b
  | none => .error (.unknownBackend (normalize name))

end TestConversion.Model
