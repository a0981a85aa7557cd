import TestConversion.Json.Printer
import TestConversion.Model.Backend
import TestConversion.Number.Shortest

/-!
# Requests to a model

A conversation becomes one request over HTTP. Both protocols carry the messages in their order. A
chat completion has the system text as its first message; the other protocol has a field for it, and
no messages of the system.
-/

namespace TestConversion.Model

open Number

inductive Role where
  | system
  | user
  | assistant
  deriving DecidableEq

def Role.name : Role → String
  | system => "system"
  | user => "user"
  | assistant => "assistant"

structure Message where
  role : Role
  content : String
  deriving DecidableEq

/-- One tenth as a single number. -/
def defaultTemperature : Binary := (Decimal.mk false 1 (-1)).toBinary single

/-- How a backend is asked. -/
structure Config where
  backend : Backend := .ollama
  model : Option String := none
  baseUrl : Option String := none
  maxTokens : Nat := 2048
  /-- A single number. -/
  temperature : Binary := defaultTemperature

namespace Config

def modelName (c : Config) : String := c.model.getD c.backend.defaultModel

end Config

/-- A base address without slashes at its end, and a path on it. -/
def onBase (base path : String) : String :=
  String.ofList (base.toList.reverse.dropWhile (· == '/')).reverse ++ path

namespace Config

/-- The address that requests go to. -/
def endpoint (c : Config) : String :=
  match c.baseUrl with
  | some base => onBase base c.backend.requestPath
  | none => c.backend.defaultEndpoint

end Config

inductive Verb where
  | get
  | post
  deriving DecidableEq

def Verb.name : Verb → String
  | get => "GET"
  | post => "POST"

structure Request where
  verb : Verb
  url : String
  headers : List (String × String)
  body : Option Json

namespace Request

def bodyText (r : Request) : String := (r.body.map Json.compact).getD ""

/-- No header may hold a control character other than a tab. -/
def isHeaderText (s : String) : Bool :=
  s.toList.all fun c => c == '\t' || (0x20 ≤ c.toNat && c.toNat != 0x7F)

def isSendable (r : Request) : Bool := r.headers.all fun h => isHeaderText h.2

end Request

def Message.toJson (m : Message) : Json :=
  .object [("role", .string m.role.name), ("content", .string m.content)]

/-- The shortest numeral; what is not finite has none. -/
def numeral (b : Binary) : Json :=
  match recordNumeral? b with
  | some t => .number t
  | none => .null

/-- The body of a chat completion. -/
def chatBody (c : Config) (messages : List Message) (system : Option String) : Json :=
  let all := (system.map (Message.mk .system)).toList ++ messages
  .object [("model", .string c.modelName), ("messages", .array (all.map Message.toJson)),
    ("max_tokens", .ofNat c.maxTokens), ("temperature", numeral c.temperature)]

/-- The body of a request with a system field. -/
def messagesBody (c : Config) (messages : List Message) (system : Option String) : Json :=
  let spoken := messages.filter fun m => m.role != .system
  .object ([("model", .string c.modelName), ("max_tokens", .ofNat c.maxTokens),
    ("messages", .array (spoken.map Message.toJson))] ++
    (system.map fun s => ("system", Json.string s)).toList ++
    [("temperature", numeral c.temperature)])

/-- The request that carries a conversation. -/
def Config.request (c : Config) (key : String) (messages : List Message)
    (system : Option String) : Request :=
  let contentType := ("content-type", "application/json")
  if c.backend.speaksChat then
    { verb := .post
      url := c.endpoint
      headers := contentType ::
        (if c.backend.needsKey then [("authorization", "Bearer " ++ key)] else [])
      body := some (chatBody c messages system) }
  else
    { verb := .post
      url := c.endpoint
      headers := [contentType, ("x-api-key", key), ("anthropic-version", "2023-06-01")]
      body := some (messagesBody c messages system) }

/-- The request that tells whether a server is there. -/
def probe (base : String) : Request := ⟨.get, onBase base "/api/tags", [], none⟩

end TestConversion.Model
