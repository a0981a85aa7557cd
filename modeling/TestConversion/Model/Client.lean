import TestConversion.Model.Reply
import TestConversion.Model.Request

/-!
# Asking a model

A client has a configuration and a key. It sends one request for a conversation over whatever
carries requests, and reads the reply.

* `connect_eq_error_iff`: connecting fails exactly where a key is needed, none is given and the
  environment has none.
-/

namespace TestConversion.Model

structure Client where
  config : Config
  key : String

/-- Carries a request to a server; without a reply there is a reason for it. -/
abbrev Transport (m : Type → Type) := Request → m (Except String Reply)

/-- The key of a backend that needs none. -/
def placeholderKey : String := "ollama"

/-- A client with the given key, if it is not empty, or with the key in the environment. -/
def connect (c : Config) (key : Option String) (environment : String → Option String) :
    Except Failure Client :=
  if !c.backend.needsKey then .ok ⟨c, placeholderKey⟩
  else
    match key.filter (· ≠ "") with
    | some k => .ok ⟨c, k⟩
    | none =>
      match environment c.backend.environmentName with
      | some k => .ok ⟨c, k⟩
      | none => .error (.missingKey c.backend)

namespace Client

def backend (c : Client) : Backend := c.config.backend

def modelName (c : Client) : String := c.config.modelName

/-- The answer that comes of a delivery. -/
def answerOf (c : Client) : Except String Reply → Except Failure String
  | .error reason => .error (.undelivered reason)
  | .ok reply => reply.answer c.backend

/-- Asks for the next message of a conversation. -/
def generate {m : Type → Type} [Monad m] (send : Transport m) (c : Client)
    (messages : List Message) (system : Option String) : m (Except Failure String) :=
  let request := c.config.request c.key messages system
  if request.isSendable then c.answerOf <$> send request
  else pure (.error (.undelivered "http: failed to parse header value"))

end Client

/-- Whether a server answers at an address. -/
def isReachable {m : Type → Type} [Monad m] (send : Transport m) (base : String) : m Bool := do
  match ← send (probe base) with
  | .ok reply => return reply.isSuccess
  | .error _ => return false

/-! ## Laws -/

theorem connect_eq_error_iff {c : Config} {key : Option String}
    {environment : String → Option String} {f : Failure} :
    connect c key environment = .error f ↔
      c.backend.needsKey = true ∧ key.filter (· ≠ "") = none ∧
        environment c.backend.environmentName = none ∧ f = .missingKey c.backend := by
  unfold connect
  cases c.backend.needsKey with
  | false => simp
  | true =>
    simp only [Bool.not_true, Bool.false_eq_true, if_false, true_and]
    cases key.filter (· ≠ "") with
    | some k => simp
    | none =>
      cases environment c.backend.environmentName with
      | some k => simp
      | none => simp [eq_comm]

end TestConversion.Model
