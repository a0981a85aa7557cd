import TestConversion.Proofs.Command.Requests

/-!
# Keys of hosted backends

A hosted backend is asked with a key: with the one that is given, if it is not empty, and otherwise
with the one in the environment. A key in the environment may be empty, though, and then it is sent
empty.

* `connect_eq`: the client that is connected, or the failure.
* `keys_of_requests`: with which keys clients are connected and commands send requests.
* `connect_empty`: a client that has an empty key.
-/

namespace TestConversion

open Files Model

/-! ## Connecting -/

/-- A client with the key that is given, or else with the one in the environment, where an empty key
counts as none. -/
def Model.connectPromised (c : Config) (key : Option String) (environment : Environment) :
    Except Failure Client :=
  match (key.filter (· ≠ "")).or ((environment c.backend.environmentName).filter (· ≠ "")) with
  | some k => .ok ⟨c, k⟩
  | none => .error (.missingKey c.backend)

theorem Model.key_of_connectPromised {c : Config} {key : Option String} {environment : Environment}
    {client : Client} (h : connectPromised c key environment = .ok client) : client.key ≠ "" := by
  have hfilter : ∀ o : Option String, ∀ k ∈ o.filter (· ≠ ""), k ≠ "" := by
    intro o k hk
    simpa using (Option.mem_filter_iff.mp hk).2
  unfold connectPromised at h
  split at h
  · rename_i k hk
    cases h
    rcases Option.or_eq_some_iff.mp hk with hk | ⟨-, hk⟩
    · exact hfilter _ _ hk
    · exact hfilter _ _ hk
  · cases h

/-- A client is connected as promised, unless no key is given and the one in the environment is
empty. -/
theorem Model.connect_eq {c : Config} (hc : c.backend.needsKey = true) (key : Option String)
    (environment : Environment) :
    connect c key environment =
      if key.getD "" = "" ∧ environment c.backend.environmentName = some "" then .ok ⟨c, ""⟩
      else connectPromised c key environment := by
  have hempty : key.getD "" = "" ↔ key.filter (· ≠ "") = none := by
    cases key <;> simp
  simp only [connect, connectPromised, hc, hempty]
  cases key.filter (· ≠ "") with
  | some k => simp
  | none =>
    cases environment c.backend.environmentName with
    | none => simp
    | some k => by_cases hk : k = "" <;> simp [hk, Option.filter]

/-! ## Requests -/

/-- The key that a request shows to a server. -/
def Model.Request.key? (q : Request) : Option String :=
  q.headers.lookup "x-api-key" <|>
    (q.headers.lookup "authorization").map fun v =>
      String.ofList (v.toList.drop "Bearer ".length)

theorem Model.key?_request (c : Config) (key : String) (messages : List Message)
    (system : Option String) :
    (c.request key messages system).key? = if c.backend.needsKey then some key else none := by
  unfold Config.request
  cases c.backend with
  | ollama => rfl
  | anthropic => rfl
  | openAi =>
    have hlength : "Bearer ".length = 7 := rfl
    simp [Backend.speaksChat, Backend.needsKey, Request.key?, List.lookup_cons, hlength]

/-- Where a request goes, and with which key: to the local server without one, or to a hosted
backend with one, which is empty exactly if it is empty in the environment. -/
inductive GoesOut (environment : Environment) (s : Settings) (q : Request) : Prop where
  | «local» (hurl : ∃ path, q.url = onBase s.serverUrl path) (hkey : q.key? = none)
  | hosted (b : Backend) (k : String) (hb : b.needsKey = true) (hurl : q.url = b.defaultEndpoint)
      (hkey : q.key? = some k) (hempty : k = "" ↔ environment b.environmentName = some "")

variable {environment : Environment} {fs : FileSystem}

/-- The key of a connected client is empty exactly if it is empty in the environment. -/
theorem key_eq_empty {c : Config} {client : Client} (hc : c.backend.needsKey = true)
    (h : connect c ((Settings.load fs environment).key c.backend) environment = .ok client) :
    client.key = "" ↔ environment c.backend.environmentName = some "" := by
  rw [connect_eq hc] at h
  split at h
  · rename_i hempty
    cases h
    simp [hempty.2]
  · rename_i hempty
    have hne := key_of_connectPromised h
    refine ⟨fun hkey => absurd hkey hne, fun henv => ?_⟩
    exact absurd ⟨by rw [key_load hc henv]; rfl, henv⟩ hempty

theorem Model.url_request (c : Config) (key : String) (messages : List Message)
    (system : Option String) : (c.request key messages system).url = c.endpoint := by
  unfold Config.request
  split <;> rfl

theorem endpoint_modelConfig (s : Settings) (b : Backend) :
    (s.modelConfig b).endpoint =
      if b.needsKey then b.defaultEndpoint else onBase s.serverUrl b.requestPath := by
  cases b <;> rfl

theorem goesOut_of_isAsked {r : ConvertRequest} {client : Client}
    (h : r.client (Settings.load fs environment) environment = .ok client) {q : Request}
    (hq : client.IsAsked q) : GoesOut environment (Settings.load fs environment) q := by
  obtain ⟨b, -, hconfig, hconnect⟩ := ConvertRequest.client_eq_ok h
  obtain ⟨source, metadata, language, rfl⟩ := hq
  have hbackend : client.config.backend = b := by rw [hconfig]; rfl
  have hendpoint : client.config.endpoint =
      if b.needsKey then b.defaultEndpoint
      else onBase (Settings.load fs environment).serverUrl b.requestPath := by
    rw [hconfig]
    exact endpoint_modelConfig _ b
  have hkey := key?_request client.config client.key (conversation source metadata language)
    (some systemPrompt)
  rw [← url_request client.config client.key] at hendpoint
  rw [hbackend] at hkey
  cases hb : b.needsKey with
  | true =>
    rw [hb, if_pos rfl] at hkey hendpoint
    rw [← hbackend] at hb hconnect
    have hempty := key_eq_empty hb hconnect
    rw [hbackend] at hb hempty
    exact .hosted b client.key hb hendpoint hkey hempty
  | false =>
    rw [hb] at hkey hendpoint
    exact .local ⟨_, hendpoint⟩ hkey

theorem goesOut_of_maySend {command : Command} {q : Request}
    (h : command.MaySend environment fs q) :
    GoesOut environment (Settings.load fs environment) q := by
  cases command with
  | convert r =>
    obtain ⟨client, hclient, hq⟩ := h
    exact goesOut_of_isAsked hclient hq
  | doctor =>
    rw [Command.MaySend] at h
    rw [h]
    exact .local ⟨_, rfl⟩ rfl
  | _ => cases h

/-- A hosted backend is connected with a key that is not empty, or not at all, and a request to one
shows such a key. The one exception on both levels is a key that is empty in the environment: it
counts as a key unless a client is connected with another one, and requests of the commands show it
even if the settings file has a better one. -/
theorem keys_of_requests (c : Config) (hc : c.backend.needsKey = true) (key : Option String)
    (environment : Environment) :
    (connect c key environment =
      if key.getD "" = "" ∧ environment c.backend.environmentName = some "" then .ok ⟨c, ""⟩
      else connectPromised c key environment) ∧
    (∀ client, connectPromised c key environment = .ok client → client.key ≠ "") ∧
    ∀ (answer : List Request → Except String Reply) (fs : FileSystem) (command : Command),
      Sends (GoesOut environment (Settings.load fs environment))
        (command.run (recording answer) environment fs) :=
  ⟨connect_eq hc key environment, fun _ h => key_of_connectPromised h,
    fun answer fs command => (Command.sends_run answer environment fs command).mono
      fun _ => goesOut_of_maySend⟩

theorem keys_of_requests_hosted :
    Config.backend { backend := .openAi } = .openAi ∧ Backend.needsKey .openAi = true ∧
      connect { backend := .openAi } (some "k") (fun _ => none) =
        .ok ⟨{ backend := .openAi }, "k"⟩ := by
  refine ⟨rfl, rfl, ?_⟩
  rw [(keys_of_requests { backend := .openAi } rfl (some "k") fun _ => none).1]
  rfl

/-- An environment in which a key is empty. -/
def emptyVariable : Environment := fun name => if name = "OPENAI_API_KEY" then some "" else none

/-- A client that has an empty key, where there should be none. -/
theorem connect_empty :
    connect { backend := .openAi } none emptyVariable = .ok ⟨{ backend := .openAi }, ""⟩ ∧
      connectPromised { backend := .openAi } none emptyVariable = .error (.missingKey .openAi) :=
  ⟨rfl, rfl⟩

end TestConversion
