import TestConversion.Command.Run
import TestConversion.Proofs.Model.Recording

/-!
# The requests of a command

A conversion asks the connected client about each source, and sends nothing else. A check asks
whether the local server is there. No other command sends anything.

* `Converter.Asks.convertWith`: a conversion sends what its generator sends.
* `Command.sends_run`: what a command sends.
-/

namespace TestConversion

open Files Model

variable {P : Request → Prop}

/-! ## Conversions -/

namespace Converter

variable {c : Converter Recorded}

/-- All that the generator of the converter sends is such. -/
def Asks (P : Request → Prop) (c : Converter Recorded) : Prop :=
  ∀ source metadata language, Sends P (c.generator source metadata language)

theorem Asks.convertFile (h : c.Asks P) (path : String) (fs : FileSystem) :
    Sends P (c.convertFile path fs) := by
  unfold Converter.convertFile
  split
  · exact sends_pure _
  · unfold convert
    split
    · exact sends_pure _
    · refine (h _ _ _).bind fun answer => ?_
      cases answer <;> exact sends_pure _

theorem Asks.convertAll (h : c.Asks P) (paths : List String) (fs : FileSystem) :
    Sends P (c.convertAll paths fs) := by
  induction paths generalizing fs with
  | nil => exact sends_pure _
  | cons path paths ih =>
    change Sends P (c.convertFile path fs >>= fun r => c.convertAll paths r.2 >>= fun rs =>
      pure (⟨path, r.1⟩ :: rs.1, rs.2))
    exact (h.convertFile path fs).bind fun r => (ih r.2).bind fun rs => sends_pure _

theorem Asks.convertPath (h : c.Asks P) (path : String) (fs : FileSystem) :
    Sends P (c.convertPath path fs) := by
  unfold Converter.convertPath
  split
  · exact (h.convertAll _ fs).bind fun r => sends_pure _
  · exact sends_pure _

theorem Asks.convertWith (h : c.Asks P) (path : String) (fs : FileSystem) :
    Sends P (Command.convertWith c fs path) := by
  unfold Command.convertWith
  split
  · refine (h.convertFile path fs).bind fun r => ?_
    obtain ⟨result, fs⟩ := r
    cases result <;> exact sends_pure _
  · refine (h.convertPath path fs).bind fun r => ?_
    obtain ⟨result, fs⟩ := r
    cases result <;> exact sends_pure _

end Converter

/-- The request asks the client for a conversion. -/
def Model.Client.IsAsked (c : Client) (r : Request) : Prop :=
  ∃ source metadata language,
    r = c.config.request c.key (conversation source metadata language) (some systemPrompt)

/-! ## Clients -/

theorem key_withEnvironment (s : Settings) (environment : Environment) {b : Backend}
    (hb : b.needsKey = true) : (s.withEnvironment environment).key b =
      (environment b.environmentName <|> s.key b) := by
  cases b with
  | ollama => cases hb
  | anthropic => rfl
  | openAi => rfl

/-- A key in the environment is the key of its backend. -/
theorem key_load {fs : FileSystem} {environment : Environment} {b : Backend}
    (hb : b.needsKey = true) {k : String} (h : environment b.environmentName = some k) :
    (Settings.load fs environment).key b = some k := by
  rw [Settings.load, key_withEnvironment _ _ hb, h]
  rfl

theorem config_of_connect {c : Config} {key : Option String} {environment : Environment}
    {client : Client} (h : connect c key environment = .ok client) : client.config = c := by
  unfold connect at h
  split at h
  · cases h
    rfl
  · split at h
    · cases h
      rfl
    · split at h
      · cases h
        rfl
      · cases h

/-- A client of a conversion is connected to the chosen backend, as the settings have it. -/
theorem ConvertRequest.client_eq_ok {r : ConvertRequest} {s : Settings} {environment : Environment}
    {client : Client} (h : r.client s environment = .ok client) :
    ∃ b, r.chosenBackend s = .ok b ∧
      client.config = { s.modelConfig b with model := r.model <|> (s.modelConfig b).model } ∧
      connect client.config (s.key b) environment = .ok client := by
  rw [ConvertRequest.client] at h
  cases hb : r.chosenBackend s with
  | error f =>
    rw [hb] at h
    cases h
  | ok b =>
    rw [hb] at h
    have hconfig := config_of_connect h
    exact ⟨b, rfl, hconfig, by rw [hconfig]; exact h⟩

/-! ## Commands -/

variable (answer : List Request → Except String Reply) (environment : Environment)
  (fs : FileSystem)

/-- A conversion asks its client, if one can be connected. -/
theorem ConvertRequest.sends_run (r : ConvertRequest) :
    Sends (fun q => ∃ client, r.client (Settings.load fs environment) environment = .ok client ∧
      client.IsAsked q) (r.run (recording answer) environment fs) := by
  unfold ConvertRequest.run
  dsimp only
  split
  · exact sends_pure _
  · split
    · exact sends_pure _
    · split
      · exact sends_pure _
      · rename_i client hclient
        apply Converter.Asks.convertWith
        intro source metadata language
        apply Sends.map
        apply sends_generate
        exact ⟨client, hclient, source, metadata, language, rfl⟩

/-- What a command may send. -/
def Command.MaySend (environment : Environment) (fs : FileSystem) (command : Command)
    (q : Request) : Prop :=
  match command with
  | .convert r => ∃ client, r.client (Settings.load fs environment) environment = .ok client ∧
      client.IsAsked q
  | .doctor => q = probe (Settings.load fs environment).serverUrl
  | _ => False

theorem Command.sends_examine :
    Sends (· = probe (Settings.load fs environment).serverUrl)
      (Command.examine (recording answer) environment fs) := by
  unfold Command.examine
  refine Sends.bind ?_ fun found => ?_
  · unfold Command.backendFinding
    split
    · refine Sends.map ?_ _
      unfold isReachable
      refine Sends.bind (sends_recording answer rfl) fun reply => ?_
      cases reply <;> exact sends_pure _
    · exact sends_pure _
  · split <;> exact sends_pure _

/-- No command sends anything that it may not send. -/
theorem Command.sends_run (command : Command) :
    Sends (command.MaySend environment fs)
      (Command.run (recording answer) environment fs command) := by
  cases command with
  | convert r => exact r.sends_run answer environment fs
  | doctor => exact sends_examine answer environment fs
  | _ => exact sends_pure _

/-! ## Files for samples -/

/-- Where the settings file is, if `XDG_CONFIG_HOME` is `/x`. -/
def settingsPath : String := "/x/seleniport/config.toml"

/-- A settings file with a text. -/
def settingsFiles (document : String) : FileSystem where
  entries := [(["x"], .directory), (["x", "seleniport"], .directory),
    (["x", "seleniport", "config.toml"], .file document.toUTF8)]
  workingDirectory := []

theorem readText_settingsFiles (document : String) :
    (settingsFiles document).readText settingsPath = .ok document := by
  have hread : (settingsFiles document).read settingsPath = .ok document.toUTF8 := rfl
  have htext : String.fromUTF8? document.toUTF8 = some document := dif_pos document.isValidUTF8
  rw [FileSystem.readText, hread]
  simp only [htext]

end TestConversion
