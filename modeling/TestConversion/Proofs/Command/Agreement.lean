import TestConversion.Proofs.Command.Requests

/-!
# Whether commands agree on the settings

The settings that are shown, the check and a conversion without options each find out for themselves
which backend, which model and which key are meant. They mean the same, with three exceptions: a
name in the environment that is no backend's is a failure only for the conversion, the check names
the model of the local server even where another model is chosen, and an empty key in the settings
file is a key only for the check.

* `commands_agree_iff`: what the three commands say and send, and when they agree.
* `commands_disagree`: settings on which they do not.
-/

namespace TestConversion

open Files Model

/-! ## What is said -/

/-- What a check tells of a backend. -/
inductive Diagnosis where
  | server (url model : String) (reachable : Bool)
  | key (backend : Backend) (configured : Bool)

namespace Diagnosis

def backend : Diagnosis → Backend
  | server .. => .ollama
  | key b _ => b

/-- The model that is named. -/
def model? : Diagnosis → Option String
  | server _ model _ => some model
  | key .. => none

/-- Whether a key is said to be there. -/
def isConfigured : Diagnosis → Bool
  | server .. => false
  | key _ configured => configured

def lines : Diagnosis → List String
  | server url model true => ["✓ Ollama: reachable at " ++ url ++ " (model " ++ model ++ ")"]
  | server url model false => [
      "✗ Ollama: not reachable at " ++ url,
      "  Start it with `ollama serve` and `ollama pull " ++ model ++ "`",
      "  or set SELENIPORT_BACKEND=anthropic|openai with an API key"]
  | key b true => ["✓ " ++ b.name ++ ": API key configured"]
  | key b false => [
      "✗ " ++ b.name ++ ": " ++ b.environmentName ++ " not set",
      "  Get a key at " ++ b.signupUrl]

end Diagnosis

/-- What the check tells, by whether the local server was reached. -/
def Settings.diagnosis (s : Settings) (reachable : Bool) : Diagnosis :=
  match s.chosenBackend with
  | .ollama => .server s.serverUrl s.serverModel reachable
  | b => .key b (s.key b).isSome

/-- The configuration that is shown. -/
def Settings.shownConfig (s : Settings) : Config := s.modelConfig s.chosenBackend

/-- The lines start with a place for the settings, and then the backend with its model and its
endpoint. -/
def ShowsConfig (output : List String) (c : Config) : Prop :=
  ∃ place rest, place.length ≤ 1 ∧ output = "📁 Config path:" :: place ++
    ["", "🤖 AI Backend: " ++ c.backend.name, "  Model:       " ++ c.modelName,
      "  Endpoint:    " ++ c.endpoint] ++ rest

/-- The lines are those of the diagnosis, between what is told of the grammar and a verdict. -/
def Tells (output : List String) (d : Diagnosis) : Prop :=
  ∃ verdict,
    output = "🩺 Seleniport Doctor\n" :: Command.grammarFinding.lines ++ d.lines ++ [verdict]

variable (environment : Environment) (fs : FileSystem)

theorem showsConfig_presentSettings :
    ShowsConfig (Command.presentSettings environment fs).output
      (Settings.load fs environment).shownConfig := by
  have hlines : ∃ rest, Command.settingsLines (Settings.load fs environment) =
      let c := (Settings.load fs environment).shownConfig
      ["🤖 AI Backend: " ++ c.backend.name, "  Model:       " ++ c.modelName,
        "  Endpoint:    " ++ c.endpoint] ++ rest := ⟨_, rfl⟩
  obtain ⟨rest, hrest⟩ := hlines
  unfold Command.presentSettings
  rw [hrest]
  refine ⟨_, rest, ?_, congrArg (List.cons _) (List.append_assoc _ ("" :: _) _).symm⟩
  cases Settings.filePath environment <;> simp

theorem lines_backendFinding (answer : List Request → Except String Reply) (s : Settings)
    (sent : List Request) :
    ∃ reachable, ((Command.backendFinding (recording answer) s).run sent).1.lines =
      (s.diagnosis reachable).lines := by
  have hserver : ∀ reachable, (Command.serverFinding s.serverUrl s.serverModel reachable).lines =
      (Diagnosis.server s.serverUrl s.serverModel reachable).lines := by
    intro reachable
    cases reachable <;> rfl
  have hkey : ∀ b, (Command.keyFinding s b).lines = (Diagnosis.key b (s.key b).isSome).lines := by
    intro b
    unfold Command.keyFinding
    cases (s.key b).isSome <;> rfl
  unfold Command.backendFinding Settings.diagnosis
  cases s.chosenBackend with
  | ollama => exact ⟨_, hserver _⟩
  | anthropic => exact ⟨true, hkey .anthropic⟩
  | openAi => exact ⟨true, hkey .openAi⟩

theorem tells_examine (answer : List Request → Except String Reply) (sent : List Request) :
    ∃ reachable, Tells ((Command.examine (recording answer) environment fs).run sent).1.output
      ((Settings.load fs environment).diagnosis reachable) := by
  obtain ⟨reachable, hlines⟩ := lines_backendFinding answer (Settings.load fs environment) sent
  refine ⟨reachable, ?_⟩
  rw [Tells, ← hlines, Command.examine, Recorded.run_bind]
  dsimp only
  split
  · exact ⟨_, rfl⟩
  · exact ⟨_, rfl⟩

/-! ## What is sent -/

/-- A conversion without options. -/
def ConvertRequest.plain (path : String) : ConvertRequest where
  path := path
  output := none
  language := none
  backend := environment "SELENIPORT_BACKEND"
  model := none
  dryRun := false

open Command in
theorem read_convert {path : String} (hne : path ≠ "") (hpath : path.toList.head? ≠ some '-') :
    usage.read ["convert", path] = .ok ⟨["convert"], [("path", path)]⟩ := by
  have hargument : ({} : Progress).argument convertUsage path =
      ({} : Progress).operand convertUsage path := by
    have hhyphen : ∀ cs, path.toList ≠ '-' :: cs := by
      intro cs h
      rw [h] at hpath
      exact hpath rfl
    unfold Progress.argument
    split
    · rfl
    · split
      · rename_i h
        exact absurd h (hhyphen _)
      · rename_i h
        exact absurd h (hhyphen _)
      · rename_i h
        exact absurd h (hhyphen _)
      · rfl
  have hinner : readArguments [path] convertUsage {} = .ok ⟨[], [("path", path)]⟩ := by
    have hnone : convertUsage.command? path = none := rfl
    rw [readArguments]
    simp only [Progress.awaiting, Option.filter_none, Option.isSome_none, Bool.or_false,
      Bool.false_eq_true, if_false, hnone, hargument]
    simp [Progress.operand, convertUsage, pathOperand, Progress.settle, readArguments,
      Progress.finish, Progress.give, Values.accept, hne, bind, Except.bind, pure, Except.pure]
  have hcommand : usage.command? "convert" = some convertUsage := rfl
  rw [Usage.read, readArguments]
  simp only [Progress.awaiting, Option.filter_none, Option.isSome_none, Bool.or_false,
    Bool.false_eq_true, if_false, hcommand, hinner]
  rfl

/-- A path alone asks for a conversion without options. -/
theorem ofArguments_convert {path : String} (hne : path ≠ "")
    (hpath : path.toList.head? ≠ some '-') :
    Command.ofArguments environment ["convert", path] =
      .ok (.convert (.plain environment path)) := by
  rw [Command.ofArguments, read_convert hne hpath]
  rfl

/-- The request goes to the endpoint of the configuration and asks its model. -/
def Model.Request.AsksAs (q : Request) (c : Config) : Prop :=
  q.url = c.endpoint ∧
    ∃ body, q.body = some body ∧ body.member? "model" = some (.string c.modelName)

theorem Model.asksAs_request (c : Config) (key : String) (messages : List Message)
    (system : Option String) : (c.request key messages system).AsksAs c := by
  unfold Config.request
  split
  · exact ⟨rfl, _, rfl, by simp [chatBody, Json.member?]⟩
  · exact ⟨rfl, _, rfl, by simp [messagesBody, Json.member?]⟩

/-! ## Agreement -/

/-- A backend that is named in the environment is there. -/
def NamesBackend : Prop :=
  ∀ name, environment "SELENIPORT_BACKEND" = some name → (Backend.ofName? name).isSome = true

variable {environment fs}

/-- The client of a conversion without options, if its backend is there. -/
theorem client_plain (h : NamesBackend environment) (path : String) :
    (ConvertRequest.plain environment path).client (Settings.load fs environment) environment =
      connect (Settings.load fs environment).shownConfig
        ((Settings.load fs environment).key (Settings.load fs environment).chosenBackend)
        environment := by
  have hchosen : (ConvertRequest.plain environment path).chosenBackend
      (Settings.load fs environment) = .ok (Settings.load fs environment).chosenBackend := by
    unfold ConvertRequest.chosenBackend ConvertRequest.plain
    cases hname : environment "SELENIPORT_BACKEND" with
    | none => rfl
    | some name =>
      obtain ⟨b, hb⟩ := Option.isSome_iff_exists.mp (h name hname)
      simp [Backend.ofName, hb, Settings.chosenBackend, Settings.load, Settings.withEnvironment,
        hname]
  rw [ConvertRequest.client, hchosen]
  rfl

/-- Without its backend a conversion has no client. -/
theorem client_plain_of_unknown {name : String}
    (hname : environment "SELENIPORT_BACKEND" = some name) (h : Backend.ofName? name = none)
    (path : String) :
    (ConvertRequest.plain environment path).client (Settings.load fs environment) environment =
      .error (.unknownBackend (Backend.normalize name)) := by
  have hchosen : (ConvertRequest.plain environment path).chosenBackend
      (Settings.load fs environment) = .error (.unknownBackend (Backend.normalize name)) := by
    simp [ConvertRequest.chosenBackend, ConvertRequest.plain, hname, Backend.ofName, h]
  rw [ConvertRequest.client, hchosen]
  rfl

/-- The settings that are shown, the diagnosis of the check, and what comes of connecting the client
of a conversion mean the same. -/
structure CommandsAgree (s : Settings) (d : Diagnosis) (client : Except Failure Client) : Prop where
  /-- The conversion connects to the backend, or lacks its key. -/
  backend : d.backend = s.shownConfig.backend ∧
    ((∃ c, client = .ok c ∧ c.backend = d.backend) ∨ client = .error (.missingKey d.backend))
  /-- The client asks the model that is shown at the endpoint that is shown; and if the check names
  a model, it is that one. -/
  model : ∀ c, client = .ok c → c.modelName = s.shownConfig.modelName ∧
    c.config.endpoint = s.shownConfig.endpoint ∧ ∀ m ∈ d.model?, m = c.modelName
  /-- A key is there for the check if it is there for the conversion. -/
  key : d.backend.needsKey = true → (d.isConfigured = true ↔ ∃ c, client = .ok c)

/-- What the commands need to agree. -/
structure IsUnambiguous (environment : Environment) (s : Settings) : Prop where
  backend : NamesBackend environment
  model : s.chosenBackend = .ollama → s.model.getD s.serverModel = s.serverModel
  key : s.chosenBackend.needsKey = true →
    environment s.chosenBackend.environmentName = none → s.key s.chosenBackend ≠ some ""

theorem diagnosis_of_hosted {s : Settings} (h : s.chosenBackend.needsKey = true)
    (reachable : Bool) :
    s.diagnosis reachable = .key s.chosenBackend (s.key s.chosenBackend).isSome := by
  unfold Settings.diagnosis
  cases hb : s.chosenBackend with
  | ollama =>
    rw [hb] at h
    cases h
  | anthropic => rfl
  | openAi => rfl

theorem eq_ollama_of_not_needsKey {b : Backend} (h : b.needsKey = false) : b = .ollama := by
  cases b with
  | ollama => rfl
  | anthropic => cases h
  | openAi => cases h

/-- On the local server the commands agree if the check names the model that is chosen. -/
theorem commandsAgree_local {s : Settings} (h : s.chosenBackend = .ollama) (reachable : Bool)
    (key : Option String) :
    CommandsAgree s (s.diagnosis reachable) (connect s.shownConfig key environment) ↔
      s.model.getD s.serverModel = s.serverModel := by
  have hdiagnosis : s.diagnosis reachable = .server s.serverUrl s.serverModel reachable := by
    rw [Settings.diagnosis, h]
  have hconnect : connect s.shownConfig key environment = .ok ⟨s.shownConfig, placeholderKey⟩ := by
    rw [Settings.shownConfig, h]
    rfl
  have hmodel : s.shownConfig.modelName = s.model.getD s.serverModel := by
    rw [Settings.shownConfig, h]
    rfl
  have hbackend : s.shownConfig.backend = .ollama := h
  rw [hdiagnosis, hconnect, ← hmodel]
  constructor
  · intro hagree
    exact ((hagree.model _ rfl).2.2 s.serverModel rfl).symm
  · intro heq
    refine ⟨⟨hbackend.symm, Or.inl ⟨_, rfl, hbackend⟩⟩, ?_, fun hkey => by cases hkey⟩
    intro c hc
    cases hc
    refine ⟨rfl, rfl, fun m hm => ?_⟩
    cases hm
    exact heq.symm

/-- A hosted backend is connected where a key that is not empty is given or one is in the
environment. -/
theorem exists_connect_iff {c : Config} (h : c.backend.needsKey = true) (key : Option String) :
    (∃ client, connect c key environment = .ok client) ↔
      environment c.backend.environmentName ≠ none ∨ ∃ k ∈ key, k ≠ "" := by
  have hfilter : key.filter (· ≠ "") = none ↔ ¬ ∃ k ∈ key, k ≠ "" := by
    cases key <;> simp
  cases hconnect : connect c key environment with
  | ok client =>
    refine ⟨fun _ => ?_, fun _ => ⟨client, rfl⟩⟩
    by_cases hkey : ∃ k ∈ key, k ≠ ""
    · exact Or.inr hkey
    · refine Or.inl fun henv => ?_
      have herror := connect_eq_error_iff.mpr ⟨h, hfilter.mpr hkey, henv, rfl⟩
      rw [hconnect] at herror
      cases herror
  | error f =>
    obtain ⟨-, hkey, henv, -⟩ := connect_eq_error_iff.mp hconnect
    refine ⟨fun hc => ?_, fun hc => ?_⟩
    · obtain ⟨client, hclient⟩ := hc
      cases hclient
    · rcases hc with hc | hc
      · exact absurd henv hc
      · exact absurd hc (hfilter.mp hkey)

/-- On a hosted backend whose key in the environment is that of the settings, the commands agree
unless its key is empty in the settings file. -/
theorem commandsAgree_hosted {s : Settings} (h : s.chosenBackend.needsKey = true)
    (hload : ∀ k, environment s.chosenBackend.environmentName = some k →
      s.key s.chosenBackend = some k) (reachable : Bool) :
    CommandsAgree s (s.diagnosis reachable)
        (connect s.shownConfig (s.key s.chosenBackend) environment) ↔
      (environment s.chosenBackend.environmentName = none → s.key s.chosenBackend ≠ some "") := by
  rw [diagnosis_of_hosted h]
  have hexists : (∃ c, connect s.shownConfig (s.key s.chosenBackend) environment = .ok c) ↔
      environment s.chosenBackend.environmentName ≠ none ∨
        ∃ k ∈ s.key s.chosenBackend, k ≠ "" := exists_connect_iff h _
  have hconfigured : ((s.key s.chosenBackend).isSome = true ↔
      ∃ c, connect s.shownConfig (s.key s.chosenBackend) environment = .ok c) ↔
        (environment s.chosenBackend.environmentName = none → s.key s.chosenBackend ≠ some "") := by
    rw [hexists]
    cases henv : environment s.chosenBackend.environmentName with
    | some k => simp [hload k henv]
    | none => cases s.key s.chosenBackend <;> simp
  constructor
  · intro hagree
    exact hconfigured.mp (hagree.key h)
  · intro hkey
    refine ⟨⟨rfl, ?_⟩, ?_, fun _ => hconfigured.mpr hkey⟩
    · cases hconnect : connect s.shownConfig (s.key s.chosenBackend) environment with
      | ok c => exact Or.inl ⟨c, rfl, by rw [Client.backend, config_of_connect hconnect]; rfl⟩
      | error f => exact Or.inr (by rw [(connect_eq_error_iff.mp hconnect).2.2.2]; rfl)
    · intro c hc
      rw [Client.modelName, config_of_connect hc]
      exact ⟨rfl, rfl, fun m hm => by cases hm⟩

theorem commandsAgree_iff (path : String) (reachable : Bool) :
    CommandsAgree (Settings.load fs environment)
        ((Settings.load fs environment).diagnosis reachable)
        ((ConvertRequest.plain environment path).client (Settings.load fs environment)
          environment) ↔
      IsUnambiguous environment (Settings.load fs environment) := by
  constructor
  · intro h
    have hnames : NamesBackend environment := by
      intro name hname
      cases hb : Backend.ofName? name with
      | some b => rfl
      | none =>
        rw [client_plain_of_unknown hname hb] at h
        rcases h.backend.2 with ⟨c, hc, -⟩ | hmissing
        · cases hc
        · cases hmissing
    rw [client_plain hnames] at h
    exact ⟨hnames, fun hb => (commandsAgree_local hb reachable _).mp h,
      fun hb => (commandsAgree_hosted hb (fun _ => key_load hb) reachable).mp h⟩
  · rintro ⟨hnames, hmodel, hkey⟩
    rw [client_plain hnames]
    cases hb : (Settings.load fs environment).chosenBackend.needsKey with
    | true => exact (commandsAgree_hosted hb (fun _ => key_load hb) reachable).mpr (hkey hb)
    | false =>
      have hb := eq_ollama_of_not_needsKey hb
      exact (commandsAgree_local hb reachable _).mpr (hmodel hb)

variable (environment fs)

/-- Without a client a conversion of something that is there fails, and sends nothing. -/
theorem run_convert_of_error (answer : List Request → Except String Reply) {r : ConvertRequest}
    (hdry : r.dryRun = false) (hentry : fs.hasEntry r.path = true) {f : Failure}
    (h : r.client (Settings.load fs environment) environment = .error f) :
    Command.run (recording answer) environment fs (.convert r) =
      pure { files := fs, problem := some [f.message] } := by
  simp [Command.run, ConvertRequest.run, hentry, hdry, h]

/-- The backend, the model and the endpoint that are shown, those that a check tells of, and those
that a conversion without options asks are the same, and a key is there for the check if it is there
for the conversion, exactly if the name of a backend in the environment is one, no other model than
that of the local server is chosen for it, and no empty key in the settings file stands for a
key. -/
theorem commands_agree_iff (answer : List Request → Except String Reply) (sent : List Request)
    {path : String} (hne : path ≠ "") (hpath : path.toList.head? ≠ some '-') :
    let s := Settings.load fs environment
    let r := ConvertRequest.plain environment path
    let run := Command.run (recording answer) environment fs
    ShowsConfig ((run .showSettings).run sent).1.output s.shownConfig ∧
      (∃ reachable, Tells ((run .doctor).run sent).1.output (s.diagnosis reachable)) ∧
      Command.ofArguments environment ["convert", path] = .ok (.convert r) ∧
      Sends (fun q => ∃ c, r.client s environment = .ok c ∧ q.AsksAs c.config) (run (.convert r)) ∧
      (∀ f, r.client s environment = .error f → fs.hasEntry path = true →
        run (.convert r) = pure { files := fs, problem := some [f.message] }) ∧
      ∀ reachable, CommandsAgree s (s.diagnosis reachable) (r.client s environment) ↔
        IsUnambiguous environment s := by
  refine ⟨showsConfig_presentSettings environment fs, tells_examine environment fs answer sent,
    ofArguments_convert environment hne hpath, ?_, ?_, commandsAgree_iff path⟩
  · refine (ConvertRequest.sends_run answer environment fs _).mono ?_
    rintro q ⟨c, hc, source, metadata, language, rfl⟩
    exact ⟨c, hc, asksAs_request _ _ _ _⟩
  · intro f hf hentry
    exact run_convert_of_error environment fs answer rfl hentry hf

/-- No files. -/
def noFiles : FileSystem := ⟨[], []⟩

/-- Nothing but one variable. -/
def only (name value : String) : Environment := fun n => if n = name then some value else none

theorem commands_agree_iff_default :
    "A.java" ≠ "" ∧ "A.java".toList.head? ≠ some '-' ∧
      CommandsAgree (Settings.load noFiles fun _ => none)
        ((Settings.load noFiles fun _ => none).diagnosis true)
        ((ConvertRequest.plain (fun _ => none) "A.java").client
          (Settings.load noFiles fun _ => none) fun _ => none) := by
  have hne : "A.java" ≠ "" := by decide
  have hpath : "A.java".toList.head? ≠ some '-' := by decide
  refine ⟨hne, hpath, ?_⟩
  have h := commands_agree_iff (fun _ => none) noFiles (fun _ => .error "") [] hne hpath
  refine (h.2.2.2.2.2 true).mpr ⟨?_, fun _ => rfl, fun _ _ => ?_⟩
  · intro name hname
    cases hname
  · decide

/-- A settings file with an empty key. -/
def emptyKey : FileSystem :=
  settingsFiles "[ai]\nbackend = \"anthropic\"\nanthropic_api_key = \"\"\n"

/-- What comes of connecting the client of a conversion. -/
def plainClient (environment : Environment) (fs : FileSystem) : Except Failure Client :=
  (ConvertRequest.plain environment "A.java").client (Settings.load fs environment) environment

def chosenModel : Environment := only "SELENIPORT_MODEL" "m1"

def unknownBackend : Environment := only "SELENIPORT_BACKEND" "bard"

def settingsPlace : Environment := only "XDG_CONFIG_HOME" "/x"

/-- The check names another model than the one that is asked; a backend that is none is the local
server for all but the conversion; and an empty key in the settings file is there for the check
only. -/
theorem commands_disagree :
    (((Settings.load noFiles chosenModel).diagnosis false).model? = some "codellama" ∧
      ∃ c, plainClient chosenModel noFiles = .ok c ∧ c.modelName = "m1") ∧
    (((Settings.load noFiles unknownBackend).diagnosis false).backend = .ollama ∧
      (Settings.load noFiles unknownBackend).shownConfig.backend = .ollama ∧
      plainClient unknownBackend noFiles = .error (.unknownBackend "bard")) ∧
    ((Settings.load emptyKey settingsPlace).diagnosis false).isConfigured = true ∧
      plainClient settingsPlace emptyKey = .error (.missingKey .anthropic) := by
  have hunset : ∀ {name value : String}, name ≠ "SELENIPORT_BACKEND" →
      NamesBackend (only name value) := by
    intro name value hne other hother
    simp [only, hne.symm] at hother
  refine ⟨⟨by decide +kernel, ⟨(Settings.load noFiles chosenModel).shownConfig, placeholderKey⟩,
    ?_, by decide +kernel⟩, ⟨by decide +kernel, by decide +kernel, ?_⟩, by decide +kernel, ?_⟩
  · rw [plainClient, chosenModel, client_plain (hunset (by decide)), connect,
      if_pos (by decide +kernel)]
  · have hname : unknownBackend "SELENIPORT_BACKEND" = some "bard" := rfl
    have hnormal : Backend.normalize "bard" = "bard" := by decide +kernel
    rw [plainClient, client_plain_of_unknown hname (by decide +kernel), hnormal]
  · rw [plainClient, settingsPlace, client_plain (hunset (by decide)), connect_eq_error_iff]
    exact ⟨by decide +kernel, by decide +kernel, by decide +kernel, by decide +kernel⟩

end TestConversion
