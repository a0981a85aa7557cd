import TestConversion.Proofs.Command.Requests
import TestConversion.Proofs.Command.Secrets

/-!
# Where the settings of a conversion come from

A setting can be chosen on the command line, in the environment and in the settings file, and what
is not chosen has a default. The first choice in this order counts. Each setting has choices of its
own, so none influences another one; but what the model, the address of the server and the key are
chosen from depends on the backend. A settings file that cannot be used is as good as an empty one.

* `Situation.plan`: the settings of a conversion, each as the first of its choices.
* `Situation.client_eq`, `Situation.run_eq`: the client is connected and the conversion carried out
  with these settings.
* `Settings.inFile?_eq_none_iff`, `Settings.inFile?_of_empty`: files without choices.
* `settings_by_precedence`: which settings a conversion uses.
-/

namespace TestConversion

open Files Model

/-! ## The settings file -/

namespace Settings

/-- The choices in the settings file; none if there is no such file that is a settings document. -/
def inFile? (fs : FileSystem) (environment : Environment) : Option Settings :=
  (filePath environment).bind fun path => (document? fs path).bind ofDocument?

theorem load_eq (fs : FileSystem) (environment : Environment) :
    load fs environment = ((inFile? fs environment).getD {}).withEnvironment environment := by
  rw [load, inFile?]
  cases filePath environment with
  | none => rfl
  | some path => rw [Option.map_some, Option.getD_some, ofFile_eq, Option.bind_some]

/-- Why a settings file cannot be used. -/
inductive Unusable (fs : FileSystem) (environment : Environment) : Prop
  /-- There is no place for it. -/
  | unplaced (h : filePath environment = none)
  /-- It is missing, or it is no file with a text. -/
  | unreadable {path : String} {fault : Fault} (hpath : filePath environment = some path)
      (h : fs.readText path = .error fault)
  | malformed {path text : String} (hpath : filePath environment = some path)
      (htext : fs.readText path = .ok text) (h : Toml.parse text = none)
  /-- A value in it is not of its kind. -/
  | illTyped {path text : String} {ms : Toml.Members} (hpath : filePath environment = some path)
      (htext : fs.readText path = .ok text) (hparse : Toml.parse text = some ms)
      (h : ofDocument? ms = none)

variable {fs : FileSystem} {environment : Environment} {path text : String}

theorem inFile?_of_fault {fault : Fault} (hpath : filePath environment = some path)
    (h : fs.readText path = .error fault) : inFile? fs environment = none := by
  rw [inFile?, hpath, Option.bind_some, document?, h]
  rfl

theorem inFile?_of_text (hpath : filePath environment = some path)
    (h : fs.readText path = .ok text) :
    inFile? fs environment = (Toml.parse text).bind ofDocument? := by
  rw [inFile?, hpath, Option.bind_some, document?, h]
  rfl

/-- There are no other reasons. -/
theorem inFile?_eq_none_iff : inFile? fs environment = none ↔ Unusable fs environment := by
  constructor
  · intro h
    cases hpath : filePath environment with
    | none => exact .unplaced hpath
    | some path =>
      cases htext : fs.readText path with
      | error fault => exact .unreadable hpath htext
      | ok text =>
        rw [inFile?_of_text hpath htext] at h
        cases hparse : Toml.parse text with
        | none => exact .malformed hpath htext hparse
        | some ms =>
          rw [hparse] at h
          exact .illTyped hpath htext hparse h
  · intro h
    cases h with
    | unplaced h => rw [inFile?, h, Option.bind_none]
    | unreadable hpath h => exact inFile?_of_fault hpath h
    | malformed hpath htext h => rw [inFile?_of_text hpath htext, h, Option.bind_none]
    | illTyped hpath htext hparse h => rw [inFile?_of_text hpath htext, hparse, Option.bind_some, h]

/-- An empty file is a settings document without choices. -/
theorem inFile?_of_empty (hpath : filePath environment = some path)
    (h : fs.readText path = .ok "") : inFile? fs environment = some {} := by
  have hempty : Toml.parse "" = some [] := rfl
  rw [inFile?_of_text hpath h, hempty]
  rfl

end Settings

/-! ## Choices -/

/-- The first choice that is made, or else the default. -/
def firstOf {α : Type} (choices : List (Option α)) (default : α) : α :=
  (choices.findSome? id).getD default

theorem firstOf_nil {α : Type} (default : α) : firstOf [] default = default := rfl

theorem firstOf_cons {α : Type} (choice : Option α) (choices : List (Option α)) (default : α) :
    firstOf (choice :: choices) default = choice.getD (firstOf choices default) := by
  cases choice <;> rfl

/-- All that the settings of a conversion come from: what is given on the command line, the
environment, and the files with the settings file among them. -/
structure Situation where
  given : Command.Given
  environment : Environment
  files : FileSystem

/-- What a conversion is carried out with. -/
structure Plan where
  backend : Backend
  model : String
  /-- The address of the local server. -/
  serverUrl : String
  /-- The key of a backend that needs one. -/
  key : Option String
  temperature : Number.Binary
  maxTokens : Nat
  outputDirectory : String
  language : Language

namespace Situation

variable (a : Situation)

/-- The choices in the settings file. -/
def file : Settings := (Settings.inFile? a.files a.environment).getD {}

def backendNames : List (Option String) :=
  [a.given.value? "backend", a.environment "SELENIPORT_BACKEND", a.file.backend]

/-- The choices for the model of a backend. -/
def modelNames (b : Backend) : List (Option String) :=
  [a.given.value? "model", a.environment "SELENIPORT_MODEL", a.file.model] ++
    if b = .ollama then [a.file.ollamaModel] else []

def serverUrls : List (Option String) := [a.environment "OLLAMA_HOST", a.file.ollamaUrl]

/-- The choices for the key of a backend. -/
def keys : Backend → List (Option String)
  | .ollama => []
  | .anthropic => [a.environment "ANTHROPIC_API_KEY", a.file.anthropicKey]
  | .openAi => [a.environment "OPENAI_API_KEY", a.file.openAiKey]

def outputDirectories : List (Option String) :=
  [a.given.value? "output", a.file.outputDirectory]

def languageNames : List (Option String) := [a.given.value? "language", a.file.language]

def backend : Backend := (Backend.ofName? (firstOf a.backendNames "ollama")).getD .ollama

/-- Each setting as the first of its choices, for some backend. -/
def planFor (b : Backend) : Plan where
  backend := b
  model := firstOf (a.modelNames b) b.defaultModel
  serverUrl := firstOf a.serverUrls "http://localhost:11434"
  key := (a.keys b).findSome? id
  temperature := firstOf [a.file.temperature] defaultTemperature
  maxTokens := firstOf [a.file.maxTokens] 2048
  outputDirectory := firstOf a.outputDirectories "output"
  language := (Language.ofName? (firstOf a.languageNames "typescript")).getD .typeScript

def plan : Plan := a.planFor a.backend

/-- The names that are chosen are those of backends and languages, and no key in the settings file
is empty. Other texts may be empty: they are choices all the same. -/
structure IsKnown : Prop where
  backend : ∀ name, some name ∈ a.backendNames → (Backend.ofName? name).isSome = true
  language : ∀ name, some name ∈ a.languageNames → (Language.ofName? name).isSome = true
  key : ∀ b, a.file.key b ≠ some ""

end Situation

/-! ## Conversions by a plan -/

namespace Plan

/-- How the backend is asked. -/
def config (p : Plan) : Config where
  backend := p.backend
  model := some p.model
  baseUrl := if p.backend = .ollama then some p.serverUrl else none
  maxTokens := p.maxTokens
  temperature := p.temperature

/-- The client of a conversion. A backend that needs a key cannot do without one. -/
def client (p : Plan) : Except Failure Client :=
  if p.backend.needsKey then
    match p.key with
    | some k => .ok ⟨p.config, k⟩
    | none => .error (.missingKey p.backend)
  else .ok ⟨p.config, placeholderKey⟩

theorem isOk_client (p : Plan) : p.client.isOk = (!p.backend.needsKey || p.key.isSome) := by
  rw [client]
  cases p.backend.needsKey with
  | false => rfl
  | true => cases p.key <;> rfl

theorem client_of_needsKey {p : Plan} (hp : p.backend.needsKey = true) {c : Client}
    (h : p.client = .ok c) : ∃ k, p.key = some k ∧ c = ⟨p.config, k⟩ := by
  rw [client, if_pos hp] at h
  cases hkey : p.key with
  | none =>
    rw [hkey] at h
    cases h
  | some k =>
    rw [hkey] at h
    cases h
    exact ⟨k, rfl, rfl⟩

/-- Carries a conversion out, or shows what a model would be asked. -/
def run {m : Type → Type} [Monad m] (send : Transport m) (fs : FileSystem) (path : String)
    (dryRun : Bool) (p : Plan) : m Command.Result :=
  if !fs.hasEntry path then return { files := fs, problem := some [notAnInput path] }
  else if dryRun then return Command.dryRunAll fs path p.language
  else
    match p.client with
    | .error f => return { files := fs, problem := some [f.message] }
    | .ok client =>
      let converter : Converter m :=
        { generator := modelGenerator send client, language := p.language
          outputDirectory := p.outputDirectory }
      Command.convertWith converter fs path

end Plan

/-- The configuration with the name of its model. -/
def Model.Config.explicit (c : Config) : Config := { c with model := some c.modelName }

def Model.Client.explicit (c : Client) : Client := { c with config := c.config.explicit }

/-! ## What is asked for -/

namespace Situation

variable (a : Situation)

/-- The conversion that is asked for. -/
def request : ConvertRequest where
  path := (a.given.value? "path").getD ""
  output := a.given.value? "output"
  language := (a.given.value? "language").bind Language.ofName?
  backend := a.given.value? "backend" <|> a.environment "SELENIPORT_BACKEND"
  model := a.given.value? "model"
  dryRun := a.given.has "dry-run"

/-- The settings that the conversion finds. -/
def settings : Settings := Settings.load a.files a.environment

/-- What comes of connecting the client of the conversion. -/
def client : Except Failure Client := a.request.client a.settings a.environment

theorem ofArguments_eq (h : a.given.commands = ["convert"]) {arguments : List String}
    (hread : Command.usage.read arguments = .ok a.given) :
    Command.ofArguments a.environment arguments = .ok (.convert a.request) := by
  rw [Command.ofArguments, hread]
  simp only [Command.ofGiven?, h]
  rfl

theorem settings_eq : a.settings = a.file.withEnvironment a.environment :=
  Settings.load_eq a.files a.environment

/-! ## What is used -/

theorem outputDirectory_eq :
    a.request.output.getD a.settings.outputPath = a.plan.outputDirectory := by
  have hplan : a.plan.outputDirectory = firstOf a.outputDirectories "output" := rfl
  rw [hplan, settings_eq, outputDirectories, firstOf_cons, firstOf_cons, firstOf_nil]
  rfl

theorem language_plan : a.plan.language =
    (Language.ofName? (firstOf a.languageNames "typescript")).getD .typeScript := by
  rw [plan, planFor]

variable {a}

theorem chosenLanguage_eq (h : a.IsKnown) :
    a.request.chosenLanguage a.settings = a.plan.language := by
  have hlanguage : a.settings.language = a.file.language := by
    rw [settings_eq]
    rfl
  have hdefault : Language.ofName? "typescript" = some .typeScript :=
    Language.ofName?_name .typeScript
  rw [language_plan, ConvertRequest.chosenLanguage, Settings.chosenLanguage, hlanguage,
    languageNames, firstOf_cons, firstOf_cons, firstOf_nil, request]
  cases hgiven : a.given.value? "language" with
  | some name =>
    obtain ⟨l, hl⟩ := Option.isSome_iff_exists.mp
      (h.language name (by simp [languageNames, hgiven]))
    simp [hl]
  | none =>
    cases a.file.language with
    | some name => simp
    | none => simp [hdefault]

/-- A name of a backend that counts is known. -/
theorem ofName_of_first (h : a.IsKnown) {name : String} (hname : some name ∈ a.backendNames)
    (hfirst : firstOf a.backendNames "ollama" = name) : Backend.ofName name = .ok a.backend := by
  obtain ⟨b, hb⟩ := Option.isSome_iff_exists.mp (h.backend name hname)
  have hbackend : a.backend = b := by
    rw [backend, hfirst, hb, Option.getD_some]
  rw [hbackend]
  simp only [Backend.ofName, hb]

theorem chosenBackend_eq (h : a.IsKnown) :
    a.request.chosenBackend a.settings = .ok a.backend := by
  have hdefault : Backend.ofName? "ollama" = some .ollama := Backend.ofName?_name .ollama
  rw [ConvertRequest.chosenBackend, request]
  cases hgiven : a.given.value? "backend" with
  | some name =>
    apply ofName_of_first h
    · rw [← hgiven]
      exact List.mem_cons_self
    · rw [backendNames, firstOf_cons, hgiven, Option.getD_some]
  | none =>
    cases hvariable : a.environment "SELENIPORT_BACKEND" with
    | some name =>
      apply ofName_of_first h
      · rw [← hvariable]
        exact List.mem_cons_of_mem _ List.mem_cons_self
      · rw [backendNames, firstOf_cons, firstOf_cons, hgiven, hvariable, Option.getD_none,
          Option.getD_some]
    | none =>
      have hbackend : a.settings.backend = a.file.backend := by
        simp [settings_eq, Settings.withEnvironment, hvariable]
      have hfirst : firstOf a.backendNames "ollama" = a.file.backend.getD "ollama" := by
        rw [backendNames, firstOf_cons, firstOf_cons, firstOf_cons, firstOf_nil, hgiven, hvariable]
        rfl
      change Except.ok a.settings.chosenBackend = .ok a.backend
      rw [Settings.chosenBackend, hbackend, backend, hfirst]
      cases a.file.backend with
      | some name => rw [Option.bind_some, Option.getD_some]
      | none =>
        rw [Option.bind_none, Option.getD_none, Option.getD_none, hdefault, Option.getD_some]

/-! ### The client -/

variable (a)

/-- How a backend is asked, as the settings and the command line have it. -/
def config (b : Backend) : Config :=
  { a.settings.modelConfig b with model := a.request.model <|> (a.settings.modelConfig b).model }

theorem modelName_config (b : Backend) :
    (a.config b).modelName = firstOf (a.modelNames b) b.defaultModel := by
  have hmodel : a.settings.model = (a.environment "SELENIPORT_MODEL" <|> a.file.model) := by
    rw [settings_eq]
    rfl
  have hserver : a.settings.serverModel = a.file.ollamaModel.getD Backend.ollama.defaultModel := by
    rw [settings_eq]
    rfl
  rw [Config.modelName, config, Settings.modelConfig, hmodel, hserver, modelNames]
  by_cases hb : b = .ollama
  · simp [hb, request, firstOf_cons, firstOf_nil, Option.getD_or]
  · simp [hb, request, firstOf_cons, firstOf_nil, Option.getD_or]

theorem explicit_config (b : Backend) : (a.config b).explicit = (a.planFor b).config := by
  have hurl : a.settings.serverUrl = firstOf a.serverUrls "http://localhost:11434" := by
    rw [serverUrls, firstOf_cons, firstOf_cons, firstOf_nil, settings_eq]
    simp [Settings.serverUrl, Settings.withEnvironment, Backend.environmentName,
      Backend.defaultBaseUrl, Option.getD_or]
  have htemperature : a.settings.temperature.getD defaultTemperature =
      firstOf [a.file.temperature] defaultTemperature := by
    rw [firstOf_cons, firstOf_nil, settings_eq]
    rfl
  have htokens : a.settings.maxTokens.getD 2048 = firstOf [a.file.maxTokens] 2048 := by
    rw [firstOf_cons, firstOf_nil, settings_eq]
    rfl
  have hconfig : (a.config b).explicit =
      ⟨b, some (a.config b).modelName, if b = .ollama then some a.settings.serverUrl else none,
        a.settings.maxTokens.getD 2048, a.settings.temperature.getD defaultTemperature⟩ := rfl
  rw [hconfig, modelName_config, hurl, htemperature, htokens]
  rfl

theorem key_settings (b : Backend) :
    a.settings.key b = (a.planFor b).key ∧
      (b.needsKey = true →
        (a.planFor b).key = (a.environment b.environmentName).or (a.file.key b)) := by
  have hfirst (x y : Option String) : [x, y].findSome? id = x.or y := by
    cases x <;> cases y <;> rfl
  rw [settings_eq]
  cases b with
  | ollama => exact ⟨rfl, fun h => by cases h⟩
  | anthropic => exact ⟨(Option.orElse_eq_or ..).trans (hfirst _ _).symm, fun _ => hfirst _ _⟩
  | openAi => exact ⟨(Option.orElse_eq_or ..).trans (hfirst _ _).symm, fun _ => hfirst _ _⟩

/-- The client of a backend whose key in the settings file is not empty. -/
theorem connect_config {b : Backend} (h : a.file.key b ≠ some "") :
    (connect (a.config b) (a.settings.key b) a.environment).map Client.explicit =
      (a.planFor b).client := by
  have hok (k : String) : (Except.ok ⟨a.config b, k⟩ : Except Failure Client).map Client.explicit =
      .ok ⟨(a.planFor b).config, k⟩ := by
    rw [Except.map, Client.explicit, explicit_config]
  have hbackend : (a.config b).backend = b := rfl
  rw [connect, hbackend, Plan.client, (a.key_settings b).1]
  change _ = if b.needsKey = true then _ else _
  cases hb : b.needsKey with
  | false => exact hok _
  | true =>
    rw [(a.key_settings b).2 hb]
    cases henv : a.environment b.environmentName with
    | some k =>
      -- an empty key in the environment is passed over first and then taken after all
      by_cases hk : k = ""
      · simpa [hk, Option.filter] using hok ""
      · simpa [hk, Option.filter] using hok k
    | none =>
      cases hfile : a.file.key b with
      | some k =>
        have hk : k ≠ "" := by
          rintro rfl
          exact h hfile
        simpa [hk, Option.filter] using hok k
      | none => rfl

variable {a}

theorem client_eq (h : a.IsKnown) : a.client.map Client.explicit = a.plan.client := by
  have hkey := h.key a.backend
  rw [client, ConvertRequest.client, chosenBackend_eq h, plan]
  generalize a.backend = b at hkey ⊢
  exact a.connect_config hkey

/-- The conversion is carried out by the plan. -/
theorem run_eq (h : a.IsKnown) {m : Type → Type} [Monad m] (send : Transport m) :
    a.request.run send a.environment a.files =
      a.plan.run send a.files a.request.path a.request.dryRun := by
  have hclient := client_eq h
  rw [ConvertRequest.run, Plan.run, ← chosenLanguage_eq h, ← hclient, ← a.outputDirectory_eq]
  change (if !a.files.hasEntry a.request.path then _ else if a.request.dryRun then _ else
    match a.client with | .error f => _ | .ok client => _) = _
  cases a.client with
  | error f => rfl
  | ok client => rfl

/-! ### One setting at a time -/

variable (a) in
/-- What a client is asked with is the first choice in each respect, for its backend. -/
structure AsksWith (c : Client) : Prop where
  model : c.modelName = firstOf (a.modelNames c.backend) c.backend.defaultModel
  endpoint : c.config.endpoint =
    if c.backend = .ollama then
      onBase (firstOf a.serverUrls "http://localhost:11434") "/v1/chat/completions"
    else c.backend.defaultEndpoint
  key : c.key = firstOf (a.keys c.backend) placeholderKey
  temperature : c.config.temperature = firstOf [a.file.temperature] defaultTemperature
  maxTokens : c.config.maxTokens = firstOf [a.file.maxTokens] 2048

theorem asksWith_planFor (b : Backend) {c : Client} (h : (a.planFor b).client = .ok c) :
    c.backend = b ∧ a.AsksWith c := by
  have hclient : c = ⟨(a.planFor b).config, firstOf (a.keys b) placeholderKey⟩ := by
    cases hb : b.needsKey with
    | true =>
      obtain ⟨k, hkey, rfl⟩ := Plan.client_of_needsKey hb h
      change (a.keys b).findSome? id = some k at hkey
      rw [firstOf, hkey, Option.getD_some]
    | false =>
      cases b with
      | ollama =>
        cases h
        rfl
      | anthropic => cases hb
      | openAi => cases hb
  subst hclient
  refine ⟨rfl, rfl, ?_, rfl, rfl, rfl⟩
  cases b <;> rfl

/-- A client that is connected asks with the first choices. -/
theorem asksWith_client (h : a.IsKnown) {c : Client} (hc : a.client = .ok c) :
    c.backend = a.backend ∧ a.AsksWith c := by
  have hplan : a.plan.client = .ok c.explicit := by
    rw [← client_eq h, hc]
    rfl
  rw [plan] at hplan
  obtain ⟨hbackend, hasks⟩ := asksWith_planFor a.backend hplan
  exact ⟨hbackend, hasks.model, hasks.endpoint, hasks.key, hasks.temperature, hasks.maxTokens⟩

/-- Whether a client is connected depends on the backend and on its key. -/
theorem isOk_client (h : a.IsKnown) :
    a.client.isOk = (!a.backend.needsKey || ((a.keys a.backend).findSome? id).isSome) := by
  have hmap : a.client.isOk = (a.client.map Client.explicit).isOk := by
    cases a.client <;> rfl
  rw [hmap, client_eq h, Plan.isOk_client, plan, planFor]

/-- Two clients ask alike in each respect in which the choices for them are the same; for the model,
the address and the key these are the choices for their backend. -/
structure AskAlike (a b : Situation) (c d : Client) : Prop where
  model : c.backend = d.backend → a.modelNames c.backend = b.modelNames c.backend →
    c.modelName = d.modelName
  endpoint : c.backend = d.backend → (c.backend = .ollama → a.serverUrls = b.serverUrls) →
    c.config.endpoint = d.config.endpoint
  key : c.backend = d.backend → a.keys c.backend = b.keys c.backend → c.key = d.key
  temperature : a.file.temperature = b.file.temperature →
    c.config.temperature = d.config.temperature
  maxTokens : a.file.maxTokens = b.file.maxTokens → c.config.maxTokens = d.config.maxTokens

/-- Two conversions use the same for a setting if the choices for it are the same, whatever the
choices for other settings are. -/
structure Independent (a b : Situation) : Prop where
  backend : a.backendNames = b.backendNames →
    a.request.chosenBackend a.settings = b.request.chosenBackend b.settings
  language : a.languageNames = b.languageNames →
    a.request.chosenLanguage a.settings = b.request.chosenLanguage b.settings
  outputDirectory : a.outputDirectories = b.outputDirectories →
    a.request.output.getD a.settings.outputPath = b.request.output.getD b.settings.outputPath
  connected : a.request.chosenBackend a.settings = b.request.chosenBackend b.settings →
    a.keys a.backend = b.keys a.backend → a.client.isOk = b.client.isOk
  client : ∀ c d, a.client = .ok c → b.client = .ok d → AskAlike a b c d

variable {b : Situation}

/-- The files matter for the choices in the settings file alone. -/
theorem plan_congr (hgiven : a.given = b.given) (henvironment : a.environment = b.environment)
    (hfile : a.file = b.file) : a.plan = b.plan := by
  have hkeys : a.keys = b.keys := by
    funext backend
    cases backend <;> simp only [keys, henvironment, hfile]
  have hbackend : a.backend = b.backend := by
    rw [backend, backend, backendNames, backendNames, hgiven, henvironment, hfile]
  rw [plan, plan, hbackend]
  simp only [planFor, modelNames, serverUrls, hkeys, outputDirectories, languageNames, hgiven,
    henvironment, hfile]

theorem askAlike {c d : Client} (hc : a.AsksWith c) (hd : b.AsksWith d) : AskAlike a b c d where
  model hbackend hnames := by rw [hc.model, hd.model, hnames, hbackend]
  endpoint hbackend hurls := by
    rw [hc.endpoint, hd.endpoint, ← hbackend]
    by_cases hlocal : c.backend = .ollama
    · rw [if_pos hlocal, if_pos hlocal, hurls hlocal]
    · rw [if_neg hlocal, if_neg hlocal]
  key hbackend hkeys := by rw [hc.key, hd.key, hkeys, hbackend]
  temperature h := by rw [hc.temperature, hd.temperature, h]
  maxTokens h := by rw [hc.maxTokens, hd.maxTokens, h]

theorem independent (ha : a.IsKnown) (hb : b.IsKnown) : Independent a b where
  backend h := by rw [chosenBackend_eq ha, chosenBackend_eq hb, backend, backend, h]
  language h := by
    rw [chosenLanguage_eq ha, chosenLanguage_eq hb, language_plan, language_plan, h]
  outputDirectory h := by
    rw [outputDirectory_eq, outputDirectory_eq]
    exact congrArg (firstOf · "output") h
  connected h hkeys := by
    rw [chosenBackend_eq ha, chosenBackend_eq hb, Except.ok.injEq] at h
    rw [isOk_client ha, isOk_client hb, ← h, hkeys]
  client c d hc hd := askAlike (asksWith_client ha hc).2 (asksWith_client hb hd).2

end Situation

/-! ## Precedence -/

/-- Each setting of a conversion is the first of its choices. First, the command line asks for a
conversion with what is given on it. If the names that are chosen are known, the conversion is
carried out by its plan, and a client asks as the plan says; no choice counts for a setting other
than its own, the backend apart. In a settings file that cannot be used there are no choices, and it
gives the same settings as an empty one in its place. -/
theorem settings_by_precedence (a : Situation) :
    (a.given.commands = ["convert"] → ∀ arguments, Command.usage.read arguments = .ok a.given →
      Command.ofArguments a.environment arguments = .ok (.convert a.request)) ∧
    (a.IsKnown →
      (∀ (m : Type → Type) [Monad m] (send : Transport m),
        Command.run send a.environment a.files (.convert a.request) =
          a.plan.run send a.files a.request.path a.request.dryRun) ∧
      (∀ c, a.client = .ok c → c.backend = a.backend ∧ a.AsksWith c) ∧
      ∀ b : Situation, b.IsKnown → Situation.Independent a b) ∧
    (Settings.Unusable a.files a.environment → a.file = {} ∧
      ∀ fs path, Settings.filePath a.environment = some path → fs.readText path = .ok "" →
        a.settings = Settings.load fs a.environment ∧
        a.plan = ({ a with files := fs } : Situation).plan) := by
  refine ⟨?_, ?_, ?_⟩
  · intro hcommands arguments hread
    exact a.ofArguments_eq hcommands hread
  · intro ha
    refine ⟨?_, ?_, ?_⟩
    · intro m _ send
      exact Situation.run_eq ha send
    · intro c hc
      exact Situation.asksWith_client ha hc
    · intro b hb
      exact Situation.independent ha hb
  · intro hunusable
    have hnone : a.file = {} := by
      rw [Situation.file, Settings.inFile?_eq_none_iff.mpr hunusable, Option.getD_none]
    refine ⟨hnone, ?_⟩
    intro fs path hpath htext
    have hfile : ({ a with files := fs } : Situation).file = a.file := by
      rw [hnone, Situation.file, Settings.inFile?_of_empty hpath htext, Option.getD_some]
    constructor
    · have hsettings := Situation.settings_eq { a with files := fs }
      rw [hfile] at hsettings
      rw [a.settings_eq]
      exact hsettings.symm
    · exact Situation.plan_congr rfl rfl hfile.symm

/-- The place of the settings file, a backend and a key. -/
def layeredEnvironment : Environment := fun name =>
  if name = "XDG_CONFIG_HOME" then some "/x"
  else if name = "SELENIPORT_BACKEND" then some "anthropic"
  else if name = "ANTHROPIC_API_KEY" then some "k"
  else none

def layered (document : String) : Situation where
  given := ⟨["convert"], [("path", "A.java"), ("model", "m"), ("language", "javascript")]⟩
  environment := layeredEnvironment
  files := settingsFiles document

/-- A settings file with choices, some of which do not count. -/
def layeredDocument : String :=
  "[ai]\nbackend = \"openai\"\nmodel = \"n\"\nmax_tokens = 7\n[convert]\noutput_dir = \"o\"\n"

theorem file_layered : (layered layeredDocument).file =
    { backend := some "openai", model := some "n", maxTokens := some 7,
      outputDirectory := some "o" } := by
  rfl

theorem known_layered {document : String} (h : ∀ b, (layered document).file.key b ≠ some "")
    (hbackend : ∀ name, (layered document).file.backend = some name →
      (Backend.ofName? name).isSome = true)
    (hlanguage : (layered document).file.language = none) : (layered document).IsKnown where
  backend name hname := by
    have hnames : (layered document).backendNames =
      [none, some "anthropic", (layered document).file.backend] := rfl
    rw [hnames] at hname
    rcases List.mem_cons.mp hname with hgiven | hname
    · cases hgiven
    · rcases List.mem_cons.mp hname with hanthropic | hname
      · cases hanthropic
        exact Option.isSome_of_eq_some (Backend.ofName?_name .anthropic)
      · exact hbackend name (List.mem_singleton.mp hname).symm
  language name hname := by
    have hnames : (layered document).languageNames =
      [some "javascript", (layered document).file.language] := rfl
    rw [hnames, hlanguage] at hname
    have hjavascript : name = "javascript" := by simpa using hname
    rw [hjavascript]
    exact Option.isSome_of_eq_some (Language.ofName?_name .javaScript)
  key := h

theorem settings_by_precedence_layers :
    (Command.ofArguments layeredEnvironment
      ["convert", "A.java", "--model", "m", "-l", "javascript"] =
      .ok (.convert (layered layeredDocument).request)) ∧
    ((layered layeredDocument).IsKnown ∧ (layered "").IsKnown ∧
      (layered layeredDocument).client.isOk = true ∧
      (∀ c, (layered layeredDocument).client = .ok c →
        c.backend = .anthropic ∧ c.modelName = "m" ∧ c.key = "k" ∧ c.config.maxTokens = 7) ∧
      Situation.Independent (layered layeredDocument) (layered "")) ∧
    Settings.Unusable (settingsFiles "[ai") layeredEnvironment ∧
      (layered "[ai").settings = (layered "").settings := by
  have hdocument : (layered layeredDocument).IsKnown := by
    apply known_layered
    · intro b
      rw [file_layered]
      cases b <;> exact fun h => by cases h
    · intro name hname
      rw [file_layered] at hname
      cases hname
      exact Option.isSome_of_eq_some (Backend.ofName?_name .openAi)
    · rw [file_layered]
  have hempty : (layered "").IsKnown := by
    have hfile : (layered "").file = {} := rfl
    apply known_layered
    · intro b
      rw [hfile]
      cases b <;> exact fun h => by cases h
    · intro name hname
      rw [hfile] at hname
      cases hname
    · rw [hfile]
  have hbackend : (layered layeredDocument).backend = .anthropic := by
    have hfirst : firstOf (layered layeredDocument).backendNames "ollama" = "anthropic" := rfl
    have hknown : Backend.ofName? "anthropic" = some .anthropic := Backend.ofName?_name .anthropic
    rw [Situation.backend, hfirst, hknown, Option.getD_some]
  have hplace : Settings.filePath layeredEnvironment = some settingsPath := by
    decide +kernel
  have hunusable : Settings.Unusable (settingsFiles "[ai") layeredEnvironment :=
    .malformed hplace (readText_settingsFiles "[ai") rfl
  refine ⟨?_, ⟨hdocument, hempty, ?_, ?_, ?_⟩, hunusable, ?_⟩
  · exact (settings_by_precedence (layered layeredDocument)).1 rfl _ rfl
  · rw [Situation.isOk_client hdocument, hbackend]
    rfl
  · intro c hc
    obtain ⟨hchosen, hasks⟩ :=
      ((settings_by_precedence (layered layeredDocument)).2.1 hdocument).2.1 c hc
    rw [hbackend] at hchosen
    refine ⟨hchosen, ?_, ?_, ?_⟩
    · rw [hasks.model, hchosen]
      rfl
    · rw [hasks.key, hchosen]
      rfl
    · rw [hasks.maxTokens, file_layered]
      rfl
  · exact ((settings_by_precedence (layered layeredDocument)).2.1 hdocument).2.2 _ hempty
  · exact (((settings_by_precedence (layered "[ai")).2.2 hunusable).2 (settingsFiles "") _ hplace
      (readText_settingsFiles "")).1

end TestConversion
