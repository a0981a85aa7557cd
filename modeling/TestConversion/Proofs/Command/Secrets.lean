import TestConversion.Proofs.Command.Requests
import TestConversion.Proofs.Files.Changes
import TestConversion.Proofs.Text.Lines
import Mathlib.Data.Option.Basic
import Mathlib.Data.List.Basic
import Mathlib.Data.Nat.Init

/-!
# What keys can be told from

Two runs whose settings files and environments differ in keys alone show and check the same
settings: neither command tells one key from another, except that the last characters of the key of
the chosen backend are shown, if it has more than these. But a settings file that is no settings
document is warned of with the words of the decoder, who quotes the line with the fault, and keys
can stand in it.

* `maskKey_eq_iff`: when two keys are shown alike.
* `Settings.withoutKeys_load`: keys are read from files and variables into nothing but keys.
* `warnings_eq_iff`: when the warnings are the same.
* `secrets_kept`: what is shown does not tell keys apart that are shown alike.
* `document_logged`, `key_logged`: warnings with whole keys.
-/

namespace TestConversion

open Files Model

/-! ## Masks -/

/-- Two keys of at most four characters, or two longer ones with the same last four. -/
def LooksLike (a b : String) : Prop :=
  (a.toList.length ≤ 4 ∧ b.toList.length ≤ 4) ∨
    4 < a.toList.length ∧ 4 < b.toList.length ∧
      a.toList.drop (a.toList.length - 4) = b.toList.drop (b.toList.length - 4)

theorem maskKey_of_short {key : String} (h : key.toList.length ≤ 4) : maskKey key = "****" :=
  if_pos h

theorem maskKey_of_long {key : String} (h : 4 < key.toList.length) :
    maskKey key = "****" ++ String.ofList (key.toList.drop (key.toList.length - 4)) :=
  if_neg (Nat.not_le_of_lt h)

/-- The mask of a long key is longer than that of a short one. -/
theorem maskKey_ne {a b : String} (ha : a.toList.length ≤ 4) (hb : 4 < b.toList.length) :
    maskKey a ≠ maskKey b := by
  intro h
  rw [maskKey_of_short ha, maskKey_of_long hb] at h
  have hlength := congrArg (·.toList.length) h
  have hstars : "****".toList.length = 4 := rfl
  simp only [String.toList_append, String.toList_ofList, List.length_append, List.length_drop,
    hstars] at hlength
  omega

theorem maskKey_eq_iff (a b : String) : maskKey a = maskKey b ↔ LooksLike a b := by
  rcases Nat.lt_or_ge 4 a.toList.length with ha | ha
  · rcases Nat.lt_or_ge 4 b.toList.length with hb | hb
    · rw [maskKey_of_long ha, maskKey_of_long hb, String.append_right_inj, String.ofList_inj]
      constructor
      · intro h
        exact Or.inr ⟨ha, hb, h⟩
      · rintro (⟨hshort, -⟩ | ⟨-, -, h⟩)
        · omega
        · exact h
    · refine iff_of_false (maskKey_ne hb ha).symm ?_
      rintro (⟨hshort, -⟩ | ⟨-, hlong, -⟩) <;> omega
  · rcases Nat.lt_or_ge 4 b.toList.length with hb | hb
    · refine iff_of_false (maskKey_ne ha hb) ?_
      rintro (⟨-, hshort⟩ | ⟨hlong, -, -⟩) <;> omega
    · rw [maskKey_of_short ha, maskKey_of_short hb]
      exact iff_of_true rfl (Or.inl ⟨ha, hb⟩)

/-! ## Documents that differ in keys -/

namespace Toml

/-- The names of keys in a table about the model. -/
def keyNames : List String := ["anthropic_api_key", "openai_api_key"]

/-- The places of keys in a list about the model. -/
def keyPlaces : List Nat := [4, 5]

/-- The members are the same, apart from keys. -/
def Members.SameButKeys (ms ms' : Members) : Prop :=
  ∀ name, name ∉ keyNames → ms.get? name = ms'.get? name

/-- Two values about the model are the same, apart from keys. -/
inductive Value.SameButKeys : Value → Value → Prop
  | same (v : Value) : Value.SameButKeys v v
  | table {ms ms' : Members} (origin : Origin) (h : ms.SameButKeys ms') :
      Value.SameButKeys (.table origin ms) (.table origin ms')
  | closed {ms ms' : Members} (h : ms.SameButKeys ms') :
      Value.SameButKeys (.closed ms) (.closed ms')
  | list {vs vs' : List Value} (hlength : vs.length = vs'.length)
      (others : ∀ i, i ∉ keyPlaces → vs[i]? = vs'[i]?) :
      Value.SameButKeys (.list vs) (.list vs')

/-- Two settings documents are the same, apart from keys. -/
structure DocumentsSameButKeys (ms ms' : Members) : Prop where
  others : ∀ name, name ≠ "ai" → ms.get? name = ms'.get? name
  model : Option.Rel Value.SameButKeys (ms.get? "ai") (ms'.get? "ai")

end Toml

namespace Settings

open Toml

/-! ## Reading documents -/

/-- All choices but the keys. -/
def withoutKeys (s : Settings) : Settings := { s with anthropicKey := none, openAiKey := none }

/-- Settings with the same choices apart from keys are one with the keys of the other put in. -/
theorem exists_keys {s s' : Settings} (h : s.withoutKeys = s'.withoutKeys) :
    ∃ anthropic openAi, s' = { s with anthropicKey := anthropic, openAiKey := openAi } := by
  refine ⟨s'.anthropicKey, s'.openAiKey, ?_⟩
  cases s
  cases s'
  simp only [withoutKeys, Settings.mk.injEq] at h ⊢
  simp [h]

theorem chosenBackend_congr {s s' : Settings} (h : s.withoutKeys = s'.withoutKeys) :
    s.chosenBackend = s'.chosenBackend := by
  obtain ⟨anthropic, openAi, rfl⟩ := exists_keys h
  rfl

theorem fieldsOf_list {vs : List Value} (h : modelFields.length ≤ vs.length) :
    fieldsOf modelFields (.list vs) = some ((List.range modelFields.length).map (vs[·]?)) := by
  rw [fieldsOf, if_pos h]
  congr 1
  apply List.ext_getElem (by simp [h])
  intro i hi hi'
  simp only [List.length_map, List.length_range] at hi'
  simp [List.getElem?_eq_getElem (Nat.lt_of_lt_of_le hi' h)]

/-- The fields of two values about the model are the same, or both values have all of them and
differ in keys. -/
theorem fieldsOf_of_sameButKeys {v v' : Value} (h : v.SameButKeys v') :
    fieldsOf modelFields v = fieldsOf modelFields v' ∨
      ∃ backend model url serverModel anthropic anthropic' openAi openAi' temperature tokens,
        fieldsOf modelFields v =
          some [backend, model, url, serverModel, anthropic, openAi, temperature, tokens] ∧
        fieldsOf modelFields v' =
          some [backend, model, url, serverModel, anthropic', openAi', temperature, tokens] := by
  have hmembers : ∀ {ms ms' : Members}, ms.SameButKeys ms' →
      modelFields.map ms'.get? = [ms.get? "backend", ms.get? "model", ms.get? "ollama_url",
        ms.get? "ollama_model", ms'.get? "anthropic_api_key", ms'.get? "openai_api_key",
        ms.get? "temperature", ms.get? "max_tokens"] := by
    intro ms ms' h
    simp only [modelFields, List.map_cons, List.map_nil]
    rw [h "backend" (by decide), h "model" (by decide), h "ollama_url" (by decide),
      h "ollama_model" (by decide), h "temperature" (by decide), h "max_tokens" (by decide)]
  cases h with
  | same v => exact Or.inl rfl
  | table origin h =>
    exact Or.inr ⟨_, _, _, _, _, _, _, _, _, _, rfl, congrArg some (hmembers h)⟩
  | closed h => exact Or.inr ⟨_, _, _, _, _, _, _, _, _, _, rfl, congrArg some (hmembers h)⟩
  | @list vs vs' hlength others =>
    by_cases hfew : modelFields.length ≤ vs.length
    · refine Or.inr ⟨vs[0]?, vs[1]?, vs[2]?, vs[3]?, vs[4]?, vs'[4]?, vs[5]?, vs'[5]?, vs[6]?,
        vs[7]?, fieldsOf_list hfew, ?_⟩
      rw [fieldsOf_list (hlength ▸ hfew), others 0 (by decide), others 1 (by decide),
        others 2 (by decide), others 3 (by decide), others 6 (by decide), others 7 (by decide)]
      rfl
    · left
      rw [fieldsOf, fieldsOf, if_neg hfew, if_neg (hlength ▸ hfew)]

/-- Two readings of a document give the same choices apart from keys, if both succeed. -/
def SameReading (o o' : Option Settings) : Prop :=
  ∀ s, o = some s → ∀ s', o' = some s' → s.withoutKeys = s'.withoutKeys

theorem withModelTable_of_sameButKeys (s : Settings) {v v' : Value} (h : v.SameButKeys v') :
    SameReading (withModelTable s v) (withModelTable s v') := by
  intro r hr r' hr'
  rcases fieldsOf_of_sameButKeys h with heq |
    ⟨backend, model, url, serverModel, anthropic, anthropic', openAi, openAi', temperature, tokens,
      hfields, hfields'⟩
  · rw [withModelTable, heq, ← withModelTable, hr'] at hr
    cases hr
    rfl
  · simp only [withModelTable, hfields, hfields', Option.bind_eq_bind,
      Option.bind_eq_some_iff] at hr hr'
    obtain ⟨b, hb, n, hn, u, hu, l, hl, a, -, o, -, t, ht, k, hk, hr⟩ := hr
    obtain ⟨b', hb', n', hn', u', hu', l', hl', a', -, o', -, t', ht', k', hk', hr'⟩ := hr'
    cases hb.symm.trans hb'
    cases hn.symm.trans hn'
    cases hu.symm.trans hu'
    cases hl.symm.trans hl'
    cases ht.symm.trans ht'
    cases hk.symm.trans hk'
    cases hr
    cases hr'
    rfl

theorem withConversionTable_of_withoutKeys {s s' : Settings} (h : s.withoutKeys = s'.withoutKeys)
    (v : Value) : SameReading (withConversionTable s v) (withConversionTable s' v) := by
  obtain ⟨anthropic, openAi, rfl⟩ := exists_keys h
  intro r hr r' hr'
  rw [withConversionTable] at hr hr'
  split at hr
  · rename_i hfields
    simp only [hfields, Option.bind_eq_bind, Option.bind_eq_some_iff] at hr hr'
    obtain ⟨l, hl, d, hd, hr⟩ := hr
    obtain ⟨l', hl', d', hd', hr'⟩ := hr'
    cases hl.symm.trans hl'
    cases hd.symm.trans hd'
    cases hr
    cases hr'
    rfl
  · cases hr

theorem ofDocument?_of_sameButKeys {ms ms' : Members} (h : DocumentsSameButKeys ms ms') :
    SameReading (ofDocument? ms) (ofDocument? ms') := by
  intro r hr r' hr'
  obtain ⟨s, hs, hr⟩ := Option.bind_eq_some_iff.mp hr
  obtain ⟨s', hs', hr'⟩ := Option.bind_eq_some_iff.mp hr'
  have hmodel := h.model
  have hkeys : s.withoutKeys = s'.withoutKeys := by
    generalize ms.get? "ai" = v, ms'.get? "ai" = v' at hmodel hs hs'
    cases hmodel with
    | none =>
      cases hs
      cases hs'
      rfl
    | some hv => exact withModelTable_of_sameButKeys {} hv s hs s' hs'
  rw [h.others "convert" (by decide)] at hr
  cases hconvert : ms'.get? "convert" with
  | none =>
    rw [hconvert] at hr hr'
    cases hr
    cases hr'
    exact hkeys
  | some v =>
    rw [hconvert] at hr hr'
    exact withConversionTable_of_withoutKeys hkeys v r hr r' hr'

/-! ## Loading -/

/-- The document in a file, if there is one that can be read. -/
def document? (fs : FileSystem) (path : String) : Option Members :=
  (fs.readText path).toOption.bind Toml.parse

theorem ofFile_eq (fs : FileSystem) (path : String) :
    ofFile fs path = ((document? fs path).bind ofDocument?).getD {} := by
  rw [ofFile, document?]
  cases fs.readText path with
  | error fault => rfl
  | ok text =>
    change ofText text = ((Toml.parse text).bind ofDocument?).getD {}
    rw [ofText]
    cases (Toml.parse text).bind ofDocument? with
    | none => rfl
    | some s => exact merge_empty s

theorem ofFile_of_sameButKeys {fs fs' : FileSystem} {path : String}
    (h : Option.Rel DocumentsSameButKeys (document? fs path) (document? fs' path))
    (hcount : ((document? fs path).bind ofDocument?).isSome =
      ((document? fs' path).bind ofDocument?).isSome) :
    (ofFile fs path).withoutKeys = (ofFile fs' path).withoutKeys := by
  have hreading : SameReading ((document? fs path).bind ofDocument?)
      ((document? fs' path).bind ofDocument?) := by
    generalize document? fs path = d, document? fs' path = d' at h
    cases h with
    | none =>
      intro s hs
      cases hs
    | some hdocument => exact ofDocument?_of_sameButKeys hdocument
  rw [ofFile_eq, ofFile_eq]
  cases hs : (document? fs path).bind ofDocument? with
  | none =>
    rw [hs, Option.isSome_none] at hcount
    rw [Option.isSome_eq_false_iff.mp hcount.symm |> Option.isNone_iff_eq_none.mp]
  | some s =>
    rw [hs, Option.isSome_some] at hcount
    obtain ⟨s', hs'⟩ := Option.isSome_iff_exists.mp hcount.symm
    rw [hs', Option.getD_some, Option.getD_some]
    exact hreading s hs s' hs'

end Settings

/-- The variables are the same, apart from those with keys. -/
def Environment.SameButKeys (environment environment' : Environment) : Prop :=
  ∀ name, (∀ b : Backend, b.needsKey = true → name ≠ b.environmentName) →
    environment name = environment' name

/-- Two settings files are there or not together, cannot be read for the same reason if at all, and
are the same, apart from keys. -/
structure FilesSameButKeys (fs fs' : FileSystem) (path : String) : Prop where
  entry : fs.hasEntry path = fs'.hasEntry path
  fault : ∀ fault, fs.readText path = .error fault ↔ fs'.readText path = .error fault
  document : Option.Rel Toml.DocumentsSameButKeys (Settings.document? fs path)
    (Settings.document? fs' path)

/-- Two runs find settings files and environments that are the same, apart from keys. -/
structure SameButKeys (fs fs' : FileSystem) (environment environment' : Environment) : Prop where
  sameVariables : environment.SameButKeys environment'
  sameFile : ∀ path ∈ Settings.filePath environment, FilesSameButKeys fs fs' path

/-- The choices in two settings files count, or they do not in either file: a value of a key can be
such that the file with it is no settings document. -/
def CountTogether (fs fs' : FileSystem) (environment : Environment) : Prop :=
  ∀ path ∈ Settings.filePath environment,
    ((Settings.document? fs path).bind Settings.ofDocument?).isSome =
      ((Settings.document? fs' path).bind Settings.ofDocument?).isSome

namespace Environment.SameButKeys

variable {environment environment' : Environment}

theorem eq_of_ne (h : environment.SameButKeys environment') {name : String}
    (hanthropic : name ≠ "ANTHROPIC_API_KEY") (hopenAi : name ≠ "OPENAI_API_KEY") :
    environment name = environment' name := by
  apply h
  intro b hb
  cases b with
  | ollama => cases hb
  | anthropic => exact hanthropic
  | openAi => exact hopenAi

theorem filePath (h : environment.SameButKeys environment') :
    Settings.filePath environment = Settings.filePath environment' := by
  have hconfig : environment "XDG_CONFIG_HOME" = environment' "XDG_CONFIG_HOME" :=
    h.eq_of_ne (by decide) (by decide)
  have hhome : environment "HOME" = environment' "HOME" := h.eq_of_ne (by decide) (by decide)
  simp only [Settings.filePath, Settings.configDirectory, hconfig, hhome]

theorem withEnvironment (h : environment.SameButKeys environment') {s s' : Settings}
    (hs : s.withoutKeys = s'.withoutKeys) :
    (s.withEnvironment environment).withoutKeys =
      (s'.withEnvironment environment').withoutKeys := by
  obtain ⟨anthropic, openAi, rfl⟩ := Settings.exists_keys hs
  have hbackend : environment "SELENIPORT_BACKEND" = environment' "SELENIPORT_BACKEND" :=
    h.eq_of_ne (by decide) (by decide)
  have hmodel : environment "SELENIPORT_MODEL" = environment' "SELENIPORT_MODEL" :=
    h.eq_of_ne (by decide) (by decide)
  have hserver : environment Backend.ollama.environmentName =
      environment' Backend.ollama.environmentName := h.eq_of_ne (by decide) (by decide)
  simp only [Settings.withoutKeys, Settings.withEnvironment, hbackend, hmodel, hserver]

end Environment.SameButKeys

variable {fs fs' : FileSystem} {environment environment' : Environment}

/-- Keys in files and variables make a difference for keys only. -/
theorem Settings.withoutKeys_load (h : SameButKeys fs fs' environment environment')
    (hcount : CountTogether fs fs' environment) :
    (Settings.load fs environment).withoutKeys = (Settings.load fs' environment').withoutKeys := by
  apply h.sameVariables.withEnvironment
  rw [← h.sameVariables.filePath]
  cases hpath : Settings.filePath environment with
  | none => rfl
  | some path =>
    exact Settings.ofFile_of_sameButKeys (h.sameFile path hpath).document (hcount path hpath)

/-! ## What is shown -/

namespace Command

theorem lines_append (texts more : List String) :
    lines (texts ++ more) = lines texts ++ lines more := by
  rw [lines, List.map_append, String.join_append, lines, lines]

/-- The lines that are shown before the key. -/
def modelLines (s : Settings) : List String :=
  let config := s.modelConfig s.chosenBackend
  [ "🤖 AI Backend: " ++ s.chosenBackend.name,
    "  Model:       " ++ config.modelName,
    "  Endpoint:    " ++ config.endpoint,
    "  Temperature: " ++ Number.plainNumeral config.temperature,
    "  Max tokens:  " ++ toString config.maxTokens ]

/-- The lines that are shown behind the key. -/
def conversionLines (s : Settings) : List String :=
  [ "",
    "📝 Conversion:",
    "  Language:   " ++ s.chosenLanguage.name,
    "  Output dir: " ++ s.outputPath ]

theorem settingsLines_eq (s : Settings) : settingsLines s =
    modelLines s ++ (if s.chosenBackend.needsKey then [keyLine s s.chosenBackend] else []) ++
      conversionLines s := rfl

/-- Keys are missing together, or they look alike. -/
def KeysLookAlike (key key' : Option String) : Prop := Option.Rel LooksLike key key'

theorem keyLine_eq_iff (s s' : Settings) (b : Backend) :
    keyLine s b = keyLine s' b ↔ KeysLookAlike (s.key b) (s'.key b) := by
  have hmark : ∀ key, "✗ not set" ≠ "✓ " ++ maskKey key := by
    intro key h
    have hhead : some '✗' = ("✓ ".toList ++ (maskKey key).toList).head? := by
      rw [← String.toList_append, ← h]
      rfl
    exact absurd hhead (by simp)
  rw [keyLine, keyLine, String.append_right_inj, KeysLookAlike]
  cases s.key b with
  | none =>
    cases s'.key b with
    | none => exact iff_of_true rfl .none
    | some k' => exact iff_of_false (hmark k') (by rintro ⟨⟩)
  | some k =>
    cases s'.key b with
    | none => exact iff_of_false (hmark k).symm (by rintro ⟨⟩)
    | some k' =>
      simp only [String.append_right_inj, maskKey_eq_iff]
      constructor
      · exact .some
      · rintro ⟨h⟩
        exact h

theorem settingsLines_eq_iff {s s' : Settings} (h : s.withoutKeys = s'.withoutKeys) :
    lines (settingsLines s) = lines (settingsLines s') ↔
      (s.chosenBackend.needsKey = true →
        KeysLookAlike (s.key s.chosenBackend) (s'.key s.chosenBackend)) := by
  have hmodel : modelLines s = modelLines s' := by
    obtain ⟨anthropic, openAi, rfl⟩ := Settings.exists_keys h
    rfl
  have hconversion : conversionLines s = conversionLines s' := by
    obtain ⟨anthropic, openAi, rfl⟩ := Settings.exists_keys h
    rfl
  rw [settingsLines_eq, settingsLines_eq, hmodel, hconversion, Settings.chosenBackend_congr h,
    lines_append, lines_append, lines_append, lines_append, String.append_left_inj,
    String.append_right_inj]
  cases s'.chosenBackend.needsKey with
  | false => simp
  | true =>
    have hline : ∀ line, lines [line] = line ++ "\n" := by
      intro line
      simp [lines]
    simp only [if_true, true_imp_iff, hline, String.append_left_inj, keyLine_eq_iff]

/-- The line with the place of the settings file. -/
def placeLines (environment : Environment) (fs : FileSystem) : List String :=
  ((Settings.filePath environment).map fun path =>
    "  User: " ++ path ++ " " ++ if fs.hasEntry path then "✓" else "(not found)").toList

theorem placeLines_of_sameButKeys (h : SameButKeys fs fs' environment environment') :
    placeLines environment fs = placeLines environment' fs' := by
  rw [placeLines, placeLines, ← h.sameVariables.filePath]
  cases hpath : Settings.filePath environment with
  | none => rfl
  | some path => simp only [Option.map_some, (h.sameFile path hpath).entry]

theorem output_presentSettings (environment : Environment) (fs : FileSystem) :
    (presentSettings environment fs).output =
      ("📁 Config path:" :: placeLines environment fs ++ [""]) ++
        settingsLines (Settings.load fs environment) := by
  simp [presentSettings, placeLines]

/-- What a run shows: what it prints, its notices and its status. -/
def Result.shown (r : Result) : String × String × Nat := (r.outputText, r.noticeText, r.status)

theorem shown_presentSettings_iff (h : SameButKeys fs fs' environment environment')
    (hcount : CountTogether fs fs' environment) :
    let s := Settings.load fs environment
    (presentSettings environment fs).shown = (presentSettings environment' fs').shown ↔
      (s.chosenBackend.needsKey = true → KeysLookAlike (s.key s.chosenBackend)
        ((Settings.load fs' environment').key s.chosenBackend)) := by
  intro s
  have houtput : ∀ (environment : Environment) (fs : FileSystem),
      (presentSettings environment fs).outputText =
        lines ("📁 Config path:" :: placeLines environment fs ++ [""]) ++
          lines (settingsLines (Settings.load fs environment)) := by
    intro environment fs
    rw [Result.outputText, output_presentSettings, lines_append]
  rw [← settingsLines_eq_iff (Settings.withoutKeys_load h hcount), Result.shown, Result.shown,
    houtput, houtput, placeLines_of_sameButKeys h]
  simp only [Prod.mk.injEq, String.append_right_inj]
  exact and_iff_left ⟨rfl, rfl⟩

/-! ## What is checked -/

variable {m : Type → Type} [Monad m]

theorem backendFinding_congr (send : Transport m) {s s' : Settings}
    (h : s.withoutKeys = s'.withoutKeys)
    (hkey : s.chosenBackend.needsKey = true →
      (s.key s.chosenBackend).isSome = (s'.key s.chosenBackend).isSome) :
    backendFinding send s = backendFinding send s' := by
  have hfinding : ∀ b, (s.key b).isSome = (s'.key b).isSome → keyFinding s b = keyFinding s' b := by
    intro b hb
    rw [keyFinding, keyFinding, hb]
  rw [backendFinding, backendFinding, ← Settings.chosenBackend_congr h]
  cases hb : s.chosenBackend with
  | ollama =>
    obtain ⟨anthropic, openAi, rfl⟩ := Settings.exists_keys h
    rfl
  | anthropic => exact congrArg pure (hfinding _ (by rw [hb] at hkey; exact hkey rfl))
  | openAi => exact congrArg pure (hfinding _ (by rw [hb] at hkey; exact hkey rfl))

theorem shown_examine [LawfulMonad m] (send : Transport m)
    (hfinding : backendFinding send (Settings.load fs environment) =
      backendFinding send (Settings.load fs' environment')) :
    Result.shown <$> examine send environment fs =
      Result.shown <$> examine send environment' fs' := by
  rw [examine, examine, hfinding, map_bind, map_bind]
  congr 1
  funext finding
  dsimp only
  split <;> simp only [map_pure] <;> rfl

/-! ## What is logged -/

/-- What the decoder says of the two settings files is the same, if they are no settings
documents. -/
def ToldAlike (describe : String → String) (fs fs' : FileSystem) (environment : Environment) :
    Prop :=
  ∀ path ∈ Settings.filePath environment, ∀ text text', fs.readText path = .ok text →
    fs'.readText path = .ok text' → (Toml.parse text).bind Settings.ofDocument? = none →
    describe text = describe text'

theorem hasEntry_of_readText {path text : String} (h : fs.readText path = .ok text) :
    fs.hasEntry path = true := by
  rw [FileSystem.readText] at h
  cases hread : fs.read path with
  | error fault =>
    rw [hread] at h
    cases h
  | ok content =>
    obtain ⟨l, hl, hc⟩ := FileSystem.read_eq_ok.mp hread
    simp [FileSystem.hasEntry, FileSystem.entry?, hl, hc]

/-- A file that is read is told of exactly if it is no settings document. -/
theorem fileWarning_of_readText (describe : String → String) {path text : String}
    (h : fs.readText path = .ok text) : Settings.fileWarning describe fs path =
      if ((Toml.parse text).bind Settings.ofDocument?).isSome then none
      else some ("Ignoring invalid config " ++ path ++ ": " ++ describe text) := by
  rw [Settings.fileWarning, if_pos (hasEntry_of_readText h), h]
  dsimp only
  cases (Toml.parse text).bind Settings.ofDocument? <;> rfl

theorem fileWarning_eq_iff (describe : String → String) {path : String}
    (h : FilesSameButKeys fs fs' path)
    (hcount : ((Settings.document? fs path).bind Settings.ofDocument?).isSome =
      ((Settings.document? fs' path).bind Settings.ofDocument?).isSome) :
    Settings.fileWarning describe fs path = Settings.fileWarning describe fs' path ↔
      ∀ text text', fs.readText path = .ok text → fs'.readText path = .ok text' →
        (Toml.parse text).bind Settings.ofDocument? = none → describe text = describe text' := by
  cases hread : fs.readText path with
  | error fault =>
    refine iff_of_true ?_ fun _ _ htext => by cases htext
    rw [Settings.fileWarning, Settings.fileWarning, h.entry, hread, (h.fault fault).mp hread]
  | ok text =>
    cases hread' : fs'.readText path with
    | error fault =>
      rw [(h.fault fault).mpr hread'] at hread
      cases hread
    | ok text' =>
      have hdocument : Settings.document? fs path = Toml.parse text := by
        rw [Settings.document?, hread]
        rfl
      have hdocument' : Settings.document? fs' path = Toml.parse text' := by
        rw [Settings.document?, hread']
        rfl
      rw [hdocument, hdocument'] at hcount
      rw [fileWarning_of_readText describe hread, fileWarning_of_readText describe hread', ← hcount]
      cases hs : (Toml.parse text).bind Settings.ofDocument? with
      | some s =>
        refine iff_of_true rfl fun t t' ht _ hnone => ?_
        cases ht
        rw [hs] at hnone
        cases hnone
      | none =>
        simp only [Option.isSome_none, Bool.false_eq_true, if_false, Option.some.injEq,
          String.append_right_inj]
        constructor
        · intro hsame t t' ht ht' _
          cases ht
          cases ht'
          exact hsame
        · intro hsame
          exact hsame text text' rfl rfl hs

theorem loadWarning_eq_iff (describe : String → String)
    (h : SameButKeys fs fs' environment environment')
    (hcount : CountTogether fs fs' environment) :
    Settings.loadWarning describe fs environment = Settings.loadWarning describe fs' environment' ↔
      ToldAlike describe fs fs' environment := by
  rw [Settings.loadWarning, Settings.loadWarning, ToldAlike, ← h.sameVariables.filePath]
  cases hpath : Settings.filePath environment with
  | none => exact iff_of_true rfl fun _ hmem => by cases hmem
  | some path =>
    rw [Option.bind_some, Option.bind_some,
      fileWarning_eq_iff describe (h.sameFile path hpath) (hcount path hpath)]
    constructor
    · rintro hsame _ ⟨⟩
      exact hsame
    · intro hsame
      exact hsame path rfl

/-- The warnings are the same exactly if the decoder says the same of both settings files. -/
theorem warnings_eq_iff (describe : String → String)
    (h : SameButKeys fs fs' environment environment')
    (hcount : CountTogether fs fs' environment) {c : Command}
    (hc : c ∈ [Command.showSettings, .doctor]) :
    warnings describe environment fs c = warnings describe environment' fs' c ↔
      ToldAlike describe fs fs' environment := by
  obtain ⟨anthropic, openAi, hload⟩ :=
    Settings.exists_keys (Settings.withoutKeys_load h hcount)
  have hbackend : (Settings.load fs' environment').backendWarning =
      (Settings.load fs environment).backendWarning := by
    rw [hload]
    rfl
  have hlanguage : (Settings.load fs' environment').languageWarning =
      (Settings.load fs environment).languageWarning := by
    rw [hload]
    rfl
  have htoList (o o' : Option String) : o.toList = o'.toList ↔ o = o' := by
    cases o <;> cases o' <;> simp
  rw [← loadWarning_eq_iff describe h hcount]
  simp only [List.mem_cons, List.not_mem_nil, or_false] at hc
  rcases hc with rfl | rfl
  · simp only [warnings, hbackend, hlanguage, List.append_left_inj, htoList]
  · simp only [warnings, hbackend, List.append_left_inj, htoList]

/-- The decoder quotes a line of each document that it cannot decode. -/
def QuotesLine (describe : String → String) : Prop :=
  ∀ document, (Toml.parse document).bind Settings.ofDocument? = none →
    ∃ line ∈ Text.lines document, line <:+: (describe document).toList

/-- A settings file of one line is logged as it is, with its keys, if it is no settings document and
the decoder quotes lines. -/
theorem document_logged {describe : String → String} (hquotes : QuotesLine describe)
    {path text : String} (hpath : Settings.filePath environment = some path)
    (htext : fs.readText path = .ok text) (hline : Text.breaks text = 0)
    (hnone : (Toml.parse text).bind Settings.ofDocument? = none) {c : Command}
    (hc : c ∈ [Command.showSettings, .doctor]) :
    ∃ warning ∈ warnings describe environment fs c, text.toList <:+: warning.toList := by
  have hwarning : Settings.loadWarning describe fs environment =
      some ("Ignoring invalid config " ++ path ++ ": " ++ describe text) := by
    rw [Settings.loadWarning, hpath, Option.bind_some, fileWarning_of_readText describe htext,
      hnone]
    rfl
  obtain ⟨line, hmem, hinfix⟩ := hquotes text hnone
  have hwhole : line = text.toList := by
    rw [Text.lines_of_unbroken hline] at hmem
    exact List.mem_singleton.mp hmem
  refine ⟨"Ignoring invalid config " ++ path ++ ": " ++ describe text, ?_, ?_⟩
  · simp only [List.mem_cons, List.not_mem_nil, or_false] at hc
    rcases hc with rfl | rfl <;> simp [warnings, hwarning]
  · rw [hwhole] at hinfix
    rw [String.toList_append]
    exact hinfix.trans (List.suffix_append _ _).isInfix

/-! ## Keys apart -/

/-- Two runs find settings files and variables that are the same apart from keys, and both files are
settings documents or neither is. They show the same settings exactly if the chosen backend needs no
key, or its keys are missing together or look alike; and then a check shows the same as well. No
other key makes a difference there, and keys look alike exactly if their masks are the same. But the
warnings are the same exactly if the decoder says the same of two files that are no settings
documents. -/
theorem secrets_kept [LawfulMonad m] (send : Transport m) (describe : String → String)
    (h : SameButKeys fs fs' environment environment')
    (hcount : CountTogether fs fs' environment) :
    let s := Settings.load fs environment
    let s' := Settings.load fs' environment'
    let alike := s.chosenBackend.needsKey = true →
      KeysLookAlike (s.key s.chosenBackend) (s'.key s.chosenBackend)
    s'.chosenBackend = s.chosenBackend ∧
      (alike → ∀ c ∈ [Command.showSettings, .doctor],
        Result.shown <$> run send environment fs c = Result.shown <$> run send environment' fs' c) ∧
      (¬ alike →
        (presentSettings environment fs).shown ≠ (presentSettings environment' fs').shown) ∧
      (∀ c ∈ [Command.showSettings, .doctor],
        warnings describe environment fs c = warnings describe environment' fs' c ↔
          ToldAlike describe fs fs' environment) ∧
      ∀ key key', maskKey key = maskKey key' ↔ LooksLike key key' := by
  intro s s' alike
  have hkeys : s.withoutKeys = s'.withoutKeys := Settings.withoutKeys_load h hcount
  have hset : ∀ {key key' : Option String}, KeysLookAlike key key' → key.isSome = key'.isSome := by
    rintro _ _ (_ | _) <;> rfl
  refine ⟨(Settings.chosenBackend_congr hkeys).symm, fun halike c hc => ?_,
    mt (shown_presentSettings_iff h hcount).mp, fun c hc => warnings_eq_iff describe h hcount hc,
    maskKey_eq_iff⟩
  simp only [List.mem_cons, List.not_mem_nil, or_false] at hc
  rcases hc with rfl | rfl
  · rw [run, run, map_pure, map_pure, (shown_presentSettings_iff h hcount).mpr halike]
  · exact shown_examine send (backendFinding_congr send hkeys fun hneeds => hset (halike hneeds))

/-! ## Samples -/

/-- The place of the settings file, and perhaps a key for one of the hosted backends. -/
def keyedEnvironment (key : Option String) : Environment := fun name =>
  if name = "XDG_CONFIG_HOME" then some "/x"
  else if name = "ANTHROPIC_API_KEY" then key
  else none

theorem filePath_keyedEnvironment (key : Option String) :
    Settings.filePath (keyedEnvironment key) = some settingsPath := by
  have hconfig : keyedEnvironment key "XDG_CONFIG_HOME" = some "/x" := rfl
  have habsolute : (some "/x").filter isAbsolute = some "/x" := by decide +kernel
  rw [Settings.filePath, Settings.configDirectory, hconfig, habsolute]
  change some (join (join "/x" "seleniport") "config.toml") = some settingsPath
  decide +kernel

theorem document?_settingsFiles (document : String) :
    Settings.document? (settingsFiles document) settingsPath = Toml.parse document := by
  rw [Settings.document?, readText_settingsFiles]
  rfl

/-- The settings with a file that is a settings document. -/
theorem load_settingsFiles {document : String} {ms : Toml.Members} {s : Settings}
    (hparse : Toml.parse document = some ms) (h : Settings.ofDocument? ms = some s)
    (key : Option String) : Settings.load (settingsFiles document) (keyedEnvironment key) =
      s.withEnvironment (keyedEnvironment key) := by
  rw [Settings.load, filePath_keyedEnvironment, Option.map_some, Option.getD_some,
    Settings.ofFile_eq, document?_settingsFiles, hparse, Option.bind_some, h, Option.getD_some]

/-- Runs with settings files that hold nothing but choices about the model. -/
theorem sameButKeys_of_parse {document document' : String} {v v' : Toml.Value}
    (hparse : Toml.parse document = some [("ai", v)])
    (hparse' : Toml.parse document' = some [("ai", v')]) (h : v.SameButKeys v')
    (key key' : Option String) :
    SameButKeys (settingsFiles document) (settingsFiles document') (keyedEnvironment key)
      (keyedEnvironment key') := by
  constructor
  · intro name hname
    have hother : name ≠ "ANTHROPIC_API_KEY" := hname .anthropic rfl
    simp [keyedEnvironment, hother]
  · intro path hpath
    rw [filePath_keyedEnvironment] at hpath
    cases hpath
    refine ⟨?_, fun fault => ?_, ?_⟩
    · rw [hasEntry_of_readText (readText_settingsFiles document),
        hasEntry_of_readText (readText_settingsFiles document')]
    · rw [readText_settingsFiles, readText_settingsFiles]
      constructor <;> intro hfault <;> cases hfault
    · rw [document?_settingsFiles, document?_settingsFiles, hparse, hparse']
      refine .some ⟨?_, .some h⟩
      intro name hname
      simp [Toml.Members.get?, hname.symm]

theorem countTogether_settingsFiles {document document' : String}
    (h : ((Toml.parse document).bind Settings.ofDocument?).isSome =
      ((Toml.parse document').bind Settings.ofDocument?).isSome) (key : Option String) :
    CountTogether (settingsFiles document) (settingsFiles document') (keyedEnvironment key) := by
  intro path hpath
  rw [filePath_keyedEnvironment] at hpath
  cases hpath
  rw [document?_settingsFiles, document?_settingsFiles]
  exact h

/-- A settings document with a key for the backend that is chosen. -/
def keyedDocument (key : String) : String :=
  "[ai]\nbackend = \"openai\"\nopenai_api_key = \"" ++ key ++ "\"\n"

theorem secrets_kept_file :
    let fs := settingsFiles (keyedDocument "a-1234")
    let fs' := settingsFiles (keyedDocument "bc-1234")
    let environment := keyedEnvironment none
    let environment' := keyedEnvironment (some "k")
    SameButKeys fs fs' environment environment' ∧ CountTogether fs fs' environment ∧
      (presentSettings environment fs).shown = (presentSettings environment' fs').shown ∧
      ∀ describe, warnings describe environment fs .showSettings =
        warnings describe environment' fs' .showSettings := by
  intro fs fs' environment environment'
  have hparse : Toml.parse (keyedDocument "a-1234") = some [("ai", .table .header
      [("backend", .text "openai"), ("openai_api_key", .text "a-1234")])] := by
    rfl
  have hparse' : Toml.parse (keyedDocument "bc-1234") = some [("ai", .table .header
      [("backend", .text "openai"), ("openai_api_key", .text "bc-1234")])] := by
    rfl
  have hsame : SameButKeys fs fs' environment environment' := by
    apply sameButKeys_of_parse hparse hparse'
    apply Toml.Value.SameButKeys.table
    intro name hname
    have hkey : "openai_api_key" ≠ name := by
      rintro rfl
      exact hname (by decide)
    simp [Toml.Members.get?, List.find?_cons, hkey]
  have hcount : CountTogether fs fs' environment := by
    apply countTogether_settingsFiles
    rw [hparse, hparse']
    rfl
  have halike : KeysLookAlike (some "a-1234") (some "bc-1234") := by
    refine .some (Or.inr ?_)
    decide
  have hload := load_settingsFiles hparse
    (s := { backend := some "openai", openAiKey := some "a-1234" }) rfl none
  have hload' := load_settingsFiles hparse'
    (s := { backend := some "openai", openAiKey := some "bc-1234" }) rfl (some "k")
  have hchosen : (Settings.load fs environment).chosenBackend = .openAi := by
    have hopenAi : Backend.ofName? "openai" = some .openAi := Backend.ofName?_name .openAi
    rw [hload]
    change (Backend.ofName? "openai").getD .ollama = .openAi
    rw [hopenAi, Option.getD_some]
  have hkept (describe : String → String) :=
    secrets_kept (m := Id) (fun _ => .error "") describe hsame hcount
  refine ⟨hsame, hcount, (hkept id).2.1 ?_ .showSettings (by simp), fun describe => ?_⟩
  · intro _
    rw [hchosen, hload, hload']
    exact halike
  · refine ((hkept describe).2.2.2.1 .showSettings (by simp)).mpr ?_
    intro path hpath text text' htext _ hnone
    rw [filePath_keyedEnvironment] at hpath
    cases hpath
    cases (readText_settingsFiles _).symm.trans htext
    rw [hparse] at hnone
    cases hnone

/-- A document of one line with the key of the backend that is chosen, and a value for the other
key. -/
def lineDocument (key other : String) : String :=
  "ai = \x7b backend = \"anthropic\", anthropic_api_key = \"" ++ key ++
    "\", openai_api_key = " ++ other ++ " \x7d"

/-- What stands below the document in the text of its fault. -/
def markedFault : String :=
  "\n  |" ++ String.ofList (List.replicate 83 ' ') ++
    "^\ninvalid type: integer `5`, expected a string\n"

/-- What the decoder says of such a document if the other key is the number `5`. -/
def excerpt (document : String) : String :=
  "TOML parse error at line 1, column 83\n  |\n1 | " ++ document ++ markedFault

theorem toList_infix_append (before text behind : String) :
    text.toList <:+: (before ++ text ++ behind).toList := by
  rw [String.toList_append, String.toList_append]
  exact List.infix_append _ _ _

theorem quotesLine_excerpt : QuotesLine excerpt := by
  intro document _
  have hlines : ['\n'].intercalate (Text.lines document) = document.toList :=
    List.intercalate_splitOn '\n'
  cases hsplit : Text.lines document with
  | nil => exact absurd hsplit (List.splitOn_ne_nil '\n' document.toList)
  | cons line rest =>
    have hfirst : line <+: document.toList := by
      rw [← hlines, hsplit]
      cases rest with
      | nil => exact ⟨[], by rw [List.append_nil, List.intercalate_singleton]⟩
      | cons next rest =>
        rw [List.intercalate_cons_cons, List.append_assoc]
        exact List.prefix_append _ _
    have hwhole : document.toList <:+: (excerpt document).toList :=
      toList_infix_append _ document markedFault
    exact ⟨line, List.mem_cons_self, hfirst.isInfix.trans hwhole⟩

/-- The choices in such a document. -/
def lineChoices (key : String) (other : Toml.Value) : Toml.Members :=
  [("backend", .text "anthropic"), ("anthropic_api_key", .text key), ("openai_api_key", other)]

theorem sameButKeys_lineChoices (key key' : String) (other other' : Toml.Value) :
    Toml.Members.SameButKeys (lineChoices key other) (lineChoices key' other') := by
  intro name hname
  have hanthropic : "anthropic_api_key" ≠ name := by
    rintro rfl
    exact hname (by decide)
  have hopenAi : "openai_api_key" ≠ name := by
    rintro rfl
    exact hname (by decide)
  simp [lineChoices, Toml.Members.get?, List.find?_cons, hanthropic, hopenAi]

theorem parse_line_number : Toml.parse (lineDocument "sk-AAAA1111" "5") =
    some [("ai", .closed (lineChoices "sk-AAAA1111" (.integer 5)))] := by
  rfl

theorem parse_line_other_number : Toml.parse (lineDocument "sk-BBBB1111" "5") =
    some [("ai", .closed (lineChoices "sk-BBBB1111" (.integer 5)))] := by
  rfl

theorem parse_line_text : Toml.parse (lineDocument "sk-AAAA1111" "\"x\"") =
    some [("ai", .closed (lineChoices "sk-AAAA1111" (.text "x")))] := by
  rfl

/-- A key that is a number makes a document no settings document. -/
theorem undecoded_line : (Toml.parse (lineDocument "sk-AAAA1111" "5")).bind
    Settings.ofDocument? = none := by
  rw [parse_line_number]
  rfl

theorem load_line_number : Settings.load (settingsFiles (lineDocument "sk-AAAA1111" "5"))
    (keyedEnvironment none) = ({} : Settings).withEnvironment (keyedEnvironment none) := by
  rw [Settings.load, filePath_keyedEnvironment, Option.map_some, Option.getD_some,
    Settings.ofFile_eq, document?_settingsFiles, undecoded_line, Option.getD_none]

theorem load_line_text :
    Settings.load (settingsFiles (lineDocument "sk-AAAA1111" "\"x\"")) (keyedEnvironment none) =
      Settings.withEnvironment
        { backend := "anthropic", anthropicKey := "sk-AAAA1111", openAiKey := "x" }
        (keyedEnvironment none) :=
  load_settingsFiles parse_line_text rfl none

theorem chosenBackend_line_number :
    (Settings.load (settingsFiles (lineDocument "sk-AAAA1111" "5"))
      (keyedEnvironment none)).chosenBackend = .ollama := by
  rw [load_line_number]
  rfl

theorem chosenBackend_line_text :
    (Settings.load (settingsFiles (lineDocument "sk-AAAA1111" "\"x\""))
      (keyedEnvironment none)).chosenBackend = .anthropic := by
  have hanthropic : Backend.ofName? "anthropic" = some .anthropic := Backend.ofName?_name .anthropic
  rw [load_line_text]
  change (Backend.ofName? "anthropic").getD .ollama = .anthropic
  rw [hanthropic, Option.getD_some]

/-- The other key is no text. So two runs with keys that look alike show the same, but each logs its
key. And if the other key is a text, then other settings are shown, though it is for a backend that
is not chosen. -/
theorem key_logged :
    let fs := settingsFiles (lineDocument "sk-AAAA1111" "5")
    let fs' := settingsFiles (lineDocument "sk-BBBB1111" "5")
    let counted := settingsFiles (lineDocument "sk-AAAA1111" "\"x\"")
    let environment := keyedEnvironment none
    (SameButKeys fs fs' environment environment ∧ LooksLike "sk-AAAA1111" "sk-BBBB1111" ∧
      (presentSettings environment fs).shown = (presentSettings environment fs').shown ∧
      (∀ c ∈ [Command.showSettings, .doctor],
        warnings excerpt environment fs c ≠ warnings excerpt environment fs' c ∧
        ∃ warning ∈ warnings excerpt environment fs c,
          "sk-AAAA1111".toList <:+: warning.toList)) ∧
    SameButKeys fs counted environment environment ∧
      (Settings.load fs environment).chosenBackend = .ollama ∧
      (Settings.load counted environment).chosenBackend = .anthropic ∧
      (presentSettings environment fs).shown ≠ (presentSettings environment counted).shown := by
  intro fs fs' counted environment
  have hsame : SameButKeys fs fs' environment environment :=
    sameButKeys_of_parse parse_line_number parse_line_other_number
      (.closed (sameButKeys_lineChoices _ _ _ _)) none none
  have hsameCounted : SameButKeys fs counted environment environment :=
    sameButKeys_of_parse parse_line_number parse_line_text
      (.closed (sameButKeys_lineChoices _ _ _ _)) none none
  have hcount : CountTogether fs fs' environment := by
    apply countTogether_settingsFiles
    rw [undecoded_line, parse_line_other_number]
    rfl
  refine ⟨⟨hsame, Or.inr (by decide), ?_, fun c hc => ⟨?_, ?_⟩⟩, hsameCounted,
    chosenBackend_line_number, chosenBackend_line_text, ?_⟩
  · refine (shown_presentSettings_iff hsame hcount).mpr fun hneeds => ?_
    rw [chosenBackend_line_number] at hneeds
    cases hneeds
  · rw [ne_eq, warnings_eq_iff excerpt hsame hcount hc]
    intro halike
    have hexcerpt := halike _ (filePath_keyedEnvironment none) _ _ (readText_settingsFiles _)
      (readText_settingsFiles _) undecoded_line
    revert hexcerpt
    decide +kernel
  · obtain ⟨warning, hmem, hinfix⟩ := document_logged quotesLine_excerpt
      (filePath_keyedEnvironment none) (readText_settingsFiles _) (by decide +kernel)
      undecoded_line hc
    refine ⟨warning, hmem, List.IsInfix.trans ?_ hinfix⟩
    decide +kernel
  · intro hshown
    have houtput := congrArg Prod.fst hshown
    simp only [Result.shown, Result.outputText, output_presentSettings, lines_append,
      placeLines_of_sameButKeys hsameCounted, String.append_right_inj, fs, counted, environment,
      load_line_number, load_line_text] at houtput
    revert houtput
    decide +kernel

end Command

end TestConversion
