import TestConversion.Conversion.Converter
import TestConversion.Proofs.Model.Conversations

/-!
# What a conversion asks

A conversion by a model sends one request for a source that has metadata, and none for any other
source. The request tells the rules of a conversion and, as the one message of the user, the prompt
that a dry run shows.

* `isSendable_request`: a request can be sent unless its backend needs a key that no header can hold.
* `convert_recording`: what a conversion comes to and what it sends.
* `convert_asks_shown`: a conversion asks what a dry run shows.
-/

namespace TestConversion

open Files

namespace Model

/-! ## Keys in headers -/

theorem isHeaderText_append (s t : String) :
    Request.isHeaderText (s ++ t) = (Request.isHeaderText s && Request.isHeaderText t) := by
  simp [Request.isHeaderText, String.toList_append, List.all_append]

/-- No header stands in the way of what the client sends. -/
def Client.canSend (c : Client) : Bool :=
  !c.backend.needsKey || Request.isHeaderText c.key

/-- A request can be sent unless its backend needs a key that no header can hold. -/
theorem isSendable_request (c : Client) (messages : List Message) (system : Option String) :
    (c.config.request c.key messages system).isSendable = c.canSend := by
  have hjson : Request.isHeaderText "application/json" = true := by decide +kernel
  have hbearer : Request.isHeaderText "Bearer " = true := by decide +kernel
  have hversion : Request.isHeaderText "2023-06-01" = true := by decide +kernel
  rw [Client.canSend, Client.backend, Config.request, Request.isSendable]
  cases c.config.backend <;>
    simp [Backend.speaksChat, Backend.needsKey, isHeaderText_append, hjson, hbearer, hversion]

end Model

open Model

/-! ## One request for a source -/

/-- The request for the conversion of a source. -/
def Model.Client.conversionRequest (c : Client) (source : String) (metadata : Metadata)
    (language : Language) : Request :=
  c.config.request c.key (conversation source metadata language) (some systemPrompt)

section

variable (c : Client) (answer : List Request → Except String Reply) (language : Language)
  (source : String)

/-- A model is asked once for a source, if the request can be sent. -/
theorem modelGenerator_recording (metadata : Metadata) (sent : List Request) :
    (modelGenerator (recording answer) c source metadata language).run sent =
      let request := c.conversionRequest source metadata language
      if c.canSend then
        ((c.answerOf (answer (sent ++ [request]))).bind usableCode, sent ++ [request])
      else (.error (.undelivered "http: failed to parse header value"), sent) := by
  have hmap : (modelGenerator (recording answer) c source metadata language).run sent =
      let asked := (c.generate (recording answer) (conversation source metadata language)
        (some systemPrompt)).run sent
      (asked.1.bind usableCode, asked.2) := rfl
  rw [hmap, generate_recording]
  dsimp only
  rw [isSendable_request, Client.conversionRequest]
  split <;> rfl

/-- The request tells the rules and the prompt, and nothing else. -/
theorem told?_conversionRequest (metadata : Metadata) :
    told? (c.conversionRequest source metadata language).bodyText =
      some ⟨[systemPrompt], [(Role.user.name, prompt source (some metadata) language)]⟩ := by
  rw [Client.conversionRequest, told?_request]
  cases c.config.backend <;> rfl

/-! ## Conversions and dry runs -/

/-- The name of a file goes into the name in the metadata, or in front of the error. -/
theorem metadataOf_fileName (fileName shownName : String) :
    metadataOf source shownName =
      ((metadataOf source fileName).map fun m => { m with fileName := shownName }).mapError
        fun e => { e with label := shownName } := by
  rw [metadataOf, metadataOf, Java.parse, Java.parse, Java.parseWith, Java.parseWith]
  cases Java.problemOf source.toList (Java.tree source.toList) <;> rfl

variable (outputDirectory fileName : String) (fs : FileSystem) (sent : List Request)

/-- The converter that asks the model of a client. -/
def modelConverter : Converter Recorded :=
  { generator := modelGenerator (recording answer) c, language, outputDirectory }

/-- A conversion asks once if there is metadata, and not at all if there is none. -/
theorem convert_recording :
    ((modelConverter c answer language outputDirectory).convert source fileName fs).run sent =
      match metadataOf source fileName with
      | .error e => ((.error (.invalid e), fs), sent)
      | .ok metadata =>
        let asked := (modelGenerator (recording answer) c source metadata language).run sent
        (match asked.1 with
          | .error f => (.error (.generation f), fs)
          | .ok code => (modelConverter c answer language outputDirectory).save fileName code
              metadata fs, asked.2) := by
  cases hm : metadataOf source fileName with
  | error e =>
    rw [Converter.convert_of_invalid hm]
    rfl
  | ok metadata =>
    have hrun : ((modelConverter c answer language outputDirectory).convert source fileName
        fs).run sent =
        let asked := (modelGenerator (recording answer) c source metadata language).run sent
        ((match asked.1 with
          | .error f => pure (.error (.generation f), fs)
          | .ok code => pure ((modelConverter c answer language outputDirectory).save fileName code
              metadata fs) : Recorded _)).run asked.2 := by
      rw [Converter.convert, hm]
      rfl
    rw [hrun]
    dsimp only
    split <;> rfl

/-- A conversion asks what a dry run shows: for a source that a dry run gives a prompt for, under
whatever name, one request is sent, which tells the rules of a conversion and the prompt. For any
other source nothing is sent and nothing is changed. -/
theorem convert_asks_shown (shownName : String) :
    let run :=
      ((modelConverter c answer language outputDirectory).convert source fileName fs).run sent
    match dryRun source shownName language with
    | .error e => run = ((.error (.invalid { e with label := fileName }), fs), sent)
    | .ok (_, shown) =>
      ∃ request, told? request.bodyText = some ⟨[systemPrompt], [(Role.user.name, shown)]⟩ ∧
        run.2 = if c.canSend then sent ++ [request] else sent := by
  intro run
  have hnamed := metadataOf_fileName source shownName fileName
  have hrun : run = _ := convert_recording c answer language source outputDirectory fileName fs sent
  cases hm : metadataOf source shownName with
  | error e =>
    rw [hm] at hnamed
    rw [hnamed] at hrun
    simp only [dryRun, hm]
    exact hrun
  | ok metadata =>
    rw [hm] at hnamed
    rw [hnamed] at hrun
    simp only [dryRun, hm]
    -- the name of the file does not come into the prompt
    refine ⟨c.conversionRequest source { metadata with fileName := fileName } language,
      told?_conversionRequest c language source _, ?_⟩
    have hasked := modelGenerator_recording c answer language source
      { metadata with fileName := fileName } sent
    have hsent : run.2 = ((modelGenerator (recording answer) c source
        { metadata with fileName := fileName } language).run sent).2 := by
      rw [hrun]
      rfl
    rw [hsent, hasked]
    dsimp only
    split <;> rfl

end

end TestConversion
