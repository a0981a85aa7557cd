import TestConversion.Proofs.Conversion.Asking
import TestConversion.Proofs.Model.Answers
import TestConversion.Proofs.Model.Completions
import TestConversion.Proofs.Text.Blanks

/-!
# Which answers are code

Over chat completions a reply comes to code only if its status is no error, its whole body decodes,
it has a choice, and the code in the first choice is not empty. A status of an error is told as such
whatever the body is, and everything else is told as an answer that cannot be used. Where there is
no code, nothing is written.

* `trimmed_codeOf`: the code of an answer has no blanks at its ends.
* `yields_answer`: what a reply comes to.
* `generate_usable_iff`: when a generator over chat completions has code, what it fails with
  otherwise, and that a failed conversion leaves all files as they are.
-/

namespace TestConversion

open Files Model Text
open Json (IsDocument)

/-! ## Blanks at the ends -/

/-- The code of an answer has no blanks at its ends. -/
theorem trimmed_codeOf (answer : String) : IsTrimmed (codeOf answer).toList := by
  rw [codeOf, String.toList_ofList, codeChars]
  split <;> exact isTrimmed_trim _

/-! ## What replies come to -/

namespace Model

/-- The whole body decodes as a chat completion with the contents. -/
def Reply.Lists (r : Reply) (contents : List String) : Prop :=
  ∃ text, r.text? = some text ∧ Json.decode chatShape text = .ok (completion contents)

theorem Reply.Lists.isDocument {r : Reply} {contents : List String} (h : r.Lists contents) :
    ∃ text, r.text? = some text ∧ IsDocument text := by
  obtain ⟨text, htext, hdecode⟩ := h
  exact ⟨text, htext, Json.isDocument_of_decode hdecode⟩

theorem Reply.Lists.unique {r : Reply} {contents contents' : List String}
    (h : r.Lists contents) (h' : r.Lists contents') : contents = contents' := by
  obtain ⟨text, htext, hdecode⟩ := h
  obtain ⟨text', htext', hdecode'⟩ := h'
  rw [htext] at htext'
  cases htext'
  rw [hdecode, Except.ok.injEq] at hdecode'
  exact completion_injective hdecode'

/-- The body of a value lists contents exactly if the value is a completion with them. -/
theorem Reply.lists_iff {r : Reply} {text : String} (htext : r.text? = some text) {v : Json}
    (hv : Json.parse? text = some v) {contents : List String} :
    r.Lists contents ↔ IsCompletion v contents := by
  rw [← decode_completion_iff hv, Reply.Lists, htext]
  constructor
  · rintro ⟨text', htext', h⟩
    cases htext'
    exact h
  · intro h
    exact ⟨text, rfl, h⟩

/-- What is made of a reply over chat completions. -/
inductive Reply.Yields (r : Reply) : Except Failure String → Prop where
  | refused (h : 400 ≤ r.status) {shown : String}
      (hshown : ∀ text, r.text? = some text → shown = text) :
      r.Yields (.error (.refused r.status shown))
  | unread (h : r.status < 400) (hno : ∀ contents, ¬ r.Lists contents) (reason : String) :
      r.Yields (.error (.malformed reason))
  | noChoice (h : r.status < 400) (hl : r.Lists []) : r.Yields (.error .noChoice)
  | noCode {first : String} {others : List String} (h : r.status < 400)
      (hl : r.Lists (first :: others)) (hcode : codeOf first = "") : r.Yields (.error .noCode)
  | code {first : String} {others : List String} (h : r.status < 400)
      (hl : r.Lists (first :: others)) (hcode : codeOf first ≠ "") : r.Yields (.ok (codeOf first))

theorem usableCode_eq (answer : String) :
    usableCode answer = if codeOf answer = "" then .error .noCode else .ok (codeOf answer) := by
  simp only [usableCode, String.isEmpty_iff]

/-- What a reply comes to. -/
theorem yields_answer (r : Reply) {b : Backend} (hb : b.speaksChat = true) :
    r.Yields ((r.answer b).bind usableCode) := by
  by_cases hstatus : 400 ≤ r.status
  · rw [Reply.answer, if_pos hstatus, Except.bind]
    exact .refused hstatus fun _ h => Reply.refusalText_of_text? h
  have h : r.status < 400 := by omega
  rw [Reply.answer, if_neg hstatus, if_pos hb, Reply.decode]
  cases htext : r.text? with
  | none =>
    simp only [Except.bind]
    refine .unread h ?_ _
    rintro contents ⟨text, htext', -⟩
    rw [htext] at htext'
    cases htext'
  | some text =>
    cases hdecode : Json.decode chatShape text with
    | error e =>
      simp only [hdecode, Except.bind]
      refine .unread h ?_ _
      rintro contents ⟨text', htext', hdecode'⟩
      rw [htext] at htext'
      cases htext'
      rw [hdecode] at hdecode'
      cases hdecode'
    | ok w =>
      obtain ⟨contents, rfl⟩ := exists_completion_of_decode hdecode
      have hl : r.Lists contents := ⟨text, htext, hdecode⟩
      simp only [hdecode, Except.bind, chatText_completion]
      cases contents with
      | nil => exact .noChoice h hl
      | cons first others =>
        simp only [usableCode_eq]
        split
        · rename_i hempty
          exact .noCode h hl hempty
        · rename_i hcode
          exact .code h hl hcode

/-- What is promised of a result over chat completions. -/
structure Reply.Judged (r : Reply) (result : Except Failure String) : Prop where
  /-- There is code exactly if the answer is usable. -/
  ok_iff : ∀ code, result = .ok code ↔ r.status < 400 ∧
    ∃ first others, r.Lists (first :: others) ∧ codeOf first ≠ "" ∧ code = codeOf first
  trimmed : ∀ code, result = .ok code → code ≠ "" ∧ IsTrimmed code.toList
  /-- The status of a refusal is told, with its text if it is one. -/
  refused : 400 ≤ r.status → ∃ shown, result = .error (.refused r.status shown) ∧
    ∀ text, r.text? = some text → shown = text
  /-- Any other failure is a complaint about the answer. -/
  unusable : r.status < 400 → ∀ f, result = .error f → ∃ reason, f.complaint = some reason

theorem Reply.Yields.judged {r : Reply} {result : Except Failure String}
    (h : r.Yields result) : r.Judged result where
  ok_iff code := by
    constructor
    · rintro rfl
      cases h with
      | code h hl hcode => exact ⟨h, _, _, hl, hcode, rfl⟩
    · rintro ⟨hstatus, first, others, hfirst, hcode, rfl⟩
      cases h with
      | refused h => exact absurd hstatus (by omega)
      | unread h hno => exact absurd hfirst (hno _)
      | noChoice h hl => cases hl.unique hfirst
      | noCode h hl hempty =>
        cases hl.unique hfirst
        exact absurd hempty hcode
      | code h hl =>
        cases hl.unique hfirst
        rfl
  trimmed code := by
    rintro rfl
    cases h with
    | code h hl hcode => exact ⟨hcode, trimmed_codeOf _⟩
  refused hstatus := by
    cases h with
    | refused h hshown => exact ⟨_, rfl, hshown⟩
    | unread h => exact absurd hstatus (by omega)
    | noChoice h => exact absurd hstatus (by omega)
    | noCode h => exact absurd hstatus (by omega)
    | code h => exact absurd hstatus (by omega)
  unusable hstatus f := by
    rintro rfl
    cases h with
    | refused h => exact absurd hstatus (by omega)
    | unread h hno reason => exact ⟨reason, rfl⟩
    | noChoice => exact ⟨_, rfl⟩
    | noCode => exact ⟨_, rfl⟩

end Model

/-! ## Generators and conversions -/

variable (c : Client) (source : String) (metadata : Metadata) (language : Language) (r : Reply)
  (sent : List Request)

/-- A conversion whose generator fails leaves all files as they are. -/
theorem convert_of_failure (answer : List Request → Except String Reply) {fileName : String}
    (hm : metadataOf source fileName = .ok metadata) (outputDirectory : String) (fs : FileSystem)
    {f : Failure} (hf : ((modelGenerator (recording answer) c source metadata language).run sent).1 =
      .error f) :
    ((modelConverter c answer language outputDirectory).convert source fileName fs).run sent =
      ((.error (.generation f), fs),
        ((modelGenerator (recording answer) c source metadata language).run sent).2) := by
  rw [convert_recording, hm]
  simp only [hf]

/-- A generator over chat completions sends one request, if a header can hold its key. It has code
exactly if the status of the reply is no error, the body decodes as a whole, and the code of the
first choice is not empty; then that is the code. A status of an error is told whatever the body is,
and any other reply is told as one that cannot be used. A body that decodes is a JSON text, and the
JSON texts that decode are those of completions, with a content in every choice. A conversion whose
generator fails leaves all files as they are. -/
theorem generate_usable_iff (hc : c.backend.speaksChat = true) :
    let run := (modelGenerator (recording fun _ => .ok r) c source metadata language).run sent
    (if c.canSend then
      run.2 = sent ++ [c.conversionRequest source metadata language] ∧ r.Judged run.1
    else run = (.error (.undelivered "http: failed to parse header value"), sent)) ∧
    (∀ contents, (r.Lists contents → ∃ text, r.text? = some text ∧ IsDocument text) ∧
      ∀ text v, r.text? = some text → Json.parse? text = some v →
        (r.Lists contents ↔ IsCompletion v contents)) ∧
    ∀ fileName outputDirectory fs f, metadataOf source fileName = .ok metadata →
      run.1 = .error f →
      ((modelConverter c (fun _ => .ok r) language outputDirectory).convert source fileName fs).run
        sent = ((.error (.generation f), fs), run.2) := by
  intro run
  have hrun : run = _ :=
    modelGenerator_recording c (fun _ => .ok r) language source metadata sent
  refine ⟨?_, ?_, ?_⟩
  · rw [hrun]
    dsimp only
    split
    · exact ⟨rfl, (yields_answer r hc).judged⟩
    · rfl
  · intro contents
    exact ⟨Reply.Lists.isDocument, fun text v htext hv => Reply.lists_iff htext hv⟩
  · intro fileName outputDirectory fs f hm hf
    exact convert_of_failure c source metadata language sent _ hm outputDirectory fs hf

/-- A client of one's own server, as it is set up. -/
def localClient : Client := ⟨{}, placeholderKey⟩

/-- A fenced answer in the first of two choices is code. -/
theorem generate_usable_iff_fenced :
    let v := completion ["```ts\ncode\n```", "other"]
    let metadata : Metadata := ⟨"A.java", "A", [], [], false, []⟩
    ((modelGenerator (recording fun _ => .ok (replyOf v)) localClient "class A \x7b\x7d" metadata
      .typeScript).run []).1 = .ok "code" := by
  intro v metadata
  obtain ⟨hrun, hlists, -⟩ := generate_usable_iff localClient "class A \x7b\x7d" metadata
    .typeScript (replyOf v) [] rfl
  have hsend : localClient.canSend = true := rfl
  rw [if_pos hsend] at hrun
  have hparse : Json.parse? v.compact = some v :=
    (Json.HasNumerals.of_isNumberFree v rfl).parse?_compact
  refine (hrun.2.ok_iff "code").mpr ⟨by decide, "```ts\ncode\n```", ["other"], ?_, ?_, ?_⟩
  · refine ((hlists _).2 v.compact v (text?_replyOf v) hparse).mpr ⟨_, .inl rfl, ?_⟩
    exact .cons ⟨_, .inl rfl, .inl rfl⟩ (.cons ⟨_, .inl rfl, .inl rfl⟩ .nil)
  · decide +kernel
  · decide +kernel

end TestConversion
