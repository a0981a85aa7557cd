import TestConversion.Model.Client
import TestConversion.Proofs.Json.ReadBack
import TestConversion.Proofs.Json.Shapes

/-!
# Answers in blocks

A message of a model is a list of typed blocks, and its answer is the text of the first block of
text. Every block is read as a block of text, though, before one is chosen: a block of another type
does not stand in the way only if it has a string for a text as well.

* `generate_message`: the answer of a message whose blocks all have a text, and the failure of every
  other message.
* `tool_block_refused`: a message that calls a tool has no answer.
-/

namespace TestConversion.Model

open Json

/-! ## Blocks -/

def IsText (b : Json) : Prop := b.member? "type" = some (.string "text")

/-- A block has a type, and a block of text has a text. -/
structure IsBlock (b : Json) : Prop where
  type : ∃ t, b.member? "type" = some (.string t)
  text : IsText b → ∃ s, b.member? "text" = some (.string s)

/-- The text is that of the first block of text. -/
inductive FirstText (s : String) : List Json → Prop where
  | here {b : Json} {bs : List Json} (h : IsText b) (hs : b.member? "text" = some (.string s)) :
      FirstText s (b :: bs)
  | later {b : Json} {bs : List Json} (h : ¬ IsText b) (hs : FirstText s bs) : FirstText s (b :: bs)

/-- A successful reply with a message of the blocks. -/
structure Reply.Carries (r : Reply) (v : Json) (blocks : List Json) : Prop where
  success : r.isSuccess = true
  parsed : ∃ text, r.text? = some text ∧ parse? text = some v
  content : v.member? "content" = some (.array blocks)
  typed : ∀ b ∈ blocks, IsBlock b

/-- The block has one type and one text, both of them strings. -/
def HasText (b : Json) : Prop :=
  ∃ t s, valuesOf b.members "type" = [.string t] ∧ valuesOf b.members "text" = [.string s]

/-- The message has one list of blocks, and each of them has a text. -/
def IsAllText (v : Json) (blocks : List Json) : Prop :=
  (valuesOf v.members "content").length = 1 ∧ ∀ b ∈ blocks, HasText b

/-! ## Reading blocks -/

theorem member?_eq_head? (v : Json) (name : String) :
    v.member? name = (valuesOf v.members name).head? := by
  cases v with
  | object ms => rw [member?, members, valuesOf, List.head?_map, List.head?_filter]
  | _ => rfl

theorem fieldValue_text {vs : List Json} {w : Json} :
    fieldValue .text vs = some w ↔ ∃ s, vs = [.string s] ∧ w = .string s := by
  match vs with
  | [] => simp [fieldValue]
  | [.string s] => simp [fieldValue, fit, eq_comm]
  | [.null] => simp [fieldValue, fit]
  | [.bool b] => simp [fieldValue, fit]
  | [.number t] => simp [fieldValue, fit]
  | [.array ws] => simp [fieldValue, fit]
  | [.object ms] => simp [fieldValue, fit]
  | _ :: _ :: _ => simp [fieldValue]

def blockShape : Shape := .record [("type", .text), ("text", .text)]

/-- What is kept of a block. -/
def kept (b : Json) : Json :=
  .object [("type", (b.member? "type").getD .null), ("text", (b.member? "text").getD .null)]

/-- A block is read if it has a text, and is kept as its type and its text. -/
theorem fit_block {b : Json} (hb : IsBlock b) :
    (HasText b ∧ fit blockShape b = some (kept b)) ∨ (¬ HasText b ∧ fit blockShape b = none) := by
  obtain ⟨t, ht⟩ := hb.type
  cases b with
  | object ms =>
    rw [blockShape, fit_record (by decide), fieldValues_cons, fieldValues_cons, fieldValues_nil]
    by_cases h : HasText (.object ms)
    · refine Or.inl ⟨h, ?_⟩
      obtain ⟨t, s, htype, htext⟩ := h
      rw [kept, member?_eq_head?, member?_eq_head?, htype, htext]
      rw [members] at htype htext
      rw [fieldValue_text.mpr ⟨t, htype, rfl⟩, fieldValue_text.mpr ⟨s, htext, rfl⟩]
      rfl
    · refine Or.inr ⟨h, ?_⟩
      rw [Option.map_eq_none_iff, Option.bind_eq_none_iff]
      intro x hx
      rw [Option.map_eq_none_iff, Option.bind_eq_none_iff]
      intro y hy
      obtain ⟨t, htype, -⟩ := fieldValue_text.mp hx
      obtain ⟨s, htext, -⟩ := fieldValue_text.mp hy
      exact absurd ⟨t, s, htype, htext⟩ h
  | _ => cases ht

variable {blocks : List Json} {v : Json} {s : String}

theorem fit_blocks (h : ∀ b ∈ blocks, IsBlock b) :
    ((∀ b ∈ blocks, HasText b) ∧
        fit (.list blockShape) (.array blocks) = some (.array (blocks.map kept))) ∨
      (¬ (∀ b ∈ blocks, HasText b) ∧ fit (.list blockShape) (.array blocks) = none) := by
  rw [fit]
  by_cases hall : ∀ b ∈ blocks, HasText b
  · have hfit : ∀ b ∈ blocks, fit blockShape b = some (kept b) := by
      intro b hb
      rcases fit_block (h b hb) with ⟨-, hfit⟩ | ⟨hno, -⟩
      · exact hfit
      · exact absurd (hall b hb) hno
    refine Or.inl ⟨hall, ?_⟩
    rw [mapM_eq_some_map hfit]
    rfl
  · simp only [not_forall] at hall
    obtain ⟨b, hb, hno⟩ := hall
    refine Or.inr ⟨fun hall => hno (hall b hb), ?_⟩
    rcases fit_block (h b hb) with ⟨htext, -⟩ | ⟨-, hfit⟩
    · exact absurd htext hno
    · rw [mapM_eq_none hb hfit]
      rfl

/-- A message is read if it has one list of blocks and each of them has a text. -/
theorem fit_message (hcontent : v.member? "content" = some (.array blocks))
    (h : ∀ b ∈ blocks, IsBlock b) :
    (IsAllText v blocks ∧
        fit messagesShape v = some (.object [("content", .array (blocks.map kept))])) ∨
      (¬ IsAllText v blocks ∧ fit messagesShape v = none) := by
  cases v with
  | object ms =>
    have hfields : fit messagesShape (.object ms) =
        (fieldValue (.list blockShape) (valuesOf ms "content")).map fun w =>
          .object [("content", w)] := by
      rw [messagesShape, fit_record (by decide), fieldValues_cons, fieldValues_nil, ← blockShape]
      cases fieldValue (.list blockShape) (valuesOf ms "content") <;> rfl
    rw [hfields]
    rw [member?_eq_head?, members] at hcontent
    rw [IsAllText, members]
    match hvs : valuesOf ms "content" with
    | [] =>
      rw [hvs] at hcontent
      cases hcontent
    | [w] =>
      rw [hvs] at hcontent
      cases hcontent
      rw [fieldValue]
      rcases fit_blocks h with ⟨hall, hfit⟩ | ⟨hno, hfit⟩
      · exact Or.inl ⟨⟨rfl, hall⟩, by rw [hfit]; rfl⟩
      · exact Or.inr ⟨fun hall => hno hall.2, by rw [hfit]; rfl⟩
    | w :: w' :: ws => exact Or.inr ⟨fun hall => by simp at hall, rfl⟩
  | _ => cases hcontent

/-! ## The answer -/

theorem kept_type (b : Json) :
    (kept b).member? "type" = some ((b.member? "type").getD .null) := by
  simp [kept, member?]

theorem kept_text (b : Json) :
    (kept b).member? "text" = some ((b.member? "text").getD .null) := by
  simp [kept, member?]

/-- The blocks that are kept have the same first block of text. -/
theorem blockText_kept (hs : FirstText s blocks) (h : ∀ b ∈ blocks, IsBlock b) :
    blockText (.object [("content", .array (blocks.map kept))]) = .ok s := by
  have hitems : ((Json.object [("content", .array (blocks.map kept))]).member? "content").getD .null
      = .array (blocks.map kept) := by simp [member?]
  rw [blockText, hitems, items]
  induction hs with
  | @here b bs hb hs =>
    rw [IsText] at hb
    rw [List.map_cons, List.find?_cons_of_pos]
    · simp [kept_text, hs, string?]
    · simp [kept_type, hb, string?]
  | @later b bs hb hs ih =>
    obtain ⟨t, ht⟩ := (h b List.mem_cons_self).type
    have hne : t ≠ "text" := by
      rintro rfl
      exact hb ht
    rw [List.map_cons, List.find?_cons_of_neg]
    · exact ih (fun b hb => h b (List.mem_cons_of_mem _ hb)) (by simp [member?])
    · simp [kept_type, ht, string?, hne]

theorem answer_of_carries {r : Reply} (h : r.Carries v blocks) (hs : FirstText s blocks) :
    (IsAllText v blocks ∧ r.answer .anthropic = .ok s) ∨
      (¬ IsAllText v blocks ∧ ∃ reason, r.answer .anthropic = .error (.malformed reason)) := by
  obtain ⟨text, htext, hv⟩ := h.parsed
  have hstatus : ¬ 400 ≤ r.status := by
    have := h.success
    simp [Reply.isSuccess] at this
    omega
  have hanswer : r.answer .anthropic = (r.decode messagesShape).bind blockText := by
    rw [Reply.answer, if_neg hstatus]
    rfl
  rw [hanswer, Reply.decode, htext]
  rcases fit_message h.content h.typed with ⟨hall, hfit⟩ | ⟨hno, hfit⟩
  · refine Or.inl ⟨hall, ?_⟩
    rcases decode_of_parse? hv messagesShape with ⟨hnone, -⟩ | ⟨w, hw, hdecode⟩
    · rw [hnone] at hfit
      cases hfit
    · rw [hw] at hfit
      cases hfit
      simp only [hdecode]
      exact blockText_kept hs h.typed
  · refine Or.inr ⟨hno, ?_⟩
    rcases decode_of_parse? hv messagesShape with ⟨-, e, hdecode⟩ | ⟨w, hw, -⟩
    · simp only [hdecode]
      exact ⟨_, rfl⟩
    · rw [hw] at hfit
      cases hfit

theorem generate_of_send {send : Transport Id} {c : Client} {messages : List Message}
    {system : Option String}
    (hsendable : (c.config.request c.key messages system).isSendable = true) {r : Reply}
    (hsend : send (c.config.request c.key messages system) = .ok r) :
    c.generate send messages system = r.answer c.backend := by
  have hdelivered : c.generate send messages system =
      c.answerOf (send (c.config.request c.key messages system)) := by
    rw [Client.generate, if_pos hsendable]
    rfl
  rw [hdelivered, hsend, Client.answerOf]

/-- A client of the backend with blocks answers with the first text of a message if every block of
it has a text. Otherwise the message is refused, even where its blocks of text have one. -/
theorem generate_message {send : Transport Id} {c : Client} (hb : c.backend = .anthropic)
    {messages : List Message} {system : Option String}
    (hsendable : (c.config.request c.key messages system).isSendable = true) {r : Reply}
    (hsend : send (c.config.request c.key messages system) = .ok r) (h : r.Carries v blocks)
    (hs : FirstText s blocks) :
    (IsAllText v blocks → c.generate send messages system = .ok s) ∧
      (¬ IsAllText v blocks →
        ∃ reason, c.generate send messages system = .error (.malformed reason)) := by
  rw [generate_of_send hsendable hsend, hb]
  rcases answer_of_carries h hs with ⟨hall, hanswer⟩ | ⟨hno, hanswer⟩
  · exact ⟨fun _ => hanswer, fun hno => absurd hall hno⟩
  · exact ⟨fun hall => absurd hall hno, fun _ => hanswer⟩

/-- A client of the backend with blocks, as it is set up. -/
def blockClient : Client := ⟨{ backend := .anthropic }, "k"⟩

/-- A successful reply with a value for its body. -/
def replyOf (v : Json) : Reply := ⟨200, v.compact.toUTF8⟩

theorem text?_replyOf (v : Json) : (replyOf v).text? = some v.compact := by
  rw [Reply.text?, String.fromUTF8?]
  exact dif_pos v.compact.isValidUTF8

theorem carries_replyOf {v : Json} (hv : isNumberFree v = true) {blocks : List Json}
    (hcontent : v.member? "content" = some (.array blocks)) (h : ∀ b ∈ blocks, IsBlock b) :
    (replyOf v).Carries v blocks where
  success := rfl
  parsed := ⟨v.compact, text?_replyOf v, (HasNumerals.of_isNumberFree v hv).parse?_compact⟩
  content := hcontent
  typed := h

def textBlock : Json := .object [("type", .string "text"), ("text", .string "answer")]

/-- A block of another type, which has no text. -/
def toolBlock : Json :=
  .object [("type", .string "tool_use"), ("id", .string "t"), ("name", .string "n"),
    ("input", .object [])]

def messageOf (blocks : List Json) : Json := .object [("content", .array blocks)]

theorem isBlock_textBlock : IsBlock textBlock :=
  ⟨⟨"text", by simp [textBlock, member?]⟩, fun _ => ⟨"answer", by simp [textBlock, member?]⟩⟩

theorem isText_textBlock : IsText textBlock := by simp [IsText, textBlock, member?]

theorem not_isText_toolBlock : ¬ IsText toolBlock := by simp [IsText, toolBlock, member?]

theorem isBlock_toolBlock : IsBlock toolBlock :=
  ⟨⟨"tool_use", by simp [toolBlock, member?]⟩, fun h => absurd h not_isText_toolBlock⟩

theorem generate_message_text :
    blockClient.generate (m := Id) (fun _ => .ok (replyOf (messageOf [textBlock])))
      [⟨.user, "hi"⟩] none = .ok "answer" := by
  have h := carries_replyOf (v := messageOf [textBlock]) rfl rfl (by
    intro b hb
    rw [List.mem_singleton.mp hb]
    exact isBlock_textBlock)
  refine (generate_message rfl (by decide +kernel) rfl h (.here isText_textBlock rfl)).1 ⟨rfl, ?_⟩
  intro b hb
  rw [List.mem_singleton.mp hb]
  exact ⟨"text", "answer", rfl, rfl⟩

/-- A tool call in front of a text leaves the message without an answer. -/
theorem tool_block_refused :
    (replyOf (messageOf [toolBlock, textBlock])).Carries (messageOf [toolBlock, textBlock])
        [toolBlock, textBlock] ∧
      FirstText "answer" [toolBlock, textBlock] ∧
      ∃ reason, blockClient.generate (m := Id)
        (fun _ => .ok (replyOf (messageOf [toolBlock, textBlock]))) [⟨.user, "hi"⟩] none =
          .error (.malformed reason) := by
  have h := carries_replyOf (v := messageOf [toolBlock, textBlock]) rfl rfl (by
    intro b hb
    rcases List.mem_cons.mp hb with rfl | hb
    · exact isBlock_toolBlock
    · rw [List.mem_singleton.mp hb]
      exact isBlock_textBlock)
  have hs : FirstText "answer" [toolBlock, textBlock] :=
    .later not_isText_toolBlock (.here isText_textBlock rfl)
  refine ⟨h, hs, ?_⟩
  rw [generate_of_send (by decide +kernel) rfl]
  rcases answer_of_carries h hs with ⟨hall, -⟩ | ⟨-, hanswer⟩
  · obtain ⟨t, s, -, htext⟩ := hall.2 toolBlock List.mem_cons_self
    cases htext
  · exact hanswer

end TestConversion.Model
