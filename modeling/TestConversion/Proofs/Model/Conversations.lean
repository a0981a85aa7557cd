import TestConversion.Proofs.Json.ReadBack
import TestConversion.Proofs.Model.Recording

/-!
# What a model is told

Both protocols carry the messages of the user and of the assistant, in their order and as they are,
and the system text. A chat completion carries the messages of the system as well; the other
protocol leaves them out.

* `told?_request`: what the body of a request tells.
* `generate_tells`: what is told by the request that is sent, and when that is the conversation.
* `system_message_untold`: a message of the system that is not told.
-/

namespace TestConversion.Model

open Json

/-! ## Conversations -/

/-- What a model is to do, and what was said before. -/
structure Told where
  /-- The system texts in their order. -/
  instructions : List String
  /-- The other messages in their order, each with the name of its role. -/
  spoken : List (String × String)
  deriving DecidableEq

/-- The contents of the messages of the system. -/
def systemContents (messages : List Message) : List String :=
  (messages.filter fun m => m.role == .system).map (·.content)

def spokenMessages (messages : List Message) : List (String × String) :=
  (messages.filter fun m => m.role != .system).map fun m => (m.role.name, m.content)

/-- All that a conversation tells: the system text comes before the messages of the system. -/
def conversationOf (messages : List Message) (system : Option String) : Told :=
  ⟨system.toList ++ systemContents messages, spokenMessages messages⟩

/-- A message as it stands in a body. -/
def messageOf? (v : Json) : Option (String × String) :=
  ((v.member? "role").bind string?).bind fun role =>
    ((v.member? "content").bind string?).map fun content => (role, content)

/-- What the body of a request tells: its messages, and the text in its system field. -/
def told? (body : String) : Option Told :=
  (parse? body).bind fun v =>
    ((v.member? "messages").bind fun ms => ms.items.mapM messageOf?).map fun ms =>
      { instructions := ((v.member? "system").bind string?).toList ++
          (ms.filter fun m => m.1 == Role.system.name).map (·.2)
        spoken := ms.filter fun m => m.1 != Role.system.name }

/-! ## Bodies -/

theorem hasNumerals_message (m : Message) : HasNumerals m.toJson := by
  apply HasNumerals.of_isNumberFree
  rfl

theorem hasNumerals_messages (messages : List Message) :
    HasNumerals (.array (messages.map Message.toJson)) := by
  refine .array fun v hv => ?_
  obtain ⟨m, -, rfl⟩ := List.mem_map.mp hv
  exact hasNumerals_message m

theorem hasNumerals_numeral (b : Number.Binary) : HasNumerals (numeral b) := by
  rw [numeral]
  split
  · rename_i t ht
    exact .number (isNumeral_recordNumeral? ht)
  · exact .null

theorem hasNumerals_ofNat (n : Nat) : HasNumerals (.ofNat n) := .number (isNumeral_toString n)

variable (c : Config) (key : String) (messages : List Message) (system : Option String)

theorem hasNumerals_chatBody : HasNumerals (chatBody c messages system) := by
  refine .object ?_
  simp only [List.forall_mem_cons]
  exact ⟨.string _, hasNumerals_messages _, hasNumerals_ofNat _, hasNumerals_numeral _,
    fun _ h => absurd h List.not_mem_nil⟩

theorem hasNumerals_messagesBody : HasNumerals (messagesBody c messages system) := by
  refine .object ?_
  cases system with
  | none =>
    simp only [Option.map_none, Option.toList_none, List.cons_append, List.nil_append,
      List.forall_mem_cons]
    exact ⟨.string _, hasNumerals_ofNat _, hasNumerals_messages _, hasNumerals_numeral _,
      fun _ h => absurd h List.not_mem_nil⟩
  | some s =>
    simp only [Option.map_some, Option.toList_some, List.cons_append, List.nil_append,
      List.forall_mem_cons]
    exact ⟨.string _, hasNumerals_ofNat _, hasNumerals_messages _, .string _,
      hasNumerals_numeral _, fun _ h => absurd h List.not_mem_nil⟩

/-! ## Messages -/

theorem messageOf?_toJson (m : Message) : messageOf? m.toJson = some (m.role.name, m.content) := by
  simp [messageOf?, Message.toJson, member?, string?]

theorem name_eq_system (r : Role) : (r.name == Role.system.name) = (r == .system) := by
  cases r <;> decide

theorem mapM_messageOf? (messages : List Message) :
    (messages.map Message.toJson).mapM messageOf? =
      some (messages.map fun m => (m.role.name, m.content)) := by
  induction messages with
  | nil => rfl
  | cons m messages ih =>
    rw [List.map_cons, List.mapM_cons, messageOf?_toJson, ih]
    rfl

/-- What a body tells that has the messages and perhaps a text in its system field. -/
theorem told?_of_parse {body : String} {v : Json} (h : parse? body = some v)
    {messages : List Message}
    (hm : v.member? "messages" = some (.array (messages.map Message.toJson)))
    {system : Option String} (hs : v.member? "system" = system.map Json.string) :
    told? body = some (conversationOf messages system) := by
  have hrole : ∀ m : Message, (m.role.name == Role.system.name) = (m.role == .system) :=
    fun m => name_eq_system m.role
  have hsystem : ((system.map Json.string).bind string?) = system := by cases system <;> rfl
  rw [told?, h, Option.bind_some, hm, hs, hsystem, Option.bind_some, items, mapM_messageOf?]
  simp only [Option.map_some, conversationOf, systemContents, spokenMessages, List.filter_map,
    List.map_map, Function.comp_def, hrole, bne]

theorem conversationOf_chat :
    conversationOf ((system.map (Message.mk .system)).toList ++ messages) none =
      conversationOf messages system := by
  cases system <;> simp [conversationOf, systemContents, spokenMessages]

theorem conversationOf_spoken :
    conversationOf (messages.filter fun m => m.role != .system) system =
      ⟨system.toList, spokenMessages messages⟩ := by
  simp [conversationOf, systemContents, spokenMessages, List.filter_filter]

theorem told?_chatBody :
    told? (chatBody c messages system).compact = some (conversationOf messages system) := by
  rw [← conversationOf_chat]
  exact told?_of_parse (hasNumerals_chatBody c messages system).parse?_compact
    (by simp [chatBody, member?]) (by simp [chatBody, member?])

theorem told?_messagesBody :
    told? (messagesBody c messages system).compact =
      some ⟨system.toList, spokenMessages messages⟩ := by
  rw [← conversationOf_spoken]
  refine told?_of_parse (hasNumerals_messagesBody c messages system).parse?_compact ?_ ?_
  · simp [messagesBody, member?]
  · cases system <;> simp [messagesBody, member?]

theorem told?_request :
    told? (c.request key messages system).bodyText =
      some (if c.backend.speaksChat then conversationOf messages system
        else ⟨system.toList, spokenMessages messages⟩) := by
  unfold Config.request
  split
  · exact told?_chatBody c messages system
  · exact told?_messagesBody c messages system

theorem systemContents_eq_nil :
    systemContents messages = [] ↔ ∀ m ∈ messages, m.role ≠ .system := by
  simp [systemContents, List.filter_eq_nil_iff]

/-- A client sends the user's and the assistant's messages with the system text. Over chat
completions it sends the messages of the system too, so that the whole conversation is told; over
the other protocol it is told only if there are none. -/
theorem generate_tells (c : Client) (answer : List Request → Except String Reply)
    (sent : List Request) :
    let request := c.config.request c.key messages system
    ((c.generate (recording answer) messages system).run sent).2 =
        (if request.isSendable then sent ++ [request] else sent) ∧
      told? request.bodyText = some (if c.backend.speaksChat then conversationOf messages system
        else ⟨system.toList, spokenMessages messages⟩) ∧
      (told? request.bodyText = some (conversationOf messages system) ↔
        c.backend.speaksChat = true ∨ ∀ m ∈ messages, m.role ≠ .system) := by
  have htold := told?_request c.config c.key messages system
  refine ⟨?_, htold, ?_⟩
  · rw [generate_recording]
    dsimp only
    split <;> rfl
  · rw [htold, Option.some.injEq, ← systemContents_eq_nil, Client.backend]
    cases c.config.backend.speaksChat with
    | true => simp
    | false => simp [conversationOf]

/-- A message of the system is not told by the request that is sent. -/
theorem system_message_untold :
    let c : Client := ⟨{ backend := .anthropic }, "k"⟩
    let messages := [⟨.user, "u"⟩, ⟨.system, "s"⟩, ⟨.assistant, "a"⟩]
    ∃ request, ((c.generate (recording fun _ => .error "") messages none).run []).2 = [request] ∧
      told? request.bodyText = some ⟨[], [("user", "u"), ("assistant", "a")]⟩ ∧
      conversationOf messages none = ⟨["s"], [("user", "u"), ("assistant", "a")]⟩ := by
  intro c messages
  have hsendable : (c.config.request c.key messages none).isSendable = true := by decide +kernel
  refine ⟨c.config.request c.key messages none, ?_, ?_, by decide⟩
  · rw [generate_recording]
    dsimp only
    rw [if_pos hsendable]
    rfl
  · rw [told?_request]
    rfl

end TestConversion.Model
