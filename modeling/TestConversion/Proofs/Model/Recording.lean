import TestConversion.Model.Client

/-!
# Requests that are sent

A transport that keeps every request shows what a program sends. Its answers may depend on all
requests up to the one that is answered.

* `generate_recording`: a client sends one request, or none where a header cannot hold its key.
* `Sends.bind`: what is sent by two programs one after the other.
-/

namespace TestConversion.Model

/-- A program that keeps the requests it sends. -/
abbrev Recorded := StateM (List Request)

/-- Keeps each request, and answers it by all that were kept. -/
def recording (answer : List Request → Except String Reply) : Transport Recorded :=
  fun r sent => (answer (sent ++ [r]), sent ++ [r])

/-- All requests that the program sends are such, whatever was sent before it. -/
def Sends {α : Type} (P : Request → Prop) (x : Recorded α) : Prop :=
  ∀ sent, ∃ new, (x.run sent).2 = sent ++ new ∧ ∀ r ∈ new, P r

variable {α β : Type} {P : Request → Prop}

theorem Recorded.run_bind (x : Recorded α) (f : α → Recorded β) (sent : List Request) :
    (x >>= f).run sent = (f (x.run sent).1).run (x.run sent).2 := rfl

theorem sends_pure (a : α) : Sends P (pure a : Recorded α) :=
  fun sent => ⟨[], (List.append_nil sent).symm, fun _ h => absurd h List.not_mem_nil⟩

theorem sends_recording (answer : List Request → Except String Reply) {r : Request} (h : P r) :
    Sends P (recording answer r) := by
  intro sent
  refine ⟨[r], rfl, fun r' hr => ?_⟩
  rw [List.mem_singleton.mp hr]
  exact h

theorem Sends.mono {Q : Request → Prop} {x : Recorded α} (hx : Sends P x) (h : ∀ r, P r → Q r) :
    Sends Q x := by
  intro sent
  obtain ⟨new, hnew, hP⟩ := hx sent
  exact ⟨new, hnew, fun r hr => h r (hP r hr)⟩

theorem Sends.bind {x : Recorded α} {f : α → Recorded β} (hx : Sends P x)
    (hf : ∀ a, Sends P (f a)) : Sends P (x >>= f) := by
  intro sent
  obtain ⟨new, hnew, hP⟩ := hx sent
  obtain ⟨more, hmore, hQ⟩ := hf (x.run sent).1 (sent ++ new)
  refine ⟨new ++ more, ?_, fun r hr => ?_⟩
  · rw [Recorded.run_bind, ← List.append_assoc, ← hmore, ← hnew]
  · rcases List.mem_append.mp hr with hr | hr
    · exact hP r hr
    · exact hQ r hr

theorem Sends.map {x : Recorded α} (hx : Sends P x) (f : α → β) : Sends P (f <$> x) := by
  rw [← bind_pure_comp]
  exact hx.bind fun a => sends_pure (f a)

/-! ## Clients -/

variable (c : Client) (answer : List Request → Except String Reply) (messages : List Message)
  (system : Option String)

/-- The request of a conversation is the only one that is sent for it. -/
theorem generate_recording (sent : List Request) :
    (c.generate (recording answer) messages system).run sent =
      let request := c.config.request c.key messages system
      if request.isSendable then (c.answerOf (answer (sent ++ [request])), sent ++ [request])
      else (.error (.undelivered "http: failed to parse header value"), sent) := by
  rw [Client.generate]
  dsimp only
  split
  · rfl
  · rfl

theorem sends_generate (h : P (c.config.request c.key messages system)) :
    Sends P (c.generate (recording answer) messages system) := by
  rw [Client.generate]
  split
  · exact (sends_recording answer h).map _
  · exact sends_pure _

end TestConversion.Model
