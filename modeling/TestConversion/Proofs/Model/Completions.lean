import TestConversion.Model.Reply
import TestConversion.Proofs.Json.Documents
import Mathlib.Data.List.Forall2

/-!
# Chat completions

A body decodes as a chat completion if it is a whole JSON text with choices, each of which has a
message with a string for its content. Every choice is read, not only the one that is taken; members
of other names are passed over.

* `exists_completion_of_decode`: what decodes is a list of contents.
* `decode_completion_iff`: which JSON values decode, and to which contents.
* `chatText_completion`: the content of the first choice is taken.
-/

namespace TestConversion.Model

open Json

/-- A choice as it is kept. -/
def choiceOf (content : String) : Json :=
  .object [("message", .object [("content", .string content)])]

/-- A completion as it is kept. -/
def completion (contents : List String) : Json :=
  .object [("choices", .array (contents.map choiceOf))]

def messageShape : Shape := .record [("content", .text)]

def choiceShape : Shape := .record [("message", messageShape)]

theorem chatShape_eq : chatShape = .record [("choices", .list choiceShape)] := rfl

theorem choiceOf_injective : Function.Injective choiceOf := by
  intro s t h
  simpa [choiceOf] using h

theorem completion_injective : Function.Injective completion := by
  intro ss ts h
  simp only [completion, Json.object.injEq, List.cons.injEq, Prod.mk.injEq, Json.array.injEq,
    true_and, and_true] at h
  exact List.map_injective_iff.mpr choiceOf_injective h

/-- The content of the first choice is taken. -/
theorem chatText_completion (contents : List String) :
    chatText (completion contents) =
      match contents with
      | [] => .error .noChoice
      | content :: _ => .ok content := by
  cases contents with
  | nil => rfl
  | cons content contents => simp [chatText, completion, choiceOf, member?, items, string?]

/-! ## What decodes -/

theorem exists_choice_of_read {cs rest : List Char} {w : Json}
    (h : read choiceShape cs = .ok (w, rest)) : ∃ content, w = choiceOf content := by
  obtain ⟨m, rfl, _, _, hm⟩ := read_field_eq_ok (fun t ht => by cases ht) h
  obtain ⟨c, rfl, _, _, hc⟩ := read_field_eq_ok (fun t ht => by cases ht) hm
  obtain ⟨content, rfl⟩ := read_text_eq_ok hc
  exact ⟨content, rfl⟩

theorem exists_contents {vs : List Json} (h : ∀ v ∈ vs, ∃ content, v = choiceOf content) :
    ∃ contents : List String, vs = contents.map choiceOf := by
  induction vs with
  | nil => exact ⟨[], rfl⟩
  | cons v vs ih =>
    obtain ⟨content, rfl⟩ := h v List.mem_cons_self
    obtain ⟨contents, rfl⟩ := ih fun w hw => h w (List.mem_cons_of_mem _ hw)
    exact ⟨content :: contents, rfl⟩

/-- What decodes is a list of contents. -/
theorem exists_completion_of_decode {text : String} {w : Json}
    (h : decode chatShape text = .ok w) : ∃ contents, w = completion contents := by
  obtain ⟨rest, hread, -⟩ := exists_read_of_decode h
  rw [chatShape_eq] at hread
  obtain ⟨v, rfl, _, _, hv⟩ := read_field_eq_ok (fun t ht => by cases ht) hread
  obtain ⟨vs, rfl, hvs⟩ := read_list_eq_ok hv
  obtain ⟨contents, rfl⟩ := exists_contents fun v hv => by
    obtain ⟨cs, rest, hread⟩ := hvs v hv
    exact exists_choice_of_read hread
  exact ⟨contents, rfl⟩

/-! ## Values that decode -/

/-- The value has one member of the name, or is an array of one item in its place. -/
def HoldsOnly (name : String) (v w : Json) : Prop :=
  valuesOf v.members name = [w] ∨ v = .array [w]

/-- A choice with a message whose content is the string. -/
def IsChoice (v : Json) (content : String) : Prop :=
  ∃ m, HoldsOnly "message" v m ∧ HoldsOnly "content" m (.string content)

/-- A completion, with the contents of all its choices. -/
def IsCompletion (v : Json) (contents : List String) : Prop :=
  ∃ choices, HoldsOnly "choices" v (.array choices) ∧ List.Forall₂ IsChoice choices contents

section

variable {s : Shape} {name : String} {v w : Json}

theorem fit_text_iff : fit .text v = some w ↔ ∃ t, v = .string t ∧ w = .string t := by
  cases v <;> simp [fit, eq_comm]

theorem mapM_eq_some_iff {α β : Type} {f : α → Option β} {xs : List α} {ys : List β} :
    xs.mapM f = some ys ↔ List.Forall₂ (fun x y => f x = some y) xs ys := by
  induction xs generalizing ys with
  | nil => cases ys <;> simp
  | cons x xs ih =>
    rw [List.mapM_cons]
    cases ys with
    | nil => cases f x <;> cases xs.mapM f <;> simp
    | cons y ys =>
      rw [List.forall₂_cons, ← ih]
      cases f x <;> cases xs.mapM f <;> simp

theorem fit_list_iff : fit (.list s) v = some w ↔
    ∃ vs ws, v = .array vs ∧ List.Forall₂ (fun v w => fit s v = some w) vs ws ∧ w = .array ws := by
  cases v with
  | array vs => simp [fit, mapM_eq_some_iff, @eq_comm _ w]
  | _ => simp [fit]

/-- A record of one field is an object with the field, once, or an array of it. -/
theorem fit_field_iff (hs : ∀ t, s ≠ .optional t) : fit (.record [(name, s)]) v = some w ↔
    ∃ x y, HoldsOnly name v x ∧ fit s x = some y ∧ w = .object [(name, y)] := by
  cases v with
  | object ms =>
    have hfields : fit (.record [(name, s)]) (.object ms) =
        (fieldValue s (valuesOf ms name)).map fun y => .object [(name, y)] := by
      rw [fit_record (by simp), fieldValues_cons, fieldValues_nil]
      cases fieldValue s (valuesOf ms name) <;> rfl
    simp only [hfields, HoldsOnly, members, reduceCtorEq, or_false]
    rcases valuesOf ms name with _ | ⟨x, _ | ⟨x', xs⟩⟩
    · cases s <;> simp_all [fieldValue]
    · simp [fieldValue, eq_comm]
    · cases s <;> simp [fieldValue]
  | array vs =>
    simp only [HoldsOnly, members, valuesOf, List.filter_nil, List.map_nil, reduceCtorEq, false_or,
      Json.array.injEq]
    rcases vs with _ | ⟨x, _ | ⟨x', xs⟩⟩
    · simp [fit, fitRow]
    · cases hx : fit s x <;> simp [fit, fitRow, hx, @eq_comm _ w]
    · simp [fit, fitRow]
  | _ => simp [fit, HoldsOnly, members, valuesOf]

end

theorem fit_choice_iff {v w : Json} :
    fit choiceShape v = some w ↔ ∃ content, IsChoice v content ∧ w = choiceOf content := by
  rw [choiceShape, fit_field_iff (fun t ht => by cases ht)]
  constructor
  · rintro ⟨m, y, hm, hfit, rfl⟩
    rw [messageShape, fit_field_iff (fun t ht => by cases ht)] at hfit
    obtain ⟨c, z, hc, htext, rfl⟩ := hfit
    obtain ⟨content, rfl, rfl⟩ := fit_text_iff.mp htext
    exact ⟨content, ⟨m, hm, hc⟩, rfl⟩
  · rintro ⟨content, ⟨m, hm, hc⟩, rfl⟩
    refine ⟨m, _, hm, ?_, rfl⟩
    rw [messageShape, fit_field_iff (fun t ht => by cases ht)]
    exact ⟨_, _, hc, fit_text_iff.mpr ⟨content, rfl, rfl⟩, rfl⟩

theorem fit_choices_iff {vs ws : List Json} :
    List.Forall₂ (fun v w => fit choiceShape v = some w) vs ws ↔
      ∃ contents, List.Forall₂ IsChoice vs contents ∧ ws = contents.map choiceOf := by
  constructor
  · intro h
    induction h with
    | nil => exact ⟨[], .nil, rfl⟩
    | cons hfit _ ih =>
      obtain ⟨content, hc, rfl⟩ := fit_choice_iff.mp hfit
      obtain ⟨contents, hcs, rfl⟩ := ih
      exact ⟨content :: contents, .cons hc hcs, rfl⟩
  · rintro ⟨contents, h, rfl⟩
    rw [List.forall₂_map_right_iff]
    exact h.imp fun v content hc => fit_choice_iff.mpr ⟨content, hc, rfl⟩

theorem fit_completion_iff {v w : Json} :
    fit chatShape v = some w ↔ ∃ contents, IsCompletion v contents ∧ w = completion contents := by
  rw [chatShape_eq, fit_field_iff (fun t ht => by cases ht)]
  constructor
  · rintro ⟨x, y, hx, hfit, rfl⟩
    obtain ⟨choices, ws, rfl, hws, rfl⟩ := fit_list_iff.mp hfit
    obtain ⟨contents, hcs, rfl⟩ := fit_choices_iff.mp hws
    exact ⟨contents, ⟨choices, hx, hcs⟩, rfl⟩
  · rintro ⟨contents, ⟨choices, hx, hcs⟩, rfl⟩
    exact ⟨_, _, hx, fit_list_iff.mpr ⟨choices, _, rfl, fit_choices_iff.mpr ⟨contents, hcs, rfl⟩, rfl⟩,
      rfl⟩

/-- The text of a value decodes to contents exactly if the value is a completion with them. -/
theorem decode_completion_iff {text : String} {v : Json} (h : parse? text = some v)
    {contents : List String} :
    decode chatShape text = .ok (completion contents) ↔ IsCompletion v contents := by
  rcases decode_of_parse? h chatShape with ⟨hnone, e, hdecode⟩ | ⟨w, hw, hdecode⟩
  · rw [hdecode]
    constructor
    · intro hno
      cases hno
    · intro hc
      rw [fit_completion_iff.mpr ⟨contents, hc, rfl⟩] at hnone
      cases hnone
  · obtain ⟨contents', hc, rfl⟩ := fit_completion_iff.mp hw
    rw [hdecode, Except.ok.injEq, completion_injective.eq_iff]
    constructor
    · rintro rfl
      exact hc
    · intro hc'
      have hfit := fit_completion_iff.mpr ⟨contents, hc', rfl⟩
      rw [hw, Option.some.injEq, completion_injective.eq_iff] at hfit
      exact hfit

end TestConversion.Model
