import TestConversion.Proofs.Json.Strings
import TestConversion.Proofs.Text.Sequences

/-!
# Escape sequences in JSON texts

In a written string a control character is written as an escape, so that it starts no sequence, but
the introducer stands as it is. No sequence goes on over a quote or a backslash. So taking the
sequences out of a JSON text takes those behind an introducer out of its strings, and nothing else.

* `rest?_afterQuote`: a sequence ends in the written string that it starts in.
* `unescaped_write`: what is left of a written value without the sequences in it.
-/

namespace TestConversion.Json

open Text

/-! ## Characters -/

/-- A sequence may go on with the character. -/
def continuesEscape (c : Char) : Bool :=
  c.isDigit || c == ';' || "()[#?".toList.contains c || closesEscape c

theorem step_of_not_continues {c : Char} (h : continuesEscape c = false) (s : Escape) :
    s.step c = none := by
  simp only [continuesEscape, Bool.or_eq_false_iff] at h
  obtain ⟨⟨⟨hdigit, hsemicolon⟩, hmark⟩, hcloses⟩ := h
  rw [Escape.step, hdigit, hsemicolon, hmark, hcloses]
  split <;> rfl

theorem not_continues_control : ∀ n < 0x20, continuesEscape (Char.ofNat n) = false := by decide

/-- A character is written as it is, or behind a backslash if no sequence goes on with it. -/
theorem escapeChar_cases (c : Char) :
    escapeChar c = [c] ∨ ∃ cs, escapeChar c = '\\' :: cs ∧ continuesEscape c = false := by
  unfold escapeChar
  split
  case h_8 =>
    split
    case isTrue h =>
      have hc := not_continues_control c.toNat h
      rw [Char.ofNat_toNat] at hc
      exact .inr ⟨_, rfl, hc⟩
    case isFalse => exact .inl rfl
  all_goals exact .inr ⟨_, rfl, by decide⟩

/-- Of the written forms only that of the introducer starts a sequence. -/
theorem startsEscape_of_mem_escapeChar {c d : Char} (hc : c ≠ introducer)
    (h : d ∈ escapeChar c) : startsEscape d = false := by
  have hcontrol := le_toNat_of_mem_escapeChar h
  have hfirst : d ≠ '\x1b' := by
    rintro rfl
    revert hcontrol
    decide
  have hsecond : d ≠ introducer := by
    rintro rfl
    unfold escapeChar at h
    split at h
    case h_8 =>
      split at h
      case isTrue hlt =>
        have hdigit : ∀ n < 16, introducer ≠ hexDigit n := by decide
        have hhigh := hdigit (c.toNat / 16) (by omega)
        have hlow := hdigit (c.toNat % 16) (by omega)
        simp only [List.mem_cons, List.not_mem_nil, or_false, hhigh, hlow] at h
        revert h
        decide
      case isFalse => exact hc (List.mem_singleton.mp h).symm
    all_goals revert h; decide
  rw [startsEscape, Bool.or_eq_false_iff, beq_eq_false_iff_ne, beq_eq_false_iff_ne]
  exact ⟨hfirst, hsecond⟩

/-! ## Strings -/

/-- A sequence ends in the written string that it starts in. -/
theorem rest?_afterQuote (s : Escape) (cs rest : List Char) :
    s.rest? (afterQuote cs rest) = (s.rest? cs).map fun r => afterQuote r rest := by
  induction cs generalizing s with
  | nil =>
    have hquote := step_of_not_continues (c := '"') (by decide) s
    rw [afterQuote, List.foldr_nil, Escape.rest?_of_no_step hquote, Escape.rest?]
    cases s.isComplete <;> rfl
  | cons c cs ih =>
    rw [afterQuote_cons]
    rcases escapeChar_cases c with hplain | ⟨tail, hescaped, hc⟩
    · rw [hplain, List.singleton_append, Escape.rest?, Escape.rest?]
      have hstop : (if s.isComplete then some (c :: afterQuote cs rest) else none) =
          (if s.isComplete then some (c :: cs) else none).map fun r => afterQuote r rest := by
        cases s.isComplete with
        | true => simp [afterQuote_cons, hplain]
        | false => rfl
      cases s.step c with
      | none => simpa using hstop
      | some t =>
        rw [Option.bind_some, Option.bind_some, ih t, hstop]
        cases t.rest? cs <;> rfl
    · have hslash := step_of_not_continues (c := '\\') (by decide) s
      rw [hescaped, List.cons_append, Escape.rest?_of_no_step hslash,
        Escape.rest?_of_no_step (step_of_not_continues hc s)]
      cases s.isComplete with
      | true => simp [afterQuote_cons, hescaped]
      | false => rfl

/-- Of a written string the sequences behind an introducer are taken out. -/
theorem unescaped_afterQuote (cs rest : List Char) :
    unescaped (afterQuote cs rest) = afterQuote (unintroduced cs) (unescaped rest) := by
  have hescape : escapeChar introducer = [introducer] := by decide
  fun_induction unintroduced cs with
  | case1 => exact unescaped_of_not_starts (by decide) rest
  | case2 cs r hr hle ih =>
    have hrest : Escape.begun.rest? (afterQuote cs rest) = some (afterQuote r rest) := by
      rw [rest?_afterQuote, hr]
      rfl
    rw [afterQuote_cons, hescape, List.singleton_append,
      unescaped_of_rest startsEscape_introducer hrest, ih]
  | case3 cs hr ih =>
    have hrest : Escape.begun.rest? (afterQuote cs rest) = none := by
      rw [rest?_afterQuote, hr]
      rfl
    rw [afterQuote_cons, afterQuote_cons, hescape, List.singleton_append, List.singleton_append,
      unescaped_of_no_rest startsEscape_introducer hrest, ih]
  | case4 c cs hc ih =>
    rw [afterQuote_cons, afterQuote_cons,
      unescaped_append_of_none fun d hd => startsEscape_of_mem_escapeChar hc hd, ih]

theorem unescaped_writeString (s : String) (rest : List Char) :
    unescaped (writeString s rest) = writeString (plain s) (unescaped rest) := by
  rw [writeString_eq, writeString_eq, unescaped_of_not_starts (by decide), unescaped_afterQuote,
    plain, String.toList_ofList]

/-! ## Values -/

mutual

/-- The value with other texts in its strings. -/
def mapTexts (f : String → String) : Json → Json
  | .string s => .string (f s)
  | .array vs => .array (mapItems f vs)
  | .object ms => .object (mapMembers f ms)
  | v => v

def mapItems (f : String → String) : List Json → List Json
  | [] => []
  | v :: vs => mapTexts f v :: mapItems f vs

def mapMembers (f : String → String) : List (String × Json) → List (String × Json)
  | [] => []
  | (k, v) :: ms => (k, mapTexts f v) :: mapMembers f ms

end

/-- The value has no numbers, and no introducer in its keys. -/
inductive IsTextual : Json → Prop where
  | null : IsTextual .null
  | bool (b : Bool) : IsTextual (.bool b)
  | string (s : String) : IsTextual (.string s)
  | array {vs : List Json} (h : ∀ v ∈ vs, IsTextual v) : IsTextual (.array vs)
  | object {ms : List (String × Json)} (hk : ∀ m ∈ ms, introducer ∉ m.1.toList)
      (h : ∀ m ∈ ms, IsTextual m.2) : IsTextual (.object ms)

theorem plain_of_not_mem {s : String} (h : introducer ∉ s.toList) : plain s = s := by
  rw [plain_eq_self_iff]
  intro cs hcs
  exact absurd (hcs.subset List.mem_cons_self) h

theorem startsEscape_of_isSpace {c : Char} (h : isSpace c = true) : startsEscape c = false := by
  simp only [isSpace, Bool.or_eq_true, beq_iff_eq] at h
  rcases h with ((rfl | rfl) | rfl) | rfl <;> decide

theorem unescaped_append_of_all {bs : List Char} (h : bs.all (fun c => !startsEscape c) = true)
    (cs : List Char) : unescaped (bs ++ cs) = bs ++ unescaped cs := by
  refine unescaped_append_of_none (fun c hc => ?_) cs
  have := List.all_eq_true.mp h c hc
  rwa [Bool.not_eq_true'] at this

theorem unescaped_append_blank {bs : List Char} (h : IsBlank bs) (cs : List Char) :
    unescaped (bs ++ cs) = bs ++ unescaped cs :=
  unescaped_append_of_none (fun c hc => startsEscape_of_isSpace (h c hc)) cs

theorem unescaped_append_colon {l : Layout} (hl : l.IsBlank) (cs : List Char) :
    unescaped (l.colon ++ cs) = l.colon ++ unescaped cs := by
  obtain ⟨bs, hcolon, hbs⟩ := hl.colon
  rw [hcolon, List.cons_append, unescaped_of_not_starts (by decide), unescaped_append_blank hbs]
  rfl

variable {l : Layout}

mutual

/-- Of a written value the sequences behind an introducer are taken out of its strings. -/
theorem unescaped_write (hl : l.IsBlank) (depth : Nat) {v : Json} (hv : IsTextual v)
    (rest : List Char) :
    unescaped (write l depth v rest) = write l depth (mapTexts plain v) (unescaped rest) := by
  match v with
  | .null => exact @unescaped_append_of_all "null".toList (by decide) rest
  | .bool true => exact @unescaped_append_of_all "true".toList (by decide) rest
  | .bool false => exact @unescaped_append_of_all "false".toList (by decide) rest
  | .number t => cases hv
  | .string s => exact unescaped_writeString s rest
  | .array [] => exact @unescaped_append_of_all ['[', ']'] (by decide) rest
  | .array (v :: vs) =>
    cases hv with
    | array h =>
    rw [List.forall_mem_cons] at h
    rw [write, mapTexts, mapItems, write, unescaped_of_not_starts (by decide),
      unescaped_append_blank (hl.break_ _), unescaped_write hl (depth + 1) h.1,
      unescaped_writeItems hl (depth + 1) h.2, unescaped_append_blank (hl.break_ _),
      unescaped_of_not_starts (by decide)]
  | .object [] => exact @unescaped_append_of_all ['\x7b', '\x7d'] (by decide) rest
  | .object ((k, v) :: ms) =>
    cases hv with
    | object hk h =>
    rw [List.forall_mem_cons] at hk h
    rw [write, mapTexts, mapMembers, write, unescaped_of_not_starts (by decide),
      unescaped_append_blank (hl.break_ _), unescaped_writeString, plain_of_not_mem hk.1,
      unescaped_append_colon hl, unescaped_write hl (depth + 1) h.1,
      unescaped_writeMembers hl (depth + 1) hk.2 h.2, unescaped_append_blank (hl.break_ _),
      unescaped_of_not_starts (by decide)]

theorem unescaped_writeItems (hl : l.IsBlank) (depth : Nat) {vs : List Json}
    (hv : ∀ v ∈ vs, IsTextual v) (rest : List Char) :
    unescaped (writeItems l depth vs rest) =
      writeItems l depth (mapItems plain vs) (unescaped rest) := by
  match vs with
  | [] => rfl
  | v :: vs =>
    rw [List.forall_mem_cons] at hv
    rw [writeItems, mapItems, writeItems, unescaped_of_not_starts (by decide),
      unescaped_append_blank (hl.break_ _), unescaped_write hl depth hv.1,
      unescaped_writeItems hl depth hv.2]

theorem unescaped_writeMembers (hl : l.IsBlank) (depth : Nat) {ms : List (String × Json)}
    (hk : ∀ m ∈ ms, introducer ∉ m.1.toList) (hv : ∀ m ∈ ms, IsTextual m.2)
    (rest : List Char) :
    unescaped (writeMembers l depth ms rest) =
      writeMembers l depth (mapMembers plain ms) (unescaped rest) := by
  match ms with
  | [] => rfl
  | (k, v) :: ms =>
    rw [List.forall_mem_cons] at hk hv
    rw [writeMembers, mapMembers, writeMembers, unescaped_of_not_starts (by decide),
      unescaped_append_blank (hl.break_ _), unescaped_writeString, plain_of_not_mem hk.1,
      unescaped_append_colon hl, unescaped_write hl depth hv.1,
      unescaped_writeMembers hl depth hk.2 hv.2]

end

end TestConversion.Json
