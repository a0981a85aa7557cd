import TestConversion.Proofs.Syntax.Validity

/-!
# Recognising valid trees

A test for valid trees that can be run. It tries the readings of the children of each node up to
some depth of silent rules, so that it may turn down a valid tree, but it accepts no other ones.

* `Grammar.mem_rests`: what the test takes from some trees is given by the rule.
* `Grammar.valid_of_recognises`: a recognised tree is valid.
-/

namespace TestConversion.Syntax

/-- What is behind the first tree, if that is a node of some kind in some field. -/
def behind (kind : String) (named : Bool) (field : Option String) : List Tree → List (List Tree)
  | [] => []
  | t :: ts =>
    if t.kind == kind && t.named == named && !t.extra && !t.missing && t.field == field then [ts]
    else []

/-- What is behind one or more steps, each of which takes something. -/
def behindMany (step : List Tree → List (List Tree)) : Nat → List Tree → List (List Tree)
  | 0, _ => []
  | n + 1, ts =>
    (step ts).flatMap fun rest =>
      rest :: if rest.length < ts.length then behindMany step n rest else []

/-- What is behind the nodes that a rule gives, in each reading; `sub` tells it for names. -/
def Rule.rests (sub : String → Option String → List Tree → List (List Tree)) :
    Rule → Option String → Option String → List Tree → List (List Tree)
  | .blank, _, _, ts => [ts]
  | .token s, k, f, ts => behind (k.getD s) k.isSome f ts
  | .sym n, none, f, ts => sub n f ts
  | .sym _, some k, f, ts => behind k true f ts
  | .seq a b, k, f, ts => (a.rests sub k f ts).flatMap (b.rests sub k f)
  | .choice a b, k, f, ts => a.rests sub k f ts ++ b.rests sub k f ts
  | .many1 r, k, f, ts => behindMany (r.rests sub k f) ts.length ts
  | .field name r, k, _, ts => r.rests sub k (some name) ts
  | .relabel kind r, _, f, ts => r.rests sub (some kind) f ts
  | .level _ _ r, k, f, ts | .weight _ r, k, f, ts => r.rests sub k f ts

namespace Grammar

/-- What is behind the nodes that a name gives, with silent rules opened up to some depth. -/
def rests (g : Grammar) : Nat → String → Option String → List Tree → List (List Tree)
  | 0, _, _, _ => []
  | depth + 1, n, f, ts =>
    if g.isSilent n then
      if g.isLexeme n then [ts]
      else ((g.rule? n).map fun r => r.rests (g.rests depth) none f ts).getD []
    else behind n true f ts

/-- The names whose nodes may have some kind. -/
def namesOf (g : Grammar) (kind : String) : List String :=
  kind :: g.aliases.filterMap fun a =>
    match a with
    | (k, .sym n) => if k == kind then some n else none
    | _ => none

/-- A test for labels of tokens. -/
def testsToken (g : Grammar) (l : Label) : Bool :=
  if l.extra then l.named && l.field == none && g.extras.contains l.kind
  else if l.named then (g.namesOf l.kind).any g.isLexeme
  else g.texts.contains l.kind

/-- A test for licensed nodes. -/
def tests (g : Grammar) (depth : Nat) (t : Tree) : Bool :=
  !t.missing &&
    (t.children.isEmpty && decide (t.span.start < t.span.stop) && g.testsToken t.label ||
      !t.extra && t.named && (g.namesOf t.kind).any fun n =>
        ((g.rule? n).map fun r =>
          (r.rests (g.rests depth) none none (t.children.filter fun c => !c.extra)).any
            (·.isEmpty)).getD false)

/-- A test for valid trees. -/
def recognises (g : Grammar) (depth : Nat) (t : Tree) : Bool := t.preorder.all (g.tests depth)

variable {g : Grammar}

/-! ## Soundness -/

theorem mem_behind {kind : String} {named : Bool} {field : Option String} {ts rest : List Tree}
    (h : rest ∈ behind kind named field ts) :
    ∃ t, ts = t :: rest ∧ t.IsNode kind named field := by
  cases ts with
  | nil => cases h
  | cons t ts =>
    rw [behind] at h
    split at h
    · rename_i hc
      cases List.mem_singleton.mp h
      simp only [Bool.and_eq_true, beq_iff_eq, Bool.not_eq_true'] at hc
      obtain ⟨⟨⟨⟨hk, hn⟩, hx⟩, hm⟩, hf⟩ := hc
      exact ⟨t, rfl, hk, hn, hx, hm, hf⟩
    · cases h

/-- What a rule takes from the front of some trees, it gives. -/
def Takes (g : Grammar) (r : Rule) (k f : Option String) (ts rest : List Tree) : Prop :=
  ∃ us, ts = us ++ rest ∧ g.Gives r k f us

theorem mem_behindMany {r : Rule} {k f : Option String} {step : List Tree → List (List Tree)}
    (hstep : ∀ ts rest, rest ∈ step ts → g.Takes r k f ts rest) {n : Nat} {ts rest : List Tree}
    (h : rest ∈ behindMany step n ts) : g.Takes (.many1 r) k f ts rest := by
  induction n generalizing ts with
  | zero => cases h
  | succ n ih =>
    rw [behindMany] at h
    obtain ⟨mid, hmid, h⟩ := List.mem_flatMap.mp h
    obtain ⟨us, rfl, hus⟩ := hstep ts mid hmid
    rcases List.mem_cons.mp h with rfl | h
    · exact ⟨us, rfl, .one hus⟩
    · split at h
      · obtain ⟨vs, rfl, hvs⟩ := ih h
        exact ⟨us ++ vs, (List.append_assoc us vs rest).symm, .more hus hvs⟩
      · cases h

theorem Takes.of_behind {r : Rule} {k f : Option String} {kind : String} {named : Bool}
    {ts rest : List Tree} (h : rest ∈ behind kind named f ts)
    (hr : ∀ t : Tree, t.IsNode kind named f → g.Gives r k f [t]) : g.Takes r k f ts rest := by
  obtain ⟨t, rfl, ht⟩ := mem_behind h
  exact ⟨[t], rfl, hr t ht⟩

theorem mem_rule_rests {sub : String → Option String → List Tree → List (List Tree)}
    (hsub : ∀ n f ts rest, rest ∈ sub n f ts → g.Takes (.sym n) none f ts rest) {r : Rule}
    {k f : Option String} {ts rest : List Tree} (h : rest ∈ r.rests sub k f ts) :
    g.Takes r k f ts rest := by
  induction r generalizing k f ts rest with
  | blank =>
    cases List.mem_singleton.mp h
    exact ⟨[], rfl, .blank⟩
  | token s => exact Takes.of_behind h fun _ => .token
  | sym n =>
    cases k with
    | none => exact hsub n f ts rest h
    | some k => exact Takes.of_behind h fun _ ht => .node (k := some k) (Or.inl rfl) ht
  | seq a b iha ihb =>
    obtain ⟨mid, hmid, hrest⟩ := List.mem_flatMap.mp h
    obtain ⟨us, rfl, hus⟩ := iha hmid
    obtain ⟨vs, rfl, hvs⟩ := ihb hrest
    exact ⟨us ++ vs, (List.append_assoc us vs rest).symm, .seq hus hvs⟩
  | choice a b iha ihb =>
    rcases List.mem_append.mp h with h | h
    · obtain ⟨us, hts, hus⟩ := iha h
      exact ⟨us, hts, .left hus⟩
    · obtain ⟨us, hts, hus⟩ := ihb h
      exact ⟨us, hts, .right hus⟩
  | many1 r ih => exact mem_behindMany (fun _ _ => ih) h
  | field name r ih =>
    obtain ⟨us, hts, hus⟩ := ih h
    exact ⟨us, hts, .field hus⟩
  | relabel kind r ih =>
    obtain ⟨us, hts, hus⟩ := ih h
    exact ⟨us, hts, .relabel hus⟩
  | level assoc n r ih =>
    obtain ⟨us, hts, hus⟩ := ih h
    exact ⟨us, hts, .level hus⟩
  | weight n r ih =>
    obtain ⟨us, hts, hus⟩ := ih h
    exact ⟨us, hts, .weight hus⟩

theorem mem_rests {depth : Nat} {n : String} {f : Option String} {ts rest : List Tree}
    (h : rest ∈ g.rests depth n f ts) : g.Takes (.sym n) none f ts rest := by
  induction depth generalizing n f ts rest with
  | zero => cases h
  | succ depth ih =>
    rw [rests] at h
    split at h
    · rename_i hn
      split at h
      · rename_i hl
        cases List.mem_singleton.mp h
        exact ⟨[], rfl, .lexeme hn hl⟩
      · cases hr : g.rule? n with
        | none => simp [hr] at h
        | some r =>
          rw [hr] at h
          obtain ⟨us, hts, hus⟩ := mem_rule_rests (fun _ _ _ _ => ih) h
          exact ⟨us, hts, .silent hn hr hus⟩
    · rename_i hn
      exact Takes.of_behind h fun _ ht => .node (k := none) (Or.inr (by simpa using hn)) ht

theorem shows_of_mem_namesOf {kind n : String} (h : n ∈ g.namesOf kind) :
    g.Shows kind (.sym n) := by
  rcases List.mem_cons.mp h with rfl | h
  · exact Or.inl rfl
  · obtain ⟨⟨k, r⟩, ha, h⟩ := List.mem_filterMap.mp h
    cases r <;> simp at h
    obtain ⟨rfl, rfl⟩ := h
    exact Or.inr ha

theorem isToken_of_testsToken {l : Label} (h : g.testsToken l = true) : g.IsToken l := by
  rw [testsToken] at h
  cases hx : l.extra with
  | true =>
    rw [hx, if_pos rfl] at h
    simp only [Bool.and_eq_true, beq_iff_eq, List.contains_iff_mem] at h
    exact .extra hx h.1.1 h.1.2 h.2
  | false =>
    cases hn : l.named with
    | true =>
      rw [hx, hn, if_neg Bool.false_ne_true, if_pos rfl] at h
      obtain ⟨n, hmem, hl⟩ := List.any_eq_true.mp h
      exact .lexeme hx hn (shows_of_mem_namesOf hmem) hl
    | false =>
      rw [hx, hn, if_neg Bool.false_ne_true, if_neg Bool.false_ne_true] at h
      exact .text hx hn (List.contains_iff_mem.mp h)

theorem licenses_of_tests {depth : Nat} {t : Tree} (h : g.tests depth t = true) :
    g.Licenses t := by
  cases t with
  | node l cs =>
    simp only [tests, Bool.and_eq_true, Bool.or_eq_true, Bool.not_eq_true', decide_eq_true_eq,
      List.isEmpty_iff] at h
    obtain ⟨hm, ⟨⟨hcs, hs⟩, ht⟩ | ⟨⟨hx, hn⟩, h⟩⟩ := h
    · cases (show cs = [] from hcs)
      exact .token (isToken_of_testsToken ht) hm hs
    · obtain ⟨n, hmem, h⟩ := List.any_eq_true.mp h
      cases hr : g.rule? n with
      | none => simp [hr] at h
      | some r =>
        rw [hr] at h
        obtain ⟨rest, hrest, hnil⟩ := List.any_eq_true.mp h
        cases List.isEmpty_iff.mp hnil
        obtain ⟨us, hts, hus⟩ := mem_rule_rests (fun _ _ _ _ => mem_rests) hrest
        rw [List.append_nil] at hts
        exact .branch hx hn hm (shows_of_mem_namesOf hmem) hr (hts ▸ hus)

theorem valid_of_recognises (depth : Nat) {t : Tree} (h : g.recognises depth t = true) :
    g.Valid t :=
  fun _ hn => licenses_of_tests (List.all_eq_true.mp h _ hn)

end Grammar

end TestConversion.Syntax
