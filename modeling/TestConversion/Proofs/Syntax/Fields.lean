import TestConversion.Proofs.Syntax.Validity

/-!
# Kinds of the nodes in a field

A rule may fill a field at several places, also in silent rules that it uses. Looking through all of
them tells what every node in the field is, without a proof about each place.

* `Rule.fillsWith`, `Grammar.fillsWith`: whatever fills a field has a kind with some property.
* `Grammar.Gives.of_fillsWith`, `Grammar.Licenses.filler_kind`: that is so for what a rule gives, and
  for the children of a licensed node.
-/

namespace TestConversion.Syntax

/-- The nodes that a rule gives for a field have kinds with some property; `sub` tells it for
names. -/
def Rule.fillsWith (field : String) (p : String → Bool) (sub : Option String → String → Bool) :
    Rule → Option String → Option String → Bool
  | .blank, _, _ => true
  | .token s, k, f => f != some field || p (k.getD s)
  | .sym n, none, f => sub f n
  | .sym _, some k, f => f != some field || p k
  | .seq a b, k, f | .choice a b, k, f => a.fillsWith field p sub k f && b.fillsWith field p sub k f
  | .many1 r, k, f | .level _ _ r, k, f | .weight _ r, k, f => r.fillsWith field p sub k f
  | .field name r, k, _ => r.fillsWith field p sub k (some name)
  | .relabel kind r, _, f => r.fillsWith field p sub (some kind) f

namespace Grammar

/-- The nodes that a name gives for a field have kinds with some property; silent rules are opened
up to some depth. -/
def fillsWith (g : Grammar) (field : String) (p : String → Bool) :
    Nat → Option String → String → Bool
  | 0, _, _ => false
  | depth + 1, f, n =>
    if g.isSilent n then
      (g.rule? n).all fun r => r.fillsWith field p (g.fillsWith field p depth) none f
    else f != some field || p n

variable {g : Grammar} {r : Rule} {k f : Option String} {ts : List Tree}

/-- The one node of a token or a name. -/
theorem kind_of_isNode {t c : Tree} {kind field : String} {named : Bool} {p : String → Bool}
    (h : t.IsNode kind named f) (hp : (f != some field || p kind) = true) (hc : c ∈ [t])
    (hf : c.field = some field) : p c.kind = true := by
  cases List.mem_singleton.mp hc
  rw [h.field] at hf
  rw [hf] at hp
  rw [h.kind]
  simpa using hp

theorem Gives.of_fillsWith (h : g.Gives r k f ts) {depth : Nat} {field : String}
    {p : String → Bool} (hp : r.fillsWith field p (g.fillsWith field p depth) k f = true)
    {c : Tree} (hc : c ∈ ts) (hf : c.field = some field) : p c.kind = true := by
  induction h generalizing depth with
  | blank => cases hc
  | token h => exact kind_of_isNode h hp hc hf
  | @node n k f t hn h =>
    cases k with
    | some k => exact kind_of_isNode h hp hc hf
    | none =>
      have hn : g.isSilent n = false := by simpa using hn
      cases depth with
      | zero => cases hp
      | succ depth =>
        rw [Rule.fillsWith, fillsWith, hn] at hp
        exact kind_of_isNode h hp hc hf
  | lexeme => cases hc
  | silent hn hr h ih =>
    cases depth with
    | zero => cases hp
    | succ depth =>
      rw [Rule.fillsWith, fillsWith, hn, hr] at hp
      exact ih hp hc
  | seq ha hb iha ihb =>
    rw [Rule.fillsWith, Bool.and_eq_true] at hp
    rcases List.mem_append.mp hc with hc | hc
    · exact iha hp.1 hc
    · exact ihb hp.2 hc
  | left h ih =>
    rw [Rule.fillsWith, Bool.and_eq_true] at hp
    exact ih hp.1 hc
  | right h ih =>
    rw [Rule.fillsWith, Bool.and_eq_true] at hp
    exact ih hp.2 hc
  | one h ih => exact ih hp hc
  | more h hs ih ihs =>
    rcases List.mem_append.mp hc with hc | hc
    · exact ih hp hc
    · exact ihs hp hc
  | field h ih => exact ih hp hc
  | relabel h ih => exact ih hp hc
  | level h ih => exact ih hp hc
  | weight h ih => exact ih hp hc

/-- What fills a field of a licensed node, by the rule of its kind. -/
theorem Licenses.filler_kind {t c : Tree} (h : g.Licenses t) {depth : Nat} {field : String}
    {p : String → Bool} (hb : g.isBranch t.kind = true)
    (hp : (g.rule? t.kind).any
      (fun r => r.fillsWith field p (g.fillsWith field p depth) none none) = true)
    (hc : c ∈ t.children) (hx : c.extra = false) (hf : c.field = some field) :
    p c.kind = true := by
  obtain ⟨r, hr, hp⟩ := (Option.any_eq_true _ _).mp hp
  obtain ⟨-, -, hg⟩ := h.gives hb hr
  exact hg.of_fillsWith hp (List.mem_filter.mpr ⟨hc, by rw [hx]; rfl⟩) hf

end Grammar

end TestConversion.Syntax
