import TestConversion.Syntax.Grammar
import TestConversion.Syntax.Tree
import Mathlib.Data.List.Basic

/-!
# Valid trees

A tree is valid for a grammar if each of its nodes is licensed: a token is one of the grammar, and
the children of any other node, comments left out, are what the rule of its kind gives. Nothing is
said about the way in which a tree was found, nor about the text below it.

* `Grammar.Gives`: the nodes that a rule gives side by side.
* `Grammar.Licenses`, `Grammar.Valid`: licensed nodes and valid trees.
* `Grammar.Valid.hasError_eq_false`: valid trees have no errors.
* `Grammar.Licenses.gives`, `Grammar.Licenses.of_isLeaf`: what the kind of a licensed node tells
  about its children.
* `Grammar.Gives.of_soleKinds`: rules that always give one node.
-/

namespace TestConversion.Syntax

namespace Tree

/-! ## Nodes of trees -/

theorem preorder_eq (t : Tree) : t.preorder = t :: preorderList t.children := by
  cases t with
  | node l cs => rw [preorder, children]

theorem mem_preorder_self (t : Tree) : t ∈ t.preorder := by
  rw [preorder_eq]
  exact List.mem_cons_self

theorem mem_preorderList {t : Tree} {ts : List Tree} :
    t ∈ preorderList ts ↔ ∃ s ∈ ts, t ∈ s.preorder := by
  induction ts with
  | nil => simp [preorderList]
  | cons s ts ih => simp [preorderList, ih]

theorem preorderList_eq_flatMap (ts : List Tree) : preorderList ts = ts.flatMap preorder := by
  induction ts with
  | nil => rfl
  | cons t ts ih => rw [preorderList, ih, List.flatMap_cons]

theorem mem_preorder_iff {s t : Tree} :
    t ∈ s.preorder ↔ t = s ∨ ∃ c ∈ s.children, t ∈ c.preorder := by
  rw [preorder_eq, List.mem_cons, mem_preorderList]

theorem mem_preorder_of_child {c t : Tree} (h : c ∈ t.children) : c ∈ t.preorder :=
  mem_preorder_iff.mpr (Or.inr ⟨c, h, c.mem_preorder_self⟩)

/-- A property holds of every tree if it passes from the children of a node to the node. -/
@[elab_as_elim]
theorem induction {motive : Tree → Prop}
    (node : ∀ t : Tree, (∀ c ∈ t.children, motive c) → motive t) (t : Tree) : motive t := by
  refine @Tree.rec motive (fun cs => ∀ c ∈ cs, motive c) (fun l cs => node (.node l cs)) ?_ ?_ t
  · intro c hc
    cases hc
  · intro d ds hd hds c hc
    rcases List.mem_cons.mp hc with rfl | hc
    · exact hd
    · exact hds c hc

theorem mem_preorder_trans {r s t : Tree} (hs : s ∈ r.preorder) (ht : t ∈ s.preorder) :
    t ∈ r.preorder := by
  induction r using Tree.induction with
  | node r ih =>
    rcases mem_preorder_iff.mp hs with rfl | ⟨c, hc, hs⟩
    · exact ht
    · exact mem_preorder_iff.mpr (Or.inr ⟨c, hc, ih c hc hs⟩)

end Tree

/-- A node of some kind that fills some field and is neither a comment nor missing. -/
structure Tree.IsNode (t : Tree) (kind : String) (named : Bool) (field : Option String) : Prop where
  kind : t.kind = kind
  named : t.named = named
  extra : t.extra = false
  missing : t.missing = false
  field : t.field = field

/-! ## Rules -/

/-- The kinds that a rule gives to tokens and to nodes of other names. -/
def Rule.aliases : Option String → Rule → List (String × Rule)
  | _, .blank => []
  | k, .token t => k.toList.map fun k => (k, .token t)
  | k, .sym n => k.toList.map fun k => (k, .sym n)
  | k, .seq a b | k, .choice a b => a.aliases k ++ b.aliases k
  | k, .many1 r | k, .field _ r | k, .level _ _ r | k, .weight _ r => r.aliases k
  | _, .relabel k r => r.aliases (some k)

namespace Grammar

def isLexeme (g : Grammar) (name : String) : Bool := g.lexemes.any fun l => l.name == name

def rule? (g : Grammar) (name : String) : Option Rule := g.rules.lookup name

/-- The fixed texts of all rules. -/
def texts (g : Grammar) : List String := g.rules.flatMap fun r => r.2.tokens

def aliases (g : Grammar) : List (String × Rule) := g.rules.flatMap fun r => r.2.aliases none

/-- The nodes that a rule gives side by side. The rules around it may have told another kind for its
node and a field for all that it gives. What is below the nodes does not matter. -/
inductive Gives (g : Grammar) : Rule → Option String → Option String → List Tree → Prop
  | blank {k f : Option String} : g.Gives .blank k f []
  | token {s : String} {k f : Option String} {t : Tree} (h : t.IsNode (k.getD s) k.isSome f) :
      g.Gives (.token s) k f [t]
  | node {n : String} {k f : Option String} {t : Tree}
      (hn : k.isSome = true ∨ g.isSilent n = false) (h : t.IsNode (k.getD n) true f) :
      g.Gives (.sym n) k f [t]
  | lexeme {n : String} {f : Option String} (hn : g.isSilent n = true)
      (hl : g.isLexeme n = true) : g.Gives (.sym n) none f []
  | silent {n : String} {r : Rule} {f : Option String} {ts : List Tree}
      (hn : g.isSilent n = true) (hr : g.rule? n = some r) (h : g.Gives r none f ts) :
      g.Gives (.sym n) none f ts
  | seq {a b : Rule} {k f : Option String} {ts us : List Tree} (ha : g.Gives a k f ts)
      (hb : g.Gives b k f us) : g.Gives (.seq a b) k f (ts ++ us)
  | left {a b : Rule} {k f : Option String} {ts : List Tree} (h : g.Gives a k f ts) :
      g.Gives (.choice a b) k f ts
  | right {a b : Rule} {k f : Option String} {ts : List Tree} (h : g.Gives b k f ts) :
      g.Gives (.choice a b) k f ts
  | one {r : Rule} {k f : Option String} {ts : List Tree} (h : g.Gives r k f ts) :
      g.Gives (.many1 r) k f ts
  | more {r : Rule} {k f : Option String} {ts us : List Tree} (h : g.Gives r k f ts)
      (hs : g.Gives (.many1 r) k f us) : g.Gives (.many1 r) k f (ts ++ us)
  | field {name : String} {r : Rule} {k f : Option String} {ts : List Tree}
      (h : g.Gives r k (some name) ts) : g.Gives (.field name r) k f ts
  | relabel {kind : String} {r : Rule} {k f : Option String} {ts : List Tree}
      (h : g.Gives r (some kind) f ts) : g.Gives (.relabel kind r) k f ts
  | level {assoc : Option Assoc} {n : Int} {r : Rule} {k f : Option String} {ts : List Tree}
      (h : g.Gives r k f ts) : g.Gives (.level assoc n r) k f ts
  | weight {n : Int} {r : Rule} {k f : Option String} {ts : List Tree} (h : g.Gives r k f ts) :
      g.Gives (.weight n r) k f ts

variable {g : Grammar} {a b r : Rule} {k f : Option String} {ts : List Tree}

theorem gives_blank : g.Gives .blank k f ts ↔ ts = [] := by
  constructor
  · rintro ⟨⟩
    rfl
  · rintro rfl
    exact .blank

theorem gives_token {s : String} : g.Gives (.token s) k f ts ↔
    ∃ t, ts = [t] ∧ t.IsNode (k.getD s) k.isSome f := by
  constructor
  · rintro ⟨⟩
    exact ⟨_, rfl, ‹_›⟩
  · rintro ⟨t, rfl, h⟩
    exact .token h

theorem gives_sym_of_not_silent {n : String} (hn : g.isSilent n = false) :
    g.Gives (.sym n) k f ts ↔ ∃ t, ts = [t] ∧ t.IsNode (k.getD n) true f := by
  constructor
  · rintro (_ | _ | ⟨_, h⟩ | ⟨h, _⟩ | ⟨h, _, _⟩)
    · exact ⟨_, rfl, h⟩
    · simp_all
    · simp_all
  · rintro ⟨t, rfl, h⟩
    exact .node (Or.inr hn) h

theorem gives_sym_of_silent {n : String} (hn : g.isSilent n = true) (hl : g.isLexeme n = false)
    (hr : g.rule? n = some r) : g.Gives (.sym n) none f ts ↔ g.Gives r none f ts := by
  constructor
  · rintro (_ | _ | ⟨h, _⟩ | ⟨_, h⟩ | ⟨_, hr', h⟩)
    · simp_all
    · simp_all
    · cases hr.symm.trans hr'
      exact h
  · exact .silent hn hr

theorem gives_seq : g.Gives (.seq a b) k f ts ↔
    ∃ as bs, ts = as ++ bs ∧ g.Gives a k f as ∧ g.Gives b k f bs := by
  constructor
  · rintro ⟨⟩
    exact ⟨_, _, rfl, ‹_›, ‹_›⟩
  · rintro ⟨as, bs, rfl, ha, hb⟩
    exact .seq ha hb

theorem gives_choice :
    g.Gives (.choice a b) k f ts ↔ g.Gives a k f ts ∨ g.Gives b k f ts := by
  constructor
  · rintro (_ | _ | _ | _ | _ | _ | h | h)
    · exact Or.inl h
    · exact Or.inr h
  · rintro (h | h)
    · exact .left h
    · exact .right h

theorem gives_field {name : String} :
    g.Gives (.field name r) k f ts ↔ g.Gives r k (some name) ts := by
  constructor
  · rintro ⟨⟩
    assumption
  · exact .field

theorem gives_level {assoc : Option Assoc} {n : Int} :
    g.Gives (.level assoc n r) k f ts ↔ g.Gives r k f ts := by
  constructor
  · rintro ⟨⟩
    assumption
  · exact .level

/-- The nodes of a repetition, one part after the other. -/
theorem exists_parts_of_gives_many1 (h : g.Gives (.many1 r) k f ts) :
    ∃ parts : List (List Tree), ts = parts.flatten ∧ ∀ p ∈ parts, g.Gives r k f p := by
  generalize hs : Rule.many1 r = s at h
  induction h with
  | @one _ _ _ ts h =>
    cases hs
    refine ⟨[ts], List.flatten_singleton.symm, fun p hp => ?_⟩
    exact List.mem_singleton.mp hp ▸ h
  | @more _ _ _ ts _ h _ _ ih =>
    cases hs
    obtain ⟨parts, rfl, hparts⟩ := ih rfl
    refine ⟨ts :: parts, List.flatten_cons.symm, fun p hp => ?_⟩
    rcases List.mem_cons.mp hp with rfl | hp
    · exact h
    · exact hparts p hp
  | _ => cases hs

/-! ## Licensed nodes -/

/-- A node of this kind may stand for a token or a name in a rule. -/
def Shows (g : Grammar) (kind : String) (r : Rule) : Prop :=
  r = .sym kind ∨ (kind, r) ∈ g.aliases

/-- Labels of tokens: comments, the texts of rules, lexemes, and texts of rules of another kind. -/
inductive IsToken (g : Grammar) (l : Label) : Prop
  | extra (hx : l.extra = true) (hn : l.named = true) (hf : l.field = none)
      (hk : l.kind ∈ g.extras)
  | text (hx : l.extra = false) (hn : l.named = false) (hk : l.kind ∈ g.texts)
  | lexeme {n : String} (hx : l.extra = false) (hn : l.named = true)
      (hk : g.Shows l.kind (.sym n)) (hl : g.isLexeme n = true)
  | word {t : String} (hx : l.extra = false) (hn : l.named = true)
      (hk : g.Shows l.kind (.token t))

/-- Nodes that the grammar allows, by their own labels and those of their children. -/
inductive Licenses (g : Grammar) : Tree → Prop
  | token {l : Label} (h : g.IsToken l) (hm : l.missing = false)
      (hs : l.span.start < l.span.stop) : g.Licenses (.node l [])
  | branch {l : Label} {cs : List Tree} {n : String} {r : Rule} (hx : l.extra = false)
      (hn : l.named = true) (hm : l.missing = false) (hk : g.Shows l.kind (.sym n))
      (hr : g.rule? n = some r)
      (h : g.Gives r none none (cs.filter fun c => !c.extra)) :
      g.Licenses (.node l cs)

/-- All nodes of the tree are licensed. -/
def Valid (g : Grammar) (t : Tree) : Prop := ∀ n ∈ t.preorder, g.Licenses n

theorem Valid.licenses {t : Tree} (h : g.Valid t) : g.Licenses t := h t t.mem_preorder_self

theorem Valid.of_mem {s t : Tree} (h : g.Valid t) (hs : s ∈ t.preorder) : g.Valid s :=
  fun _ hn => h _ (Tree.mem_preorder_trans hs hn)

theorem Valid.of_child {c t : Tree} (h : g.Valid t) (hc : c ∈ t.children) : g.Valid c :=
  h.of_mem (Tree.mem_preorder_of_child hc)

theorem Licenses.missing_eq_false {t : Tree} (h : g.Licenses t) : t.missing = false := by
  cases h with
  | token h hm hs => exact hm
  | branch hx hn hm hk hr h => exact hm

theorem Licenses.named_of_extra {t : Tree} (h : g.Licenses t) (hx : t.extra = true) :
    t.named = true ∧ t.field = none ∧ t.kind ∈ g.extras ∧ t.children = [] := by
  rcases h with ⟨h | h | h | h⟩ | ⟨h⟩ <;> simp_all [Tree.extra, Tree.label]
  exact ⟨‹_›, ‹_›, ‹_›, rfl⟩

/-- All kinds of nodes. -/
def kinds (g : Grammar) : List String :=
  g.extras ++ g.texts ++ g.lexemes.map (·.name) ++ g.rules.map (·.1) ++ g.aliases.map (·.1)

theorem Shows.kind_mem {kind n : String} (h : g.Shows kind (.sym n))
    (hn : n ∈ g.lexemes.map (·.name) ++ g.rules.map (·.1)) : kind ∈ g.kinds := by
  rcases h with h | h
  · cases h
    simp only [kinds, List.mem_append] at hn ⊢
    rcases hn with hn | hn
    · exact Or.inl (Or.inl (Or.inr hn))
    · exact Or.inl (Or.inr hn)
  · exact List.mem_append_right _ (List.mem_map.mpr ⟨_, h, rfl⟩)

theorem mem_of_isLexeme {n : String} (h : g.isLexeme n = true) :
    n ∈ g.lexemes.map (·.name) := by
  obtain ⟨l, hl, hn⟩ := List.any_eq_true.mp h
  exact List.mem_map.mpr ⟨l, hl, eq_of_beq hn⟩

theorem mem_of_rule? {n : String} (h : g.rule? n = some r) : n ∈ g.rules.map (·.1) := by
  obtain ⟨before, after, heq, -⟩ := List.lookup_eq_some_iff.mp h
  rw [heq]
  simp

/-- A licensed node is of one of the kinds of the grammar. -/
theorem Licenses.kind_mem {t : Tree} (h : g.Licenses t) : t.kind ∈ g.kinds := by
  cases h with
  | token h hm hs =>
    cases h with
    | extra _ _ _ hk => simp [kinds, Tree.kind, Tree.label, hk]
    | text _ _ hk => simp [kinds, Tree.kind, Tree.label, hk]
    | lexeme _ _ hk hl => exact hk.kind_mem (List.mem_append_left _ (mem_of_isLexeme hl))
    | word _ _ hk =>
      rcases hk with hk | hk
      · cases hk
      · exact List.mem_append_right _ (List.mem_map.mpr ⟨_, hk, rfl⟩)
  | branch _ _ _ hk hr _ => exact hk.kind_mem (List.mem_append_right _ (mem_of_rule? hr))

/-- A valid tree has no errors, if `ERROR` is no kind of the grammar. -/
theorem Valid.hasError_eq_false {t : Tree} (h : g.Valid t) (hg : "ERROR" ∉ g.kinds) :
    t.hasError = false := by
  rw [Tree.hasError, List.any_eq_false]
  intro n hn
  have hm := (h n hn).missing_eq_false
  have hk : n.kind ≠ "ERROR" := by
    intro hk
    exact hg (hk ▸ (h n hn).kind_mem)
  simp [Tree.isError, hm, hk]

/-- Tokens without a name of their own have no children. -/
theorem Licenses.children_of_not_named {t : Tree} (h : g.Licenses t) (hn : t.named = false) :
    t.children = [] ∧ t.kind ∈ g.texts := by
  rcases h with ⟨h | ⟨_, _, hk⟩ | h | h⟩ | ⟨_, h⟩ <;> simp_all [Tree.named, Tree.label]
  exact ⟨rfl, hk⟩

/-- Only nodes of the rule of that name have this kind. -/
def isBranch (g : Grammar) (kind : String) : Bool :=
  !g.extras.contains kind && !g.texts.contains kind && !g.isLexeme kind &&
    g.aliases.all fun a => a.1 != kind

/-- No rule gives children to nodes of this kind. -/
def isLeaf (g : Grammar) (kind : String) : Bool :=
  (g.rule? kind).isNone && g.aliases.all fun a =>
    a.1 != kind || match a.2 with
      | .sym n => (g.rule? n).isNone
      | _ => true

theorem Shows.eq_of_isBranch {kind : String} (h : g.Shows kind r) (hb : g.isBranch kind = true) :
    r = .sym kind := by
  rcases h with h | h
  · exact h
  · simp only [isBranch, Bool.and_eq_true, List.all_eq_true] at hb
    have := hb.2 _ h
    simp at this

/-- The children of a node whose kind has a rule of its own. -/
theorem Licenses.gives {t : Tree} (h : g.Licenses t) (hb : g.isBranch t.kind = true)
    (hr : g.rule? t.kind = some r) : t.extra = false ∧ t.named = true ∧
      g.Gives r none none (t.children.filter fun c => !c.extra) := by
  have hb' := hb
  simp only [isBranch, Bool.and_eq_true, Bool.not_eq_true', List.contains_eq_mem,
    decide_eq_false_iff_not] at hb'
  obtain ⟨⟨⟨hex, ht⟩, hl⟩, -⟩ := hb'
  cases h with
  | token h hm hs =>
    cases h with
    | extra _ _ _ hk => exact absurd hk hex
    | text _ _ hk => exact absurd hk ht
    | lexeme _ _ hk hlex =>
      cases hk.eq_of_isBranch hb
      rw [← Bool.not_eq_true] at hl
      exact absurd hlex hl
    | word _ _ hk => cases hk.eq_of_isBranch hb
  | branch hx hn hm hk hr' h =>
    cases hk.eq_of_isBranch hb
    cases hr.symm.trans hr'
    exact ⟨hx, hn, h⟩

/-- A node without children of its own rule covers some text. -/
theorem Licenses.of_isLeaf {t : Tree} (h : g.Licenses t) (hl : g.isLeaf t.kind = true) :
    t.children = [] ∧ t.span.start < t.span.stop := by
  simp only [isLeaf, Bool.and_eq_true, List.all_eq_true, Option.isNone_iff_eq_none] at hl
  obtain ⟨hn, ha⟩ := hl
  cases h with
  | token h hm hs => exact ⟨rfl, hs⟩
  | branch hx hn' hm hk hr h =>
    rcases hk with hk | hk
    · cases hk
      cases hn.symm.trans hr
    · have := ha _ hk
      simp [Tree.kind, Tree.label, hr] at this

/-! ## Rules that give one node -/

end Grammar

/-- The kinds of the named node that is always all that a rule gives; `sub` tells them for names. -/
def Rule.soleKinds (sub : String → Option (List String)) :
    Rule → Option String → Option (List String)
  | .token _, some k | .sym _, some k => some [k]
  | .sym n, none => sub n
  | .choice a b, k => do return (← a.soleKinds sub k) ++ (← b.soleKinds sub k)
  | .relabel k r, _ => r.soleKinds sub (some k)
  | .level _ _ r, k | .weight _ r, k => r.soleKinds sub k
  | _, _ => none

theorem Rule.soleKinds_choice {sub : String → Option (List String)} {a b : Rule}
    {k : Option String} {kinds : List String} (h : (choice a b).soleKinds sub k = some kinds) :
    ∃ as bs, a.soleKinds sub k = some as ∧ b.soleKinds sub k = some bs ∧ kinds = as ++ bs := by
  simp only [soleKinds, Option.bind_eq_bind, Option.bind_eq_some_iff, Option.pure_def,
    Option.some.injEq] at h
  obtain ⟨as, ha, bs, hb, rfl⟩ := h
  exact ⟨as, bs, ha, hb, rfl⟩

namespace Grammar

/-- The kinds of the one node that a name gives, found by opening silent rules up to some depth. -/
def soleKinds (g : Grammar) : Nat → String → Option (List String)
  | 0, _ => none
  | depth + 1, n =>
    if g.isSilent n then
      if g.isLexeme n then none
      else (g.rule? n).bind fun r => r.soleKinds (g.soleKinds depth) none
    else some [n]

variable {g : Grammar} {r : Rule} {k f : Option String} {ts : List Tree}

theorem Gives.of_soleKinds (h : g.Gives r k f ts) {depth : Nat} {kinds : List String}
    (hk : r.soleKinds (g.soleKinds depth) k = some kinds) :
    ∃ t, ts = [t] ∧ ∃ kind ∈ kinds, t.IsNode kind true f := by
  induction h generalizing depth kinds with
  | @token s k f t h =>
    cases k with
    | none => simp [Rule.soleKinds] at hk
    | some k =>
      cases hk
      exact ⟨t, rfl, k, List.mem_cons_self, h⟩
  | @node n k f t hn h =>
    cases k with
    | some k =>
      cases hk
      exact ⟨t, rfl, k, List.mem_cons_self, h⟩
    | none =>
      have hn : g.isSilent n = false := by simpa using hn
      cases depth with
      | zero => simp [Rule.soleKinds, soleKinds] at hk
      | succ depth =>
        simp only [Rule.soleKinds, soleKinds, hn] at hk
        cases hk
        exact ⟨t, rfl, n, List.mem_cons_self, h⟩
  | lexeme hn hl =>
    cases depth with
    | zero => simp [Rule.soleKinds, soleKinds] at hk
    | succ depth => simp [Rule.soleKinds, soleKinds, hn, hl] at hk
  | silent hn hr h ih =>
    cases depth with
    | zero => simp [Rule.soleKinds, soleKinds] at hk
    | succ depth =>
      simp only [Rule.soleKinds, soleKinds, hn, if_true, hr, Option.bind_some] at hk
      split at hk
      · cases hk
      · exact ih hk
  | left h ih =>
    obtain ⟨as, bs, ha, -, rfl⟩ := Rule.soleKinds_choice hk
    obtain ⟨t, rfl, kind, hkind, ht⟩ := ih ha
    exact ⟨t, rfl, kind, List.mem_append_left _ hkind, ht⟩
  | right h ih =>
    obtain ⟨as, bs, -, hb, rfl⟩ := Rule.soleKinds_choice hk
    obtain ⟨t, rfl, kind, hkind, ht⟩ := ih hb
    exact ⟨t, rfl, kind, List.mem_append_right _ hkind, ht⟩
  | relabel h ih => exact ih hk
  | level h ih => exact ih hk
  | weight h ih => exact ih hk
  | blank => simp [Rule.soleKinds] at hk
  | seq => simp [Rule.soleKinds] at hk
  | one => simp [Rule.soleKinds] at hk
  | more => simp [Rule.soleKinds] at hk
  | field => simp [Rule.soleKinds] at hk

/-- A rule that always gives one node, whose kind has some property. -/
theorem Gives.of_soleKinds_all (h : g.Gives r k f ts) (depth : Nat) {p : String → Bool}
    (hp : (r.soleKinds (g.soleKinds depth) k).any (fun kinds => kinds.all p) = true) :
    ∃ t kind, ts = [t] ∧ p kind = true ∧ t.IsNode kind true f := by
  obtain ⟨kinds, hk, hall⟩ := (Option.any_eq_true _ _).mp hp
  obtain ⟨t, rfl, kind, hkind, ht⟩ := h.of_soleKinds hk
  exact ⟨t, kind, rfl, List.all_eq_true.mp hall kind hkind, ht⟩

end Grammar

end TestConversion.Syntax
