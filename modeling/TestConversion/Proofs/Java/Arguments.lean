import TestConversion.Proofs.Java.Reading

/-!
# Arguments of recorded calls

A call that is recorded is a node of the tree, and its arguments are spelled from the expressions in
the argument list of that node, one text for each of them and in their order.

* `exists_nodes_below`, `exists_nodes_of_calls`: the nodes that the calls in the metadata come from.
* `exists_listShape`: the children of an argument list.
* `forall₂_argumentNodes`, `arguments_callOf`: the expressions that the arguments of a call come
  from.
-/

namespace TestConversion.Java

open Text Syntax Code

variable {source : List Char} {t : Tree}

/-! ## Recorded nodes -/

theorem mem_preorder_of_mem_preorderList {e : Tree} (h : e ∈ Tree.preorderList t.children) :
    e ∈ t.preorder := by
  rw [Tree.preorder_eq]
  exact List.mem_cons_of_mem t h

/-- What is below a node is below the root. -/
theorem mem_preorderList_of_mem {e root : Tree} (ht : t ∈ root.preorder)
    (he : e ∈ Tree.preorderList t.children) : e ∈ Tree.preorderList root.children := by
  rcases Tree.mem_preorder_iff.mp ht with rfl | ⟨c, hc, ht⟩
  · exact he
  · exact Tree.mem_preorderList.mpr
      ⟨c, hc, Tree.mem_preorder_trans ht (mem_preorder_of_mem_preorderList he)⟩

theorem mem_children_of_kept {cs : List Tree} (hkept : keptChildren t = cs) {c : Tree}
    (hc : c ∈ cs) : c ∈ t.children :=
  List.mem_of_mem_filter (hkept ▸ hc)

theorem mem_preorder_of_childIn {field : String} {c : Tree} (h : t.childIn field = some c) :
    c ∈ t.preorder :=
  Tree.mem_preorder_of_child (List.mem_of_find?_eq_some h)

/-- The calls of a method come from nodes below it. -/
theorem exists_nodes_of_callsOf {m : Method} (h : grammar.Valid t)
    (hm : methodOf? source t = some m) : ∃ nodes : List Tree,
      (∀ n ∈ nodes, n ∈ t.preorder ∧ isCall n = true) ∧ callsOf m = nodes.map (callOf source) := by
  rw [callsOf_eq_getD hm]
  cases hb : t.childIn "body" with
  | none => exact ⟨[], by simp, rfl⟩
  | some b =>
    have hbt := mem_preorder_of_childIn hb
    refine ⟨(treeBranching.actions .record b).map (·.2), ?_, ?_⟩
    · intro n hn
      obtain ⟨⟨p, n⟩, hp, rfl⟩ := List.mem_map.mp hn
      obtain ⟨hnb, hcall⟩ := isCall_of_mem_actions hp
      exact ⟨Tree.mem_preorder_trans hbt hnb, hcall⟩
    · rw [Option.map_some, Option.getD_some, callsWithin_lower (h.of_mem hbt), List.map_map]
      rfl

theorem mem_preorder_of_mem_membersOf {c m : Tree} (h : m ∈ membersOf c) : m ∈ c.preorder := by
  rw [membersOf] at h
  cases hb : c.childIn "body" with
  | none =>
    rw [hb] at h
    cases h
  | some body =>
    rw [hb] at h
    exact Tree.mem_preorder_trans (mem_preorder_of_childIn hb)
      (Tree.mem_preorder_of_child (mem_children_of_mem_namedChildren h))

/-- The calls of each method in the metadata come from nodes below the root. -/
theorem exists_nodes_below {root : Tree} (h : grammar.Valid root) {fileName : String}
    {s : MethodSummary} (hs : s ∈ (extract (unitOf source root) fileName).methods) :
    ∃ nodes : List Tree,
      (∀ n ∈ nodes, n ∈ Tree.preorderList root.children ∧ isCall n = true) ∧
      s.calls = nodes.map (callOf source) := by
  rw [extract] at hs
  cases hclass : (unitOf source root).classes.head? with
  | none =>
    rw [hclass] at hs
    cases hs
  | some c =>
    rw [hclass] at hs
    obtain ⟨m, hm, rfl⟩ := List.mem_map.mp hs
    obtain ⟨n, hn, hc⟩ := List.mem_filterMap.mp (List.mem_of_mem_head? hclass)
    rw [(of_classOf?_eq_some hc).2] at hm
    obtain ⟨d, hd, hm⟩ := List.mem_filterMap.mp hm
    have hnr : n ∈ root.children := mem_children_of_mem_namedChildren hn
    have hdn : d ∈ n.preorder := mem_preorder_of_mem_membersOf hd
    obtain ⟨nodes, hnodes, hcalls⟩ := exists_nodes_of_callsOf ((h.of_child hnr).of_mem hdn) hm
    refine ⟨nodes, fun e he => ⟨?_, (hnodes e he).2⟩, hcalls⟩
    exact Tree.mem_preorderList.mpr ⟨n, hnr, Tree.mem_preorder_trans hdn (hnodes e he).1⟩

/-- The calls of each method in the metadata come from nodes of the tree. -/
theorem exists_nodes_of_calls {root : Tree} (h : grammar.Valid root) {fileName : String}
    {s : MethodSummary} (hs : s ∈ (extract (unitOf source root) fileName).methods) :
    ∃ nodes : List Tree, (∀ n ∈ nodes, n ∈ root.preorder ∧ isCall n = true) ∧
      s.calls = nodes.map (callOf source) := by
  obtain ⟨nodes, hnodes, hcalls⟩ := exists_nodes_below h hs
  refine ⟨nodes, fun n hn => ⟨?_, (hnodes n hn).2⟩, hcalls⟩
  exact mem_preorder_of_mem_preorderList (hnodes n hn).1

theorem method_callOf (h : grammar.Valid t) (hc : isCall t = true) (source : List Char) :
    some (callOf source t).method = (t.childIn "name").map (nodeText source) := by
  obtain ⟨-, object, between, name, arguments, s⟩ :=
    exists_callShape h.licenses (eq_of_beq hc)
  rw [callOf, s.childIn_name h]
  rfl

/-! ## Argument lists -/

/-- Expressions with commas between them. -/
inductive IsListed : List Tree → Prop
  | one {e : Tree} (he : IsExpression e) : IsListed [e]
  | more {e comma : Tree} {ts : List Tree} (he : IsExpression e)
    (hc : comma.IsNode "," false none) (h : IsListed ts) : IsListed (e :: comma :: ts)

theorem IsListed.of_mem {ts : List Tree} (h : IsListed ts) {c : Tree} (hc : c ∈ ts) :
    c.named = false ∨ IsExpression c := by
  induction h with
  | one he =>
    cases List.mem_singleton.mp hc
    exact Or.inr he
  | more he hcomma _ ih =>
    rcases List.mem_cons.mp hc with rfl | hc
    · exact Or.inr he
    · rcases List.mem_cons.mp hc with rfl | hc
      · exact Or.inl hcomma.named
      · exact ih hc

/-- A comma and an expression. -/
theorem exists_of_gives_comma {ts : List Tree}
    (h : grammar.Gives (.seq (.token ",") (.sym "expression")) none none ts) :
    ∃ comma e, ts = [comma, e] ∧ comma.IsNode "," false none ∧ IsExpression e := by
  obtain ⟨as, bs, rfl, ha, hb⟩ := Grammar.gives_seq.mp h
  obtain ⟨comma, rfl, hcomma⟩ := Grammar.gives_token.mp ha
  obtain ⟨e, rfl, he, -⟩ := gives_expression hb
  exact ⟨comma, e, rfl, hcomma, he⟩

theorem isListed_cons_flatten {e : Tree} (he : IsExpression e) {parts : List (List Tree)}
    (h : ∀ p ∈ parts, grammar.Gives (.seq (.token ",") (.sym "expression")) none none p) :
    IsListed (e :: parts.flatten) := by
  induction parts generalizing e with
  | nil => exact .one he
  | cons p parts ih =>
    obtain ⟨comma, d, rfl, hcomma, hd⟩ := exists_of_gives_comma (h p List.mem_cons_self)
    exact .more he hcomma (ih hd fun q hq => h q (List.mem_cons_of_mem _ hq))

theorem isListed_of_gives_commas {ts : List Tree}
    (h : grammar.Gives (.commas (.sym "expression")) none none ts) : ts = [] ∨ IsListed ts := by
  rcases Grammar.gives_choice.mp h with h | h
  · obtain ⟨as, bs, rfl, ha, hb⟩ := Grammar.gives_seq.mp h
    obtain ⟨e, rfl, he, -⟩ := gives_expression ha
    rcases Grammar.gives_choice.mp hb with hb | hb
    · obtain ⟨parts, rfl, hparts⟩ := Grammar.exists_parts_of_gives_many1 hb
      exact Or.inr (isListed_cons_flatten he hparts)
    · cases Grammar.gives_blank.mp hb
      exact Or.inr (.one he)
  · exact Or.inl (Grammar.gives_blank.mp h)

/-- The children of an argument list. -/
structure ListShape (t opening : Tree) (ts : List Tree) (closing : Tree) : Prop where
  kept : keptChildren t = opening :: (ts ++ [closing])
  opening : opening.IsNode "(" false none
  listed : ts = [] ∨ IsListed ts
  closing : closing.IsNode ")" false none

theorem rule_argument_list : grammar.rule? "argument_list" = some
    (.seq (.token "(") (.seq (.commas (.sym "expression")) (.token ")"))) := by
  rfl

theorem exists_listShape (h : grammar.Licenses t) (hk : t.kind = "argument_list") :
    ∃ opening ts closing, ListShape t opening ts closing := by
  obtain ⟨-, -, hg⟩ := h.gives (by rw [hk]; decide +kernel) (by rw [hk]; exact rule_argument_list)
  obtain ⟨as, _, hkept, ha, hg⟩ := Grammar.gives_seq.mp hg
  obtain ⟨ts, cs, rfl, hb, hc⟩ := Grammar.gives_seq.mp hg
  obtain ⟨opening, rfl, hopening⟩ := Grammar.gives_token.mp ha
  obtain ⟨closing, rfl, hclosing⟩ := Grammar.gives_token.mp hc
  exact ⟨opening, ts, closing, hkept, hopening, isListed_of_gives_commas hb, hclosing⟩

/-- In an argument list stand expressions and fixed texts. -/
theorem ListShape.of_mem {opening closing : Tree} {ts : List Tree}
    (s : ListShape t opening ts closing) {c : Tree} (hc : c ∈ keptChildren t) :
    c.named = false ∨ IsExpression c := by
  rw [s.kept] at hc
  rcases List.mem_cons.mp hc with rfl | hc
  · exact Or.inl s.opening.named
  · rcases List.mem_append.mp hc with hc | hc
    · rcases s.listed with rfl | h
      · cases hc
      · exact h.of_mem hc
    · exact Or.inl (List.mem_singleton.mp hc ▸ s.closing.named)

/-- The expressions in the argument list of a call. -/
def argumentExpressions (t : Tree) : List Tree :=
  ((t.childIn "arguments").map fun a => (keptChildren a).filter (·.named)).getD []

/-- The lowered arguments of a call. -/
def argumentNodes (source : List Char) (t : Tree) : List Node :=
  ((t.childIn "arguments").map fun a => nodesOf (lower source a)).getD []

/-- Each expression among some nodes is lowered to one node, and nothing else is. -/
theorem forall₂_lowered (source : List Char) {cs : List Tree}
    (h : ∀ c ∈ cs, c.named = false ∨ IsExpression c) :
    List.Forall₂ (fun e n => lower source e = .node n) (cs.filter (·.named))
      (cs.flatMap fun c => nodesOf (lower source c)) := by
  induction cs with
  | nil => exact .nil
  | cons c cs ih =>
    have ih := ih fun d hd => h d (List.mem_cons_of_mem c hd)
    rcases h c List.mem_cons_self with hn | he
    · rw [List.filter_cons, hn, List.flatMap_cons, lower_of_not_named source hn]
      exact ih
    · obtain ⟨n, hlower⟩ := he.lower_eq_node source
      rw [List.filter_cons, he.named, if_pos rfl, List.flatMap_cons, hlower]
      exact .cons hlower ih

/-- The lowered arguments of a call are those of the expressions in its own argument list. -/
theorem forall₂_argumentNodes (h : grammar.Valid t) (hc : isCall t = true) (source : List Char) :
    (∀ e ∈ argumentExpressions t, e ∈ Tree.preorderList t.children ∧ IsExpression e) ∧
      List.Forall₂ (fun e n => lower source e = .node n) (argumentExpressions t)
        (argumentNodes source t) := by
  obtain ⟨-, object, between, name, arguments, s⟩ :=
    exists_callShape h.licenses (eq_of_beq hc)
  have ha := s.childIn_arguments h
  have hmem : arguments ∈ t.children := List.mem_of_find?_eq_some ha
  obtain ⟨opening, ts, closing, l⟩ := exists_listShape (h.of_child hmem).licenses s.arguments_kind
  have hchildren : ∀ c ∈ keptChildren arguments, c.named = false ∨ IsExpression c :=
    fun c hc => l.of_mem hc
  have hsequence : lower source arguments =
      .sequence ((keptChildren arguments).flatMap fun c => nodesOf (lower source c)) := by
    apply lower_of_sequence source s.arguments_named <;> rw [s.arguments_kind] <;> decide +kernel
  rw [argumentExpressions, argumentNodes, ha, Option.map_some, Option.getD_some, Option.map_some,
    Option.getD_some, hsequence]
  refine ⟨fun e he => ?_, forall₂_lowered source hchildren⟩
  obtain ⟨he, hn⟩ := List.mem_filter.mp he
  refine ⟨Tree.mem_preorderList.mpr ⟨arguments, hmem,
    Tree.mem_preorder_of_child (List.mem_of_mem_filter he)⟩, ?_⟩
  rcases hchildren e he with hnot | he
  · rw [hn] at hnot
    cases hnot
  · exact he

/-- The text is what the expression is spelled as. -/
def IsSpelled (source : List Char) (e : Tree) (text : String) : Prop :=
  ∃ n, lower source e = .node n ∧ text = n.spelling

/-- The arguments of a call are those in its own argument list. -/
theorem arguments_callOf (h : grammar.Valid t) (hc : isCall t = true) (source : List Char) :
    (∀ e ∈ argumentExpressions t, e ∈ Tree.preorderList t.children ∧ IsExpression e) ∧
      List.Forall₂ (IsSpelled source) (argumentExpressions t) (callOf source t).arguments := by
  obtain ⟨hexpressions, hnodes⟩ := forall₂_argumentNodes h hc source
  have harguments : (callOf source t).arguments = (argumentNodes source t).map Node.spelling := by
    rw [callOf, argumentNodes]
    cases t.childIn "arguments" <;> rfl
  refine ⟨hexpressions, ?_⟩
  rw [harguments, List.forall₂_map_right_iff]
  exact hnodes.imp fun _ n hn => ⟨n, hn, rfl⟩

end TestConversion.Java
