import TestConversion.Proofs.Java.Receivers
import TestConversion.Proofs.Text.Slices

/-!
# Arguments as the source has them

A tree is laid out on a text if its nodes cover parts of it, children side by side with only blanks
between them. Then every expression without comments is spelled as the text that it covers, up to
blanks: literals, names and calls keep their text, a path is put together from its names and an
operation from its operands, and anything else is its text with blanks collapsed.

* `IsLaidOut`: how a node lies on the text.
* `withoutBlanks_textOf`: the text of a node in terms of those of its children.
* `spellsText`: how expressions are spelled.
* `arguments_faithful`: the arguments of all recorded calls.
-/

namespace TestConversion.Java

open Text Syntax Code

variable {source : List Char} {t : Tree}

/-! ## Layout -/

/-- Between two bytes of a text there are only blanks. -/
def blankBetween (source : List Char) (start stop : Nat) : Bool :=
  (slice? source start stop).any fun cs => cs.all isBlank

/-- A node covers a part of the text, from the start of its first child to the end of its last one.
Tokens without a name of their own read as their kind, and between children are only blanks, except
in strings. -/
structure IsLaidOut (source : List Char) (t : Tree) : Prop where
  part : (slice? source t.span.start t.span.stop).isSome = true
  token : t.named = false → textOf source t = t.kind.toList
  first : ∀ c ∈ t.children.head?, c.span.start = t.span.start
  last : ∀ c ∈ t.children.getLast?, c.span.stop = t.span.stop
  between : t.kind ≠ "string_literal" →
    t.children.IsChain fun c d => blankBetween source c.span.stop d.span.start = true

instance (source : List Char) (t : Tree) : Decidable (IsLaidOut source t) :=
  decidable_of_iff
    ((slice? source t.span.start t.span.stop).isSome = true ∧
      (t.named = false → textOf source t = t.kind.toList) ∧
      (t.children.head?.all fun c => c.span.start == t.span.start) = true ∧
      (t.children.getLast?.all fun c => c.span.stop == t.span.stop) = true ∧
      (t.kind ≠ "string_literal" →
        t.children.IsChain fun c d => blankBetween source c.span.stop d.span.start = true))
    ⟨fun ⟨hp, ht, hf, hl, hb⟩ =>
      ⟨hp, ht, fun c hc => by simpa [Option.mem_def.mp hc] using hf,
        fun c hc => by simpa [Option.mem_def.mp hc] using hl, hb⟩,
      fun ⟨hp, ht, hf, hl, hb⟩ => ⟨hp, ht, by
        cases h : t.children.head? with
        | none => rfl
        | some c => simp [hf c h], by
        cases h : t.children.getLast? with
        | none => rfl
        | some c => simp [hl c h], hb⟩⟩

/-- All nodes below the root are laid out. The root itself may have blanks around its children. -/
def LaidOut (source : List Char) (root : Tree) : Prop :=
  ∀ n ∈ Tree.preorderList root.children, IsLaidOut source n

instance (source : List Char) (root : Tree) : Decidable (LaidOut source root) :=
  inferInstanceAs (Decidable (∀ n ∈ Tree.preorderList root.children, IsLaidOut source n))

/-- What is below a node below the root is laid out. -/
theorem LaidOut.of_mem {root n : Tree} (h : LaidOut source root)
    (ht : t ∈ Tree.preorderList root.children) (hn : n ∈ t.preorder) : IsLaidOut source n := by
  obtain ⟨c, hc, htc⟩ := Tree.mem_preorderList.mp ht
  exact h n (Tree.mem_preorderList.mpr ⟨c, hc, Tree.mem_preorder_trans htc hn⟩)

theorem IsLaidOut.slice?_eq (h : IsLaidOut source t) :
    slice? source t.span.start t.span.stop = some (textOf source t) := by
  obtain ⟨cs, hcs⟩ := Option.isSome_iff_exists.mp h.part
  rw [textOf, hcs]
  rfl

/-- A fixed text covers itself. -/
theorem withoutBlanks_textOf_token {kind : String} {field : Option String}
    (hlaid : IsLaidOut source t) (h : t.IsNode kind false field) :
    withoutBlanks (textOf source t) = withoutBlanks kind.toList := by
  rw [hlaid.token h.named, h.kind]

/-- The text from the first of some trees to the last one is theirs, up to blanks. -/
theorem exists_slice?_of_isChain {c : Tree} {cs : List Tree}
    (hl : ∀ d ∈ c :: cs, IsLaidOut source d)
    (hchain : (c :: cs).IsChain fun c d => blankBetween source c.span.stop d.span.start = true) :
    ∃ text, slice? source c.span.start ((c :: cs).getLast (List.cons_ne_nil c cs)).span.stop =
        some text ∧
      withoutBlanks text = (c :: cs).flatMap fun d => withoutBlanks (textOf source d) := by
  induction cs generalizing c with
  | nil =>
    refine ⟨textOf source c, (hl c List.mem_cons_self).slice?_eq, ?_⟩
    rw [List.flatMap_singleton]
  | cons d ds ih =>
    obtain ⟨hblank, hchain⟩ := List.isChain_cons_cons.mp hchain
    obtain ⟨rest, hrest, hrestTexts⟩ := ih (fun e he => hl e (List.mem_cons_of_mem c he)) hchain
    obtain ⟨gap, hgap, hblanks⟩ := (Option.any_eq_true _ _).mp hblank
    have hc := (hl c List.mem_cons_self).slice?_eq
    refine ⟨textOf source c ++ (gap ++ rest), ?_, ?_⟩
    · rw [List.getLast_cons (List.cons_ne_nil d ds)]
      exact slice?_trans hc (slice?_trans hgap hrest)
    · rw [withoutBlanks_append, withoutBlanks_append, hrestTexts,
        withoutBlanks_eq_nil (List.all_eq_true.mp hblanks), List.flatMap_cons]
      rfl

/-- What a node covers is what its children cover, up to blanks. -/
theorem withoutBlanks_textOf (h : IsLaidOut source t) (hk : t.kind ≠ "string_literal")
    (hl : ∀ c ∈ t.children, IsLaidOut source c) (hne : t.children ≠ []) :
    withoutBlanks (textOf source t) =
      t.children.flatMap fun c => withoutBlanks (textOf source c) := by
  obtain ⟨c, cs, hcs⟩ := List.exists_cons_of_ne_nil hne
  have hchain := h.between hk
  have hfirst := h.first c (by rw [hcs]; rfl)
  have hlast := h.last _ (List.getLast?_eq_some_getLast hne)
  rw [hcs] at hl hchain
  obtain ⟨text, htext, hblanks⟩ := exists_slice?_of_isChain hl hchain
  have heq : textOf source t = text := by
    simp only [hcs] at hlast
    rw [hfirst, hlast, h.slice?_eq] at htext
    exact Option.some.inj htext
  rw [heq, hblanks, hcs]

/-! ## Spelling -/

/-- There is no comment in a tree. -/
def NoComment (t : Tree) : Prop := ∀ n ∈ t.preorder, n.extra = false

instance (t : Tree) : Decidable (NoComment t) :=
  inferInstanceAs (Decidable (∀ n ∈ t.preorder, n.extra = false))

theorem NoComment.of_mem {n : Tree} (h : NoComment t) (hn : n ∈ t.preorder) : NoComment n :=
  fun d hd => h d (Tree.mem_preorder_trans hn hd)

theorem NoComment.keptChildren_eq (h : NoComment t) : keptChildren t = t.children := by
  rw [keptChildren, List.filter_eq_self]
  intro c hc
  rw [h c (Tree.mem_preorder_of_child hc)]
  rfl

/-- A call keeps its own text, whether or not it is chained onto another one. -/
theorem text_of_invocation? {children : List Lowered} {n : Node}
    (h : invocation? source t children = some n) :
    ∃ i, n = .invocation i ∧ i.text = sourceTextOf source t := by
  obtain ⟨name, -, h⟩ := Option.bind_eq_some_iff.mp h
  cases h
  refine ⟨_, rfl, ?_⟩
  split <;> rfl

/-- What an expression is spelled as, up to blanks, is its text. -/
def SpellsText (source : List Char) (t : Tree) : Prop :=
  ∀ n, lower source t = .node n →
    withoutBlanks n.spelling.toList = withoutBlanks (textOf source t)

theorem withoutBlanks_nodeText (source : List Char) (t : Tree) :
    withoutBlanks (nodeText source t).toList = withoutBlanks (textOf source t) := by
  rw [nodeText, String.toList_ofList]

/-- A path on a path without a loose `super`: what is in front of the dot, the dot and the field. -/
theorem FieldShape.withoutBlanks_textOf {object field : Tree} {dots : List Tree}
    (s : FieldShape t object dots field) (hk : t.kind = "field_access")
    (hlaid : ∀ n ∈ t.preorder, IsLaidOut source n) (hc : NoComment t) (hloose : NoLooseSuper t) :
    withoutBlanks (textOf source t) = withoutBlanks (textOf source object) ++
      '.' :: withoutBlanks (textOf source field) := by
  have hchildren := hc.keptChildren_eq.symm.trans s.kept
  have hl : ∀ c ∈ t.children, IsLaidOut source c := fun c hc =>
    hlaid c (Tree.mem_preorder_of_child hc)
  obtain ⟨dot, rfl, hdot⟩ := s.dots.eq_plain fun c hc =>
    hloose c (mem_children_of_kept s.kept (by simp [hc]))
  have hdotText : withoutBlanks (textOf source dot) = ['.'] := by
    rw [withoutBlanks_textOf_token (hl dot (mem_children_of_kept s.kept (by simp))) hdot]
    decide
  rw [Java.withoutBlanks_textOf (hlaid t t.mem_preorder_self) (by rw [hk]; decide) hl
    (by rw [hchildren]; simp), hchildren]
  simp [hdotText]

/-- An operation: its operands and its operator. -/
theorem BinaryShape.withoutBlanks_textOf {left operator right : Tree}
    (s : BinaryShape t left operator right) (hk : t.kind = "binary_expression")
    (hlaid : ∀ n ∈ t.preorder, IsLaidOut source n) (hc : NoComment t) :
    withoutBlanks (textOf source t) = withoutBlanks (textOf source left) ++
      (withoutBlanks (textOf source operator) ++ withoutBlanks (textOf source right)) := by
  have hchildren := hc.keptChildren_eq.symm.trans s.kept
  rw [Java.withoutBlanks_textOf (hlaid t t.mem_preorder_self) (by rw [hk]; decide)
    (fun c hc => hlaid c (Tree.mem_preorder_of_child hc)) (by rw [hchildren]; simp), hchildren]
  simp

/-- A field access that is lowered to a reference. -/
theorem spellsText_of_reference {q : Option String} {m : String} (h : grammar.Valid t)
    (hk : t.kind = "field_access") (hlaid : ∀ n ∈ t.preorder, IsLaidOut source n)
    (hc : NoComment t) (hloose : NoLooseSuper t) (ih : ∀ c ∈ t.children, SpellsText source c)
    (hn : lower source t = .node (.reference q m)) :
    withoutBlanks (Node.reference q m).spelling.toList = withoutBlanks (textOf source t) := by
  obtain ⟨hnamed, object, dots, field, s⟩ := exists_fieldShape h.licenses hk
  have hreference := s.reference?_lower h hnamed hk source
  rw [hn] at hreference
  obtain ⟨r, hr, heq⟩ := Option.map_eq_some_iff.mp hreference.symm
  have hmem : object ∈ t.children := mem_children_of_kept s.kept List.mem_cons_self
  have hobject := ih object hmem _ (reference?_eq_some hr)
  cases heq
  have hdot : withoutBlanks ".".toList = ['.'] := by decide
  rw [spelling_dotted] at hobject
  rw [s.withoutBlanks_textOf hk hlaid hc hloose, Node.spelling_reference]
  simp only [Option.map_some, Option.getD_some, String.toList_append, withoutBlanks_append, hobject,
    hdot, withoutBlanks_nodeText, List.append_assoc, List.singleton_append]

/-- An operation whose operands are spelled as their texts. -/
theorem spellsText_of_binary {n : Node} (h : grammar.Valid t) (hk : t.kind = "binary_expression")
    (hlaid : ∀ n ∈ t.preorder, IsLaidOut source n) (hc : NoComment t)
    (ih : ∀ c ∈ t.children, SpellsText source c)
    (hn : binary? ((keptChildren t).map (lowered source)) = some n) :
    withoutBlanks n.spelling.toList = withoutBlanks (textOf source t) := by
  obtain ⟨-, left, operator, right, s⟩ := exists_binaryShape h.licenses hk
  obtain ⟨l, r, hl, hr, heq⟩ := s.binary?_eq source
  cases hn.symm.trans heq
  have hleft := ih left (mem_children_of_kept s.kept (by simp)) l hl
  have hright := ih right (mem_children_of_kept s.kept (by simp)) r hr
  have hspace : withoutBlanks " ".toList = [] := by decide
  rw [s.withoutBlanks_textOf hk hlaid hc, Node.spelling_binary]
  simp only [String.toList_append, withoutBlanks_append, hleft, hright, hspace,
    withoutBlanks_nodeText, List.append_assoc, List.nil_append]

/-- An expression is spelled as its text if those below it are. Only paths and operations are put
together from what is below them: all other forms keep the text of the node. -/
theorem spellsText_of_children (h : grammar.Valid t) (hlaid : ∀ n ∈ t.preorder, IsLaidOut source n)
    (hc : NoComment t) (hq : NoQualifiedSuper t) (ih : ∀ c ∈ t.children, SpellsText source c) :
    SpellsText source t := by
  intro n hn
  refine lower_cases source t
    (motive := fun c => lower source t = c → c = .node n →
      withoutBlanks n.spelling.toList = withoutBlanks (textOf source t))
    ?token ?literal ?name ?sequence ?other rfl hn
  case token =>
    intro _ _ hnode
    cases hnode
  case literal =>
    intro _ _ _ hnode
    cases hnode
    rw [Node.spelling_literal, withoutBlanks_nodeText]
  case name =>
    intro _ _ _ _ hnode
    cases hnode
    rw [Node.name, Node.spelling_reference, Option.map_none, Option.getD_none, String.empty_append,
      withoutBlanks_nodeText]
  case sequence =>
    intro _ _ _ _ _ hnode
    cases hnode
  case other =>
    intro _ _ _ _ hlower hnode
    cases hform : ownForm? source t with
    | none =>
      rw [hform] at hnode
      cases hnode
      rw [Option.getD_none, generalForm, Node.spelling_other, SourceText.withoutBlanks_render]
      rfl
    | some form =>
      rw [hform, Option.getD_some] at hlower hnode
      cases hnode
      rcases ownForm?_cases hform with ⟨hk, q, m, rfl⟩ | ⟨hk, -⟩ | ⟨hk, -⟩
      · exact spellsText_of_reference h hk hlaid hc (hq t t.mem_preorder_self hk) ih hlower
      · have hbinary : binary? ((keptChildren t).map (lowered source)) = some n := by
          simpa [ownForm?, hk] using hform
        exact spellsText_of_binary h hk hlaid hc ih hbinary
      · have hcall : invocation? source t ((keptChildren t).map (lowered source)) = some n := by
          simpa [ownForm?, hk] using hform
        obtain ⟨i, rfl, hi⟩ := text_of_invocation? hcall
        rw [Node.spelling_invocation, SourceText.withoutBlanks_render, hi]
        rfl

/-- Every expression without comments and without a qualified `super` is spelled as its text. -/
theorem spellsText (h : grammar.Valid t) (hlaid : ∀ n ∈ t.preorder, IsLaidOut source n)
    (hc : NoComment t) (hq : NoQualifiedSuper t) : SpellsText source t := by
  induction t using Tree.induction with
  | node t ih =>
    refine spellsText_of_children h hlaid hc hq fun c hmem => ?_
    have hct : c ∈ t.preorder := Tree.mem_preorder_of_child hmem
    exact ih c hmem (h.of_child hmem) (fun n hn => hlaid n (Tree.mem_preorder_trans hct hn))
      (hc.of_mem hct) (hq.of_mem hct)

/-! ## Arguments -/

/-- The arguments of each recorded call are those of the argument list of the node that it is recorded
from, one text for each expression there and in their order; and each text is that of its expression
in the source, up to blanks, if there is no comment and no qualified `super` in it. -/
theorem arguments_faithful {reading : List Char → Tree} {source label : String}
    {unit : CompilationUnit} (hparse : parseWith reading source label = .ok unit)
    (h : grammar.Valid (reading source.toList))
    (hlaid : LaidOut source.toList (reading source.toList)) (fileName : String) :
    let text := source.toList
    ∀ s ∈ (extract unit fileName).methods, ∃ nodes : List Tree,
      List.Forall₂ (fun t call => t ∈ (reading text).preorder ∧ isCall t = true ∧
        call = callOf text t ∧ some call.method = (t.childIn "name").map (nodeText text) ∧
        (∀ e ∈ argumentExpressions t, IsExpression e) ∧
        List.Forall₂ (fun e argument => NoComment e → NoQualifiedSuper e →
            withoutBlanks argument.toList = withoutBlanks (textOf text e))
          (argumentExpressions t) call.arguments) nodes s.calls := by
  intro text s hs
  obtain ⟨-, rfl⟩ := (parseWith_eq_ok_iff h).mp hparse
  obtain ⟨nodes, hnodes, hcalls⟩ := exists_nodes_of_calls h hs
  refine ⟨nodes, ?_⟩
  rw [hcalls, List.forall₂_map_right_iff, List.forall₂_same]
  intro t ht
  obtain ⟨hmem, hcall⟩ := hnodes t ht
  have hv := h.of_mem hmem
  obtain ⟨hexpressions, hspelled⟩ := arguments_callOf hv hcall text
  refine ⟨hmem, hcall, rfl, method_callOf hv hcall text, fun e he => (hexpressions e he).2, ?_⟩
  refine ((List.forall₂_and_left _ _).mpr ⟨hexpressions, hspelled⟩).imp ?_
  rintro e _ ⟨⟨he, -⟩, n, hn, rfl⟩ hc hq
  have hbelow : ∀ d ∈ e.preorder, IsLaidOut text d := by
    intro d hd
    obtain ⟨c, hc, hec⟩ := Tree.mem_preorderList.mp (mem_preorderList_of_mem hmem he)
    exact hlaid d (Tree.mem_preorderList.mpr ⟨c, hc, Tree.mem_preorder_trans hec hd⟩)
  exact spellsText (hv.of_mem (mem_preorder_of_mem_preorderList he)) hbelow hc hq n hn

theorem laidOut_pathTree : LaidOut pathSource.toList pathTree := by decide +kernel

theorem arguments_faithful_sample :
    grammar.Valid pathTree ∧ LaidOut pathSource.toList pathTree ∧
      parseWith (fun _ => pathTree) pathSource "" = .ok (unitOf pathSource.toList pathTree) ∧
      ∃ s ∈ (extract (unitOf pathSource.toList pathTree) "A.java").methods,
        s.calls = [⟨"c", some "a.b", ["d.e", "f + g"]⟩] ∧ ∃ nodes : List Tree,
          List.Forall₂ (fun t call => t ∈ pathTree.preorder ∧ isCall t = true ∧
            call = callOf pathSource.toList t ∧
            List.Forall₂ (fun e argument =>
                withoutBlanks argument.toList = withoutBlanks (textOf pathSource.toList e))
              (argumentExpressions t) call.arguments) nodes s.calls := by
  have hplain : ∀ t ∈ pathTree.preorder, ∀ e ∈ argumentExpressions t,
      NoComment e ∧ NoQualifiedSuper e := by decide +kernel
  refine ⟨valid_pathTree, laidOut_pathTree, parseWith_pathTree, _, pathSummary_mem, rfl, ?_⟩
  obtain ⟨nodes, hnodes⟩ := @arguments_faithful (fun _ => pathTree) pathSource "" _
    parseWith_pathTree valid_pathTree laidOut_pathTree "A.java" _ pathSummary_mem
  refine ⟨nodes, hnodes.imp ?_⟩
  rintro t call ⟨hmem, hc, hcall, -, -, harguments⟩
  refine ⟨hmem, hc, hcall, ?_⟩
  refine ((List.forall₂_and_left _ _).mpr ⟨hplain t hmem, harguments⟩).imp ?_
  rintro e argument ⟨⟨hcomment, hsuper⟩, htext⟩
  exact htext hcomment hsuper

end TestConversion.Java
