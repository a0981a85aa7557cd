import TestConversion.Proofs.Java.SourceTexts

/-!
# Displayed calls in the source

A call on a path, on the result of another call or on any other expression is displayed as it reads
in the source, up to blanks: with the path in front of it, or from its dot on. A call on nothing is
displayed with a dot, too, that the source does not have.

* `IsListed.texts_eq`: the texts of expressions with commas between them.
* `withoutBlanks_textOf_call`, `withoutBlanks_display_callOf`: a call in the source and as it is
  displayed.
* `displays_read`: the displays of all recorded calls.
* `bare_call_misread`: the display of a call on nothing.
-/

namespace TestConversion.Java

open Text Syntax Code

variable {source : List Char} {t : Tree}

/-- The text is a part of another one, up to blanks. -/
def ReadsIn (text : String) (whole : List Char) : Prop :=
  withoutBlanks text.toList <:+: withoutBlanks whole

/-- Nothing in a call is dropped when it is recorded: no comments, no type arguments of its own, and
no `super` that is qualified. -/
structure IsPlainCall (t : Tree) : Prop where
  comments : NoComment t
  types : t.childIn "type_arguments" = none
  loose : NoLooseSuper t
  qualified : NoQualifiedSuper t

instance (t : Tree) : Decidable (IsPlainCall t) :=
  decidable_of_iff (NoComment t ∧ (t.childIn "type_arguments").isNone = true ∧ NoLooseSuper t ∧
    NoQualifiedSuper t)
    ⟨fun ⟨hc, ht, hl, hq⟩ => ⟨hc, Option.isNone_iff_eq_none.mp ht, hl, hq⟩,
      fun ⟨hc, ht, hl, hq⟩ => ⟨hc, Option.isNone_iff_eq_none.mpr ht, hl, hq⟩⟩

/-! ## Arguments in the source -/

theorem IsListed.exists_cons {ts : List Tree} (h : IsListed ts) :
    ∃ e es, ts.filter (·.named) = e :: es := by
  cases h with
  | one he => exact ⟨_, _, List.filter_cons_of_pos he.named⟩
  | more he _ _ => exact ⟨_, _, List.filter_cons_of_pos he.named⟩

/-- Expressions with commas between them cover their texts with commas between these. -/
theorem IsListed.texts_eq {ts : List Tree} (h : IsListed ts)
    (hlaid : ∀ c ∈ ts, IsLaidOut source c) :
    (ts.flatMap fun c => withoutBlanks (textOf source c)) =
      [','].intercalate ((ts.filter (·.named)).map fun e => withoutBlanks (textOf source e)) := by
  induction h with
  | @one e he =>
    rw [List.flatMap_singleton, List.filter_cons_of_pos he.named, List.filter_nil,
      List.map_singleton, List.intercalate_singleton]
  | @more e comma ts he hcomma h ih =>
    obtain ⟨d, ds, hds⟩ := h.exists_cons
    have hcommaText : withoutBlanks (textOf source comma) = [','] := by
      rw [withoutBlanks_textOf_token (hlaid comma (by simp)) hcomma]
      decide
    have hnot : ¬ comma.named = true := by simp [hcomma.named]
    rw [List.flatMap_cons, List.flatMap_cons, hcommaText,
      ih fun c hc => hlaid c (List.mem_cons_of_mem _ (List.mem_cons_of_mem _ hc)),
      List.filter_cons_of_pos he.named, List.filter_cons_of_neg hnot, hds]
    simp only [List.map_cons, List.intercalate_cons_cons, List.append_assoc]

/-- An argument list covers the texts of the expressions in it. -/
theorem ListShape.withoutBlanks_textOf {opening closing : Tree} {ts : List Tree}
    (s : ListShape t opening ts closing) (hk : t.kind = "argument_list")
    (hlaid : ∀ n ∈ t.preorder, IsLaidOut source n) (hc : NoComment t) :
    withoutBlanks (textOf source t) = '(' :: ([','].intercalate (((keptChildren t).filter
      (·.named)).map fun e => withoutBlanks (textOf source e)) ++ [')']) := by
  have hchildren := hc.keptChildren_eq.symm.trans s.kept
  have hl : ∀ c ∈ opening :: (ts ++ [closing]), IsLaidOut source c := fun c hc =>
    hlaid c (Tree.mem_preorder_of_child (hchildren ▸ hc))
  have hopening : withoutBlanks (textOf source opening) = ['('] := by
    rw [withoutBlanks_textOf_token (hl opening List.mem_cons_self) s.opening]
    decide
  have hclosing : withoutBlanks (textOf source closing) = [')'] := by
    rw [withoutBlanks_textOf_token (hl closing (by simp)) s.closing]
    decide
  have hts : (ts.flatMap fun c => withoutBlanks (textOf source c)) =
      [','].intercalate ((ts.filter (·.named)).map fun e => withoutBlanks (textOf source e)) := by
    rcases s.listed with rfl | h
    · rfl
    · exact h.texts_eq fun c hc => hl c (by simp [hc])
  have hnamed : (keptChildren t).filter (·.named) = ts.filter (·.named) := by
    rw [s.kept, List.filter_cons_of_neg (by simp [s.opening.named]), List.filter_append,
      List.filter_cons_of_neg (by simp [s.closing.named]), List.filter_nil, List.append_nil]
  rw [Java.withoutBlanks_textOf (hlaid t t.mem_preorder_self) (by rw [hk]; decide)
    (fun c hc => hl c (hchildren ▸ hc)) (by rw [hchildren]; simp), hchildren, hnamed,
    List.flatMap_cons, List.flatMap_append, List.flatMap_singleton, hopening, hclosing, hts]
  rfl

/-! ## Calls in the source -/

/-- A call without blanks, from its name on. -/
def ownText (source : List Char) (t : Tree) : List Char :=
  withoutBlanks (((t.childIn "name").map (textOf source)).getD []) ++ '(' :: ([','].intercalate
    ((argumentExpressions t).map fun e => withoutBlanks (textOf source e)) ++ [')'])

/-- Between what a call is made on and its name stands a dot. -/
theorem CallShape.between_eq {object : Option Tree} {between : List Tree} {name arguments : Tree}
    (s : CallShape t object between name arguments) (h : grammar.Valid t) (hc : isCall t = true)
    (hp : IsPlainCall t) :
    (object = none ∧ between = []) ∨
      ∃ o dot, object = some o ∧ between = [dot] ∧ dot.IsNode "." false none := by
  have hfields : ∀ c ∈ between, c.field ≠ some "type_arguments" := by
    intro c hmem hf
    have hsome := childIn_isSome (t := t) (c := c) (by simp [s.kept, hmem]) hf
    rw [hp.types] at hsome
    cases hsome
  generalize hfront : object.toList ++ between = front
  cases hfront ▸ s.isCallFront h.licenses hc with
  | bare =>
    obtain ⟨hnone, hnil⟩ := List.append_eq_nil_iff.mp hfront
    exact Or.inl ⟨by simpa using hnone, hnil⟩
  | @made o dots types hof hdots htypes =>
    cases object with
    | none =>
      -- without an object no child fills that field
      obtain rfl : between = o :: (dots ++ types) := hfront
      have ho := s.between_field o List.mem_cons_self
      simp [hof] at ho
    | some o' =>
      obtain ⟨rfl, rfl⟩ := List.cons_eq_cons.mp hfront
      obtain rfl : types = [] := List.eq_nil_iff_forall_not_mem.mpr fun c hmem =>
        hfields c (by simp [hmem]) (htypes c hmem)
      obtain ⟨dot, rfl, hdot⟩ := hdots.eq_plain fun c hmem =>
        hp.loose c (mem_children_of_kept s.kept (by simp [hmem]))
      exact Or.inr ⟨o', dot, rfl, by simp, hdot⟩

/-- A call covers what it is made on, a dot, and itself from its name on. -/
theorem withoutBlanks_textOf_call (h : grammar.Valid t) (hc : isCall t = true)
    (hlaid : ∀ n ∈ t.preorder, IsLaidOut source n) (hp : IsPlainCall t) :
    withoutBlanks (textOf source t) =
      ((t.childIn "object").map fun o => withoutBlanks (textOf source o) ++ ['.']).getD [] ++
        ownText source t := by
  have hk : t.kind = "method_invocation" := eq_of_beq hc
  obtain ⟨-, object, between, name, arguments, s⟩ := exists_callShape h.licenses hk
  have hchildren := hp.comments.keptChildren_eq.symm.trans s.kept
  have hl : ∀ c ∈ t.children, IsLaidOut source c := fun c hc =>
    hlaid c (Tree.mem_preorder_of_child hc)
  have ha : arguments ∈ t.children := mem_children_of_kept s.kept (by simp)
  have hat := Tree.mem_preorder_of_child ha
  obtain ⟨opening, ts, closing, l⟩ := exists_listShape (h.of_child ha).licenses s.arguments_kind
  have harguments := l.withoutBlanks_textOf s.arguments_kind
    (fun n hn => hlaid n (Tree.mem_preorder_trans hat hn)) (hp.comments.of_mem hat)
  rw [withoutBlanks_textOf (hlaid t t.mem_preorder_self) (by rw [hk]; decide) hl
    (by rw [hchildren]; simp), hchildren, ownText, argumentExpressions, s.childIn_name h,
    s.childIn_arguments h, s.childIn_object h]
  rcases s.between_eq h hc hp with ⟨rfl, rfl⟩ | ⟨o, dot, rfl, rfl, hdot⟩
  · simp [harguments]
  · have hdotText : withoutBlanks (textOf source dot) = ['.'] := by
      rw [withoutBlanks_textOf_token (hl dot (mem_children_of_kept s.kept (by simp))) hdot]
      decide
    simp [harguments, hdotText]

/-! ## Displayed calls -/

theorem withoutBlanks_display (c : Call) : withoutBlanks c.display.toList =
    ((c.qualifier.map fun q => withoutBlanks q.toList).getD []) ++
      '.' :: (withoutBlanks c.method.toList ++
        '(' :: ([','].intercalate (c.arguments.map fun a => withoutBlanks a.toList) ++ [')'])) := by
  have hcomma : withoutBlanks ", ".toList = [','] := by decide
  have hdot : withoutBlanks ".".toList = ['.'] := by decide
  have hopening : withoutBlanks "(".toList = ['('] := by decide
  have hclosing : withoutBlanks ")".toList = [')'] := by decide
  have harguments : withoutBlanks (", ".intercalate c.arguments).toList =
      [','].intercalate (c.arguments.map fun a => withoutBlanks a.toList) := by
    rw [String.toList_intercalate, withoutBlanks_intercalate, hcomma, List.map_map]
    rfl
  rw [Call.display]
  cases c.qualifier <;>
    simp only [String.toList_append, withoutBlanks_append, harguments, hdot, hopening, hclosing,
      Option.map_some, Option.map_none, Option.getD_some, Option.getD_none, List.append_assoc,
      List.cons_append, List.nil_append]

/-- All that is below a call is spelled as its text. -/
theorem IsPlainCall.spellsText {e : Tree} (hp : IsPlainCall t) (h : grammar.Valid t)
    (hlaid : ∀ n ∈ t.preorder, IsLaidOut source n) (he : e ∈ t.preorder) : SpellsText source e :=
  Java.spellsText (h.of_mem he) (fun n hn => hlaid n (Tree.mem_preorder_trans he hn))
    (hp.comments.of_mem he) (hp.qualified.of_mem he)

/-- The arguments of a call are its expressions in the source. -/
theorem argumentTexts_callOf (h : grammar.Valid t) (hc : isCall t = true)
    (hlaid : ∀ n ∈ t.preorder, IsLaidOut source n) (hp : IsPlainCall t) :
    ((callOf source t).arguments.map fun a => withoutBlanks a.toList) =
      (argumentExpressions t).map fun e => withoutBlanks (textOf source e) := by
  obtain ⟨hexpressions, hspelled⟩ := arguments_callOf h hc source
  rw [← List.forall₂_eq_eq_eq, List.forall₂_map_left_iff, List.forall₂_map_right_iff]
  refine List.Forall₂.flip (((List.forall₂_and_left _ _).mpr ⟨hexpressions, hspelled⟩).imp ?_)
  rintro e _ ⟨⟨he, -⟩, n, hn, rfl⟩
  exact hp.spellsText h hlaid (mem_preorder_of_mem_preorderList he) n hn

/-- A call is displayed with its qualifier, a dot, and itself from its name on. -/
theorem withoutBlanks_display_callOf (h : grammar.Valid t) (hc : isCall t = true)
    (hlaid : ∀ n ∈ t.preorder, IsLaidOut source n) (hp : IsPlainCall t) :
    withoutBlanks (callOf source t).display.toList =
      ((callOf source t).qualifier.map fun q => withoutBlanks q.toList).getD [] ++
        '.' :: ownText source t := by
  have hmethod : withoutBlanks (callOf source t).method.toList =
      withoutBlanks (((t.childIn "name").map (textOf source)).getD []) := by
    rw [callOf]
    cases t.childIn "name" with
    | none => rfl
    | some name => exact withoutBlanks_nodeText source name
  rw [withoutBlanks_display, argumentTexts_callOf h hc hlaid hp, hmethod]
  rfl

/-- The qualifier of a call is what it is made on in the source. -/
theorem withoutBlanks_qualifier {o : Tree} {q : String} (h : grammar.Valid t)
    (hlaid : ∀ n ∈ t.preorder, IsLaidOut source n) (hp : IsPlainCall t)
    (ho : t.childIn "object" = some o) (hq : (callOf source t).qualifier = some q) :
    withoutBlanks q.toList = withoutBlanks (textOf source o) := by
  rw [callOf, ho, Option.bind_some, qualifierOf_eq] at hq
  obtain ⟨r, hr, rfl⟩ := Option.map_eq_some_iff.mp hq
  rw [← spelling_dotted]
  exact hp.spellsText h hlaid (mem_preorder_of_childIn ho) _ (reference?_eq_some hr)

/-- A call on something reads in the source as it is displayed, to its end. -/
theorem display_suffix {o : Tree} (h : grammar.Valid t) (hc : isCall t = true)
    (hlaid : ∀ n ∈ t.preorder, IsLaidOut source n) (hp : IsPlainCall t)
    (ho : t.childIn "object" = some o) :
    withoutBlanks (callOf source t).display.toList <:+ withoutBlanks (textOf source t) := by
  rw [withoutBlanks_textOf_call h hc hlaid hp, withoutBlanks_display_callOf h hc hlaid hp, ho]
  cases hq : (callOf source t).qualifier with
  | some q =>
    rw [Option.map_some, Option.getD_some, withoutBlanks_qualifier h hlaid hp ho hq]
    simp
  | none =>
    rw [Option.map_none, Option.getD_none, Option.map_some, Option.getD_some, List.append_assoc]
    exact List.suffix_append _ _

/-- A call on nothing is displayed as it reads in the source, but for a dot in front of it. -/
theorem display_bare (h : grammar.Valid t) (hc : isCall t = true)
    (hlaid : ∀ n ∈ t.preorder, IsLaidOut source n) (hp : IsPlainCall t)
    (ho : t.childIn "object" = none) :
    withoutBlanks (callOf source t).display.toList = '.' :: withoutBlanks (textOf source t) := by
  have hq : (callOf source t).qualifier = none := by rw [callOf, ho, Option.bind_none]
  rw [withoutBlanks_textOf_call h hc hlaid hp, withoutBlanks_display_callOf h hc hlaid hp, ho, hq]
  rfl

theorem readsIn_textOf_iff (h : grammar.Valid t) (hc : isCall t = true)
    (hlaid : ∀ n ∈ t.preorder, IsLaidOut source n) (hp : IsPlainCall t) :
    ReadsIn (callOf source t).display (textOf source t) ↔ (t.childIn "object").isSome = true := by
  cases ho : t.childIn "object" with
  | some o => exact iff_of_true (display_suffix h hc hlaid hp ho).isInfix rfl
  | none =>
    rw [ReadsIn, display_bare h hc hlaid hp ho]
    constructor
    · intro hinfix
      have hlength := hinfix.length_le
      rw [List.length_cons] at hlength
      omega
    · intro hsome
      cases hsome

/-- What a node covers is a part of the text. -/
theorem isInfix_textOf (h : IsLaidOut source t) :
    withoutBlanks (textOf source t) <:+: withoutBlanks source := by
  obtain ⟨before, behind, heq, -⟩ := slice?_eq_some_iff.mp h.slice?_eq
  refine ⟨withoutBlanks before, withoutBlanks behind, ?_⟩
  rw [← withoutBlanks_append, ← withoutBlanks_append, List.append_assoc, ← heq]

/-- A call that is recorded, without comments, type arguments and a qualified `super`, is displayed
as it reads in the source, up to blanks, if it is made on anything: a path, the result of another
call or another expression. If it is made on nothing it is displayed as it reads but for a dot in
front of it; so the display is a part of the text of the call exactly if it is made on something. -/
theorem displays_read {reading : List Char → Tree} {source label : String}
    {unit : CompilationUnit} (hparse : parseWith reading source label = .ok unit)
    (h : grammar.Valid (reading source.toList))
    (hlaid : LaidOut source.toList (reading source.toList)) (fileName : String) :
    let text := source.toList
    ∀ s ∈ (extract unit fileName).methods, ∃ nodes : List Tree,
      List.Forall₂ (fun t call => t ∈ (reading text).preorder ∧ isCall t = true ∧
        call = callOf text t ∧ some call.method = (t.childIn "name").map (nodeText text) ∧
        (IsPlainCall t →
          ((t.childIn "object").isSome = true → ReadsIn call.display text) ∧
          (t.childIn "object" = none →
            withoutBlanks call.display.toList = '.' :: withoutBlanks (textOf text t)) ∧
          (ReadsIn call.display (textOf text t) ↔ (t.childIn "object").isSome = true)))
        nodes s.calls := by
  intro text s hs
  obtain ⟨-, rfl⟩ := (parseWith_eq_ok_iff h).mp hparse
  obtain ⟨nodes, hnodes, hcalls⟩ := exists_nodes_below h hs
  refine ⟨nodes, ?_⟩
  rw [hcalls, List.forall₂_map_right_iff, List.forall₂_same]
  intro t ht
  obtain ⟨hbelow, hc⟩ := hnodes t ht
  have hmem := mem_preorder_of_mem_preorderList hbelow
  have hv := h.of_mem hmem
  have hl : ∀ n ∈ t.preorder, IsLaidOut text n := fun n hn => hlaid.of_mem hbelow hn
  refine ⟨hmem, hc, rfl, method_callOf hv hc text, fun hp => ⟨fun ho => ?_, ?_, ?_⟩⟩
  · have hown := (readsIn_textOf_iff hv hc hl hp).mpr ho
    exact hown.trans (isInfix_textOf (hl t t.mem_preorder_self))
  · exact display_bare hv hc hl hp
  · exact readsIn_textOf_iff hv hc hl hp

theorem displays_read_sample :
    grammar.Valid pathTree ∧ LaidOut pathSource.toList pathTree ∧
      parseWith (fun _ => pathTree) pathSource "" = .ok (unitOf pathSource.toList pathTree) ∧
      ∃ s ∈ (extract (unitOf pathSource.toList pathTree) "A.java").methods,
        s.calls = [⟨"c", some "a.b", ["d.e", "f + g"]⟩] ∧
        ∀ call ∈ s.calls, ReadsIn call.display pathSource.toList := by
  have hplain : ∀ t ∈ pathTree.preorder, isCall t = true →
      IsPlainCall t ∧ (t.childIn "object").isSome = true := by decide +kernel
  refine ⟨valid_pathTree, laidOut_pathTree, parseWith_pathTree, _, pathSummary_mem, rfl,
    fun call hcall => ?_⟩
  obtain ⟨nodes, hnodes⟩ := @displays_read (fun _ => pathTree) pathSource "" _
    parseWith_pathTree valid_pathTree laidOut_pathTree "A.java" _ pathSummary_mem
  cases List.mem_singleton.mp hcall
  cases hnodes with
  | cons hread _ =>
    obtain ⟨hmem, hc, -, -, hdisplay⟩ := hread
    obtain ⟨hp, ho⟩ := hplain _ hmem hc
    exact (hdisplay hp).1 ho

def bareSource : String := "class A \x7b void m() \x7b f(); \x7d \x7d"

/-- The only statement is `f();`. -/
def bareTree : Tree :=
  programAround <| branchAt "expression_statement" none 21 25 [
    branchAt "method_invocation" none 21 24 [
      nameAt (some "name") 21,
      branchAt "argument_list" (some "arguments") 22 24 [textAt "(" 22, textAt ")" 23]],
    textAt ";" 24]

theorem valid_bareTree : grammar.Valid bareTree := Grammar.valid_of_recognises 8 (by decide +kernel)

theorem laidOut_bareTree : LaidOut bareSource.toList bareTree := by decide +kernel

theorem parseWith_bareTree : parseWith (fun _ => bareTree) bareSource "" =
    .ok (unitOf bareSource.toList bareTree) := by
  have hnone : firstForbidden bareSource.toList bareTree = none := by decide +kernel
  exact (@parseWith_eq_ok_iff (fun _ => bareTree) bareSource "" valid_bareTree _).mpr ⟨hnone, rfl⟩

/-- The call is displayed as `.f()`, which is not in the source. -/
theorem bare_call_misread :
    grammar.Valid bareTree ∧ LaidOut bareSource.toList bareTree ∧
      (∀ n ∈ bareTree.preorder,
        n.extra = false ∧ n.kind ≠ "type_arguments" ∧ n.kind ≠ "super") ∧
      ∃ unit, parseWith (fun _ => bareTree) bareSource "" = .ok unit ∧
        ∃ s ∈ (extract unit "A.java").methods, ∃ call ∈ s.calls,
          call.display = ".f()" ∧ ¬ ReadsIn call.display bareSource.toList := by
  have hplain : (bareTree.preorder.all fun n =>
      decide (n.extra = false ∧ n.kind ≠ "type_arguments" ∧ n.kind ≠ "super")) = true := by
    decide +kernel
  have hmethods : (extract (unitOf bareSource.toList bareTree) "A.java").methods =
      [⟨"m", [], [⟨"f", none, []⟩]⟩] := by decide +kernel
  have hdisplay : Call.display ⟨"f", none, []⟩ = ".f()" := by decide +kernel
  have hnot : ¬ ReadsIn ".f()" bareSource.toList := by
    rw [ReadsIn]
    decide +kernel
  refine ⟨valid_bareTree, laidOut_bareTree,
    fun n hn => of_decide_eq_true (List.all_eq_true.mp hplain n hn), _, parseWith_bareTree,
    ⟨"m", [], [⟨"f", none, []⟩]⟩, ?_, ⟨"f", none, []⟩, List.mem_singleton_self _, hdisplay, ?_⟩
  · rw [hmethods]
    exact List.mem_singleton_self _
  · rw [hdisplay]
    exact hnot

end TestConversion.Java
