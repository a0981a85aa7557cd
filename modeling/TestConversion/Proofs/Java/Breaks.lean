import TestConversion.Proofs.Java.Edits
import TestConversion.Proofs.Text.Lines

/-!
# Line breaks in what is recorded

Names hold no line break, and the text of a construct is shown with its blanks collapsed. But
literals are shown as they are written, and a string may go over several lines. So the line breaks
of a recorded call are those of the literals that its arguments are, or that they are put together
from by operators.

* `IsLexed`: tokens that read as the language has them.
* `breaks_reference`, `breaks_spelling`: line breaks of paths and of expressions.
* `breaks_display_callOf`: line breaks of a recorded call.
* `breaks_names`: no other text in the metadata of a class has any.
-/

namespace TestConversion.Syntax.Pattern

/-- No text of the pattern has the character in it. -/
def avoids (c : Char) : Pattern → Bool
  | never => true
  | text cs => !cs.contains c
  | one k => !k.mem c
  | seq p q | alt p q => p.avoids c && q.avoids c
  | star p => p.avoids c

theorem not_mem_of_avoids {c : Char} {p : Pattern} {cs : List Char} (h : Matches p cs)
    (hp : p.avoids c = true) : c ∉ cs := by
  induction h with
  | text cs => simpa [avoids] using hp
  | @one k d hd =>
    rw [List.mem_singleton]
    rintro rfl
    simp [avoids, hd] at hp
  | seq _ _ ihp ihq =>
    rw [avoids, Bool.and_eq_true] at hp
    simp [ihp hp.1, ihq hp.2]
  | altLeft _ ih =>
    rw [avoids, Bool.and_eq_true] at hp
    exact ih hp.1
  | altRight _ ih =>
    rw [avoids, Bool.and_eq_true] at hp
    exact ih hp.2
  | starNil => simp
  | starCons _ _ ihp ihs => simp [ihp hp, ihs hp]

end TestConversion.Syntax.Pattern

namespace TestConversion.Java

open Text Syntax Code

variable {source : List Char} {t root : Tree}

/-! ## Tokens -/

/-- Names read as identifiers or as the words that they are, and other tokens read as their kind. -/
structure IsLexed (source : List Char) (t : Tree) : Prop where
  identifier : t.kind = "identifier" → Lexeme.identifier.accepts (textOf source t) = true
  word : t.kind = "this" ∨ t.kind = "super" → textOf source t = t.kind.toList
  token : t.named = false → textOf source t = t.kind.toList

instance (source : List Char) (t : Tree) : Decidable (IsLexed source t) :=
  decidable_of_iff ((t.kind = "identifier" → Lexeme.identifier.accepts (textOf source t) = true) ∧
      (t.kind = "this" ∨ t.kind = "super" → textOf source t = t.kind.toList) ∧
      (t.named = false → textOf source t = t.kind.toList))
    ⟨fun ⟨hi, hw, ht⟩ => ⟨hi, hw, ht⟩, fun ⟨hi, hw, ht⟩ => ⟨hi, hw, ht⟩⟩

/-- All tokens of a tree read as the language has them. -/
def Lexed (source : List Char) (root : Tree) : Prop := ∀ n ∈ root.preorder, IsLexed source n

instance (source : List Char) (root : Tree) : Decidable (Lexed source root) :=
  inferInstanceAs (Decidable (∀ n ∈ root.preorder, IsLexed source n))

theorem Lexed.of_mem {n : Tree} (h : Lexed source t) (hn : n ∈ t.preorder) : Lexed source n :=
  fun d hd => h d (Tree.mem_preorder_trans hn hd)

theorem Lexed.of_child {c : Tree} (h : Lexed source t) (hc : c ∈ t.children) : Lexed source c :=
  h.of_mem (Tree.mem_preorder_of_child hc)

theorem Lexed.isLexed (h : Lexed source t) : IsLexed source t := h t t.mem_preorder_self

namespace IsLexed

theorem breaks_name (h : IsLexed source t) (hk : nameKinds.contains t.kind = true) :
    breaks (nodeText source t) = 0 := by
  rw [nodeText, breaks_ofList, List.count_eq_zero]
  have hkinds : t.kind = "identifier" ∨ t.kind = "this" ∨ t.kind = "super" := by
    simpa [nameKinds] using hk
  rcases hkinds with hk | hk | hk
  · exact Pattern.not_mem_of_avoids (Pattern.accepts_iff.mp (h.identifier hk)) (by decide +kernel)
  · rw [h.word (.inl hk), hk]
    decide
  · rw [h.word (.inr hk), hk]
    decide

theorem breaks_token (h : IsLexed source t) (hl : grammar.Licenses t) (hn : t.named = false) :
    breaks (nodeText source t) = 0 := by
  have htexts : ∀ s ∈ grammar.texts, '\n' ∉ s.toList := by decide +kernel
  rw [nodeText, breaks_ofList, List.count_eq_zero, h.token hn]
  exact htexts t.kind (hl.children_of_not_named hn).2

end IsLexed

/-! ## Expressions -/

mutual

/-- The literals that an expression is spelled with: itself, or those of the operands of an
operation. -/
def spelledLiterals : Tree → List Tree
  | .node l cs =>
    if !l.named then []
    else if literalKinds.contains l.kind then [.node l cs]
    else if l.kind == "binary_expression" then spelledLiteralsOf cs
    else []

def spelledLiteralsOf : List Tree → List Tree
  | [] => []
  | c :: cs => spelledLiterals c ++ spelledLiteralsOf cs

end

theorem spelledLiteralsOf_eq (cs : List Tree) :
    spelledLiteralsOf cs = cs.flatMap spelledLiterals := by
  induction cs with
  | nil => rfl
  | cons c cs ih => rw [spelledLiteralsOf, ih, List.flatMap_cons]

theorem spelledLiterals_eq (t : Tree) : spelledLiterals t =
    if !t.named then []
    else if literalKinds.contains t.kind then [t]
    else if t.kind == "binary_expression" then t.children.flatMap spelledLiterals
    else [] := by
  cases t with
  | node l cs =>
    rw [spelledLiterals, spelledLiteralsOf_eq]
    rfl

/-- The line breaks in the literals that an expression is spelled with. -/
def literalBreaks (source : List Char) (t : Tree) : Nat :=
  ((spelledLiterals t).map fun l => (textOf source l).count '\n').sum

/-- A path has no line break. -/
theorem breaks_reference (h : grammar.Valid t) (hl : Lexed source t) {r : Option String × String}
    (hr : reference? (lower source t) = some r) : breaks (dotted r) = 0 := by
  induction t using Tree.induction generalizing r with
  | node t ih =>
    by_cases hk : t.kind = "field_access"
    · obtain ⟨hn, object, dots, field, s⟩ := exists_fieldShape h.licenses hk
      rw [s.reference?_lower h hn hk] at hr
      obtain ⟨base, hbase, rfl⟩ := Option.map_eq_some_iff.mp hr
      have hobject : object ∈ t.children := mem_children_of_kept s.kept (by simp)
      have hfield : field ∈ t.children := mem_children_of_kept s.kept (by simp)
      have hname : nameKinds.contains field.kind = true :=
        (Bool.and_eq_true _ _ ▸ s.field_name : _ ∧ _).2
      have hbaseBreaks := ih object hobject (h.of_child hobject) (hl.of_child hobject) hbase
      have hlast := (hl.of_child hfield).isLexed.breaks_name hname
      have hdot : breaks "." = 0 := by decide
      simp only [dotted, breaks_append] at hbaseBreaks ⊢
      omega
    · rw [reference?_lower] at hr
      rw [beq_eq_false_iff_ne.mpr hk] at hr
      split at hr
      · cases hr
      · split at hr
        · rename_i hname
          cases hr
          exact hl.isLexed.breaks_name hname
        · cases hr

theorem spelledLiterals_of_extra (h : grammar.Licenses t) (hx : t.extra = true) :
    spelledLiterals t = [] := by
  obtain ⟨-, -, hk, hcs⟩ := h.named_of_extra hx
  have hextras : grammar.extras.all (fun k => !literalKinds.contains k) = true := by decide +kernel
  have hl := List.all_eq_true.mp hextras _ hk
  rw [Bool.not_eq_true'] at hl
  rw [spelledLiterals_eq, hl, hcs]
  simp

/-- Comments are no part of an operation. -/
theorem flatMap_spelledLiterals (h : grammar.Valid t) :
    t.children.flatMap spelledLiterals = (keptChildren t).flatMap spelledLiterals := by
  rw [keptChildren, flatMap_filter]
  refine List.flatMap_congr fun c hc => ?_
  cases hx : c.extra with
  | false => rfl
  | true => exact spelledLiterals_of_extra (h.of_child hc).licenses hx

/-- The line breaks of an operation are those of its operands. -/
theorem BinaryShape.literalBreaks_eq {left operator right : Tree}
    (s : BinaryShape t left operator right) (h : grammar.Valid t) (hn : t.named = true)
    (hk : t.kind = "binary_expression") (source : List Char) :
    literalBreaks source t = literalBreaks source left + literalBreaks source right := by
  have hoperator : spelledLiterals operator = [] := by
    rw [spelledLiterals_eq, s.operator_named]
    rfl
  have hliterals : spelledLiterals t = spelledLiterals left ++ spelledLiterals right := by
    rw [spelledLiterals_eq, hn, hk, flatMap_spelledLiterals h, s.kept]
    simp [hoperator, literalKinds]
  rw [literalBreaks, hliterals, List.map_append, List.sum_append]
  rfl

theorem breaks_textSpelling (h : grammar.Valid t) (hl : Lexed source t) :
    breaks (textSpelling source t) = 0 := by
  rw [textSpelling]
  cases hr : reference? (lower source t) with
  | none => exact breaks_collapse _
  | some r => exact breaks_reference h hl hr

/-- The line breaks in the spelling of an expression are those of its literals. -/
theorem breaks_spelling (h : grammar.Valid t) (hl : Lexed source t) (he : IsExpression t) :
    breaks (String.join (spellingsOf (lower source t))) = literalBreaks source t := by
  induction t using Tree.induction with
  | node t ih =>
    have hsequence : sequenceKinds.contains t.kind = false := by
      have hkind := he.kind
      rw [isNodeKind, Bool.and_eq_true, Bool.not_eq_true'] at hkind
      exact hkind.1
    rw [spellingsOf_lower h.licenses, he.named, hsequence]
    -- Only an operation is spelled from its children: all other forms are texts of the node itself.
    by_cases hb : t.kind = "binary_expression"
    · obtain ⟨-, left, operator, right, s⟩ := exists_binaryShape h.licenses hb
      have hleft : left ∈ t.children := mem_children_of_kept s.kept (by simp)
      have hoperator : operator ∈ t.children := mem_children_of_kept s.kept (by simp)
      have hright : right ∈ t.children := mem_children_of_kept s.kept (by simp)
      have hleftBreaks := ih left hleft (h.of_child hleft) (hl.of_child hleft) s.left_expression
      have hrightBreaks := ih right hright (h.of_child hright) (hl.of_child hright)
        s.right_expression
      have htoken := (hl.of_child hoperator).isLexed.breaks_token (h.of_child hoperator).licenses
        s.operator_named
      have hspace : breaks " " = 0 := by decide
      rw [s.literalBreaks_eq h he.named hb, hb, s.kept, ← hleftBreaks, ← hrightBreaks]
      simp [pieceOf, literalKinds, nameKinds, s.left_expression.named, s.right_expression.named,
        s.operator_named, breaks_append, htoken, hspace]
    · cases hliteral : literalKinds.contains t.kind with
      | true =>
        rw [literalBreaks, spelledLiterals_eq, he.named, hliteral]
        simp [nodeText, breaks_ofList]
      | false =>
        have hnone : literalBreaks source t = 0 := by
          rw [literalBreaks, spelledLiterals_eq, he.named, hliteral, beq_eq_false_iff_ne.mpr hb]
          rfl
        rw [hnone, beq_eq_false_iff_ne.mpr hb]
        cases hname : nameKinds.contains t.kind with
        | true => simpa using hl.isLexed.breaks_name hname
        | false => simpa using breaks_textSpelling h hl

/-! ## Calls -/

/-- The line breaks in the literals that the arguments of a call are spelled with. -/
def callBreaks (source : List Char) (t : Tree) : Nat :=
  ((argumentExpressions t).map (literalBreaks source)).sum

/-- A name that is read is one line. -/
theorem breaks_childIn (h : grammar.Valid t) (hl : Lexed source t) {field : String}
    (hf : (t.kind, field) ∈ nameFields) {c : Tree} (hc : t.childIn field = some c) :
    breaks (nodeText source c) = 0 :=
  (hl.of_child (List.mem_of_find?_eq_some hc)).isLexed.breaks_name (kind_of_name h hf hc).1

theorem breaks_method (h : grammar.Valid t) (hl : Lexed source t) (hc : isCall t = true) :
    breaks (callOf source t).method = 0 := by
  have hname := method_callOf h hc source
  obtain ⟨c, hchild, htext⟩ := Option.map_eq_some_iff.mp hname.symm
  have hf : (t.kind, "name") ∈ nameFields := by
    rw [eq_of_beq hc]
    decide
  rw [← htext]
  exact breaks_childIn h hl hf hchild

theorem breaks_qualifier (h : grammar.Valid t) (hl : Lexed source t) :
    ∀ q ∈ (callOf source t).qualifier, breaks q = 0 := by
  intro q hq
  rw [callOf] at hq
  obtain ⟨o, ho, hq⟩ := Option.bind_eq_some_iff.mp hq
  rw [qualifierOf_eq] at hq
  obtain ⟨r, hr, rfl⟩ := Option.map_eq_some_iff.mp hq
  have hmem := mem_preorder_of_childIn ho
  exact breaks_reference (h.of_mem hmem) (hl.of_mem hmem) hr

theorem breaks_arguments (h : grammar.Valid t) (hl : Lexed source t) (hc : isCall t = true) :
    ((callOf source t).arguments.map breaks).sum = callBreaks source t := by
  obtain ⟨hexpressions, hspelled⟩ := arguments_callOf h hc source
  have hbreaks : List.Forall₂ (fun e text => literalBreaks source e = breaks text)
      (argumentExpressions t) (callOf source t).arguments := by
    refine ((List.forall₂_and_left _ _).mpr ⟨hexpressions, hspelled⟩).imp ?_
    rintro e _ ⟨⟨he, hexpression⟩, n, hn, rfl⟩
    have hmem := mem_preorder_of_mem_preorderList he
    have := breaks_spelling (h.of_mem hmem) (hl.of_mem hmem) hexpression
    rw [hn] at this
    simpa [spellingsOf, nodesOf] using this.symm
  rw [callBreaks, map_eq_of_forall₂ hbreaks fun _ _ heq => heq]

/-- A recorded call has the line breaks of the literals in its arguments, and no others. -/
theorem breaks_display_callOf (h : grammar.Valid t) (hl : Lexed source t) (hc : isCall t = true) :
    breaks (callOf source t).display = callBreaks source t := by
  have hmethod := breaks_method h hl hc
  have hqualifier := breaks_qualifier h hl
  have hlist : breaks (", ".intercalate (callOf source t).arguments) = callBreaks source t := by
    rw [breaks_intercalate (by decide), breaks_arguments h hl hc]
  have hdot : breaks "." = 0 := by decide
  have hopening : breaks "(" = 0 := by decide
  have hclosing : breaks ")" = 0 := by decide
  rw [Call.display]
  split
  · rename_i q hq
    simp [breaks_append, hlist, hmethod, hqualifier q hq, hdot, hopening, hclosing]
  · simp [breaks_append, hlist, hmethod, hdot, hopening, hclosing]

/-! ## Names -/

/-- The name of an annotation is one line. -/
theorem IsAnnotationName.breaks_eq {a : Tree} {text : String} (h : IsAnnotationName source a text)
    (hl : Lexed source a) : breaks text = 0 := by
  obtain ⟨name, hname, rfl⟩ := h
  rw [breaks_intercalate (by decide)]
  refine List.sum_eq_zero_iff_forall_eq_nat.mpr fun n hn => ?_
  rw [List.map_map] at hn
  obtain ⟨i, hi, rfl⟩ := List.mem_map.mp hn
  obtain ⟨hmem, hk⟩ := List.mem_filter.mp hi
  have hi := (hl.of_mem (mem_preorder_of_childIn hname)).of_mem hmem
  exact hi.isLexed.breaks_name (by rw [eq_of_beq hk]; decide)

/-- The names in the metadata are one line each. -/
structure NamesUnbroken (m : Metadata) : Prop where
  className : breaks m.className = 0
  name : ∀ s ∈ m.methods, breaks s.name = 0
  annotations : ∀ s ∈ m.methods, ∀ a ∈ s.annotations, breaks a = 0

theorem breaks_classNameOf (h : grammar.Valid t) (hl : Lexed source t)
    (hk : t.kind = "class_declaration") : breaks (classNameOf source t) = 0 := by
  rw [classNameOf]
  cases hname : t.childIn "name" with
  | none => rfl
  | some c => exact breaks_childIn h hl (by rw [hk]; decide) hname

namespace IsSummaryOf

variable {s : MethodSummary}

theorem breaks_name (hs : IsSummaryOf source t s) (h : grammar.Valid t) (hl : Lexed source t)
    (hk : t.kind = "method_declaration") : breaks s.name = 0 := by
  obtain ⟨c, hc, htext⟩ := Option.map_eq_some_iff.mp hs.name
  rw [← htext]
  exact breaks_childIn h hl (by rw [hk]; decide) hc

theorem breaks_annotations (hs : IsSummaryOf source t s) (hl : Lexed source t) :
    ∀ a ∈ s.annotations, breaks a = 0 := by
  intro a ha
  obtain ⟨node, hnode, hnames⟩ := exists_of_forall₂ hs.annotations ha
  obtain ⟨modifiers, hmodifiers, hnode⟩ := List.mem_flatMap.mp hnode
  have hl := hl.of_child (List.mem_of_mem_filter hmodifiers)
  exact hnames.breaks_eq (hl.of_child (List.mem_of_mem_filter hnode))

end IsSummaryOf

theorem breaks_names (h : grammar.Valid root) (hl : Lexed source root) (fileName : String) :
    NamesUnbroken (extract (unitOf source root) fileName) := by
  obtain ⟨hname, hmethods⟩ := extract_eq h source fileName
  cases hc : topClass? root with
  | none =>
    rw [hc] at hname hmethods
    exact ⟨by rw [hname]; rfl, by simp [hmethods], by simp [hmethods]⟩
  | some c =>
    obtain ⟨hmem, hk⟩ := of_topClass? hc
    have hv := h.of_child hmem
    have hl := hl.of_child hmem
    have hdescribed := methods_described h hc source fileName
    refine ⟨?_, fun s hs => ?_, fun s hs => ?_⟩
    · rw [hname, hc]
      exact breaks_classNameOf hv hl hk
    · obtain ⟨m, hm, hsummary⟩ := exists_of_forall₂ hdescribed hs
      obtain ⟨hm, hkind⟩ := of_mem_methodsIn hm
      exact hsummary.breaks_name (hv.of_mem hm) (hl.of_mem hm) hkind
    · obtain ⟨m, hm, hsummary⟩ := exists_of_forall₂ hdescribed hs
      exact hsummary.breaks_annotations (hl.of_mem (of_mem_methodsIn hm).1)

end TestConversion.Java
