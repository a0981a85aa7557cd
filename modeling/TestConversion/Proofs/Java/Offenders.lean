import Mathlib.Data.List.DropRight
import Mathlib.Data.List.TakeDrop
import TestConversion.Proofs.Java.Admission
import TestConversion.Proofs.Java.Order
import TestConversion.Proofs.Text.Slices

/-!
# The construct that a message names

Two kinds of constructs are in the grammar, but not in Java: what may not stand at the top level,
and reserved words as names. They are looked for one kind after the other. The message names the
first one of its kind, which is the first one of both kinds unless a reserved word stands in front
of everything misplaced.

* `placeOf_append`: the line and the column at the end of an initial part of a text.
* `unexpectedText_eq`: a construct is cut exactly if it does not fit.
* `Placed.sorted_preorder`: the nodes of a tree start in the order of the search.
* `first_forbidden_named`: the construct that a message names, with its place and text.
* `misnamed_before_misplaced`: a text where this is not the first one.
-/

namespace TestConversion.Text

/-! ## Lines and columns -/

/-- The place behind one character. -/
def Place.after (here : Place) (c : Char) : Place :=
  if c = '\n' then ⟨here.line + 1, 1⟩ else ⟨here.line, here.column + c.utf8Size⟩

theorem placeFrom_append (here : Place) (before behind : List Char) :
    placeFrom here (before ++ behind) (byteSize before) = before.foldl Place.after here := by
  induction before generalizing here with
  | nil => cases behind <;> rfl
  | cons c cs ih =>
    obtain ⟨n, hn⟩ : ∃ n, byteSize (c :: cs) = n + 1 :=
      Nat.exists_eq_succ_of_ne_zero (by have := c.utf8Size_pos; rw [byteSize]; omega)
    have hrest : n + 1 - c.utf8Size = byteSize cs := by
      rw [byteSize] at hn
      omega
    rw [hn, List.cons_append, placeFrom, hrest, ih, List.foldl_cons, Place.after]

/-- The end of a text is in the line after its line breaks, behind what follows the last one. -/
theorem placeOf_append (before behind : List Char) :
    placeOf (before ++ behind) (byteSize before) =
      ⟨1 + before.count '\n', 1 + byteSize (before.rtakeWhile (· ≠ '\n'))⟩ := by
  rw [placeOf, placeFrom_append]
  induction before using List.reverseRecOn with
  | nil => rfl
  | append_singleton cs c ih =>
    rw [List.foldl_concat, ih, Place.after, List.count_append, List.rtakeWhile_concat]
    by_cases hc : c = '\n'
    · simp [hc, byteSize, Nat.add_assoc]
    · simp [hc, byteSize, byteSize_append, Nat.add_assoc]

theorem byteSize_eq_zero_iff {cs : List Char} : byteSize cs = 0 ↔ cs = [] := by
  cases cs with
  | nil => simp [byteSize]
  | cons c cs => simp [byteSize, c.utf8Size_pos.ne']

/-- An initial part has fewer bytes exactly if something is missing. -/
theorem byteSize_take_lt_iff {cs : List Char} {n : Nat} :
    byteSize (cs.take n) < byteSize cs ↔ cs.take n ≠ cs := by
  have hsize : byteSize cs = byteSize (cs.take n) + byteSize (cs.drop n) := by
    rw [← byteSize_append, List.take_append_drop]
  have hdrop : byteSize (cs.drop n) = 0 ↔ cs.take n = cs := by
    rw [byteSize_eq_zero_iff, List.drop_eq_nil_iff, List.take_eq_self_iff]
  rw [Ne, ← hdrop]
  omega

end TestConversion.Text

namespace TestConversion.Java

open Text Syntax

theorem unexpectedText_eq (text : List Char) :
    unexpectedText text =
      if text = [] then "unexpected input"
      else "unexpected \"" ++ String.ofList (text.take 40) ++
        (if text.take 40 = text then "" else "...") ++ "\"" := by
  cases text with
  | nil => rfl
  | cons c cs =>
    rw [unexpectedText, if_neg (List.cons_ne_nil c cs)]
    simp only [snippetLength, byteSize_take_lt_iff]
    by_cases hcut : (c :: cs).take 40 = c :: cs
    · rw [if_neg (by simp), if_neg (not_not_intro hcut), if_pos hcut, String.append_empty]
    · rw [if_neg (by simp), if_pos hcut, if_neg hcut, String.append_assoc, String.append_assoc,
        String.append_assoc]
      rfl

/-! ## Nodes in the order of the search -/

variable {source : List Char} {root t : Tree}

/-- What a node covers is a part of the text. -/
def Covers (source : List Char) (root : Tree) : Prop :=
  ∀ n ∈ root.preorder, (slice? source n.span.start n.span.stop).isSome = true

theorem Covers.of_child {c : Tree} (h : Covers source t) (hc : c ∈ t.children) : Covers source c :=
  fun n hn => h n (Tree.mem_preorder_trans (Tree.mem_preorder_of_child hc) hn)

theorem Covers.exists_text (h : Covers source root) (ht : t ∈ root.preorder) :
    ∃ before text behind, source = before ++ (text ++ behind) ∧
      t.span = ⟨byteSize before, byteSize before + byteSize text⟩ ∧ textOf source t = text := by
  obtain ⟨text, htext⟩ := Option.isSome_iff_exists.mp (h t ht)
  obtain ⟨before, behind, hsource, hstart, hstop⟩ := slice?_eq_some_iff.mp htext
  refine ⟨before, text, behind, hsource, ?_, by rw [textOf, htext]; rfl⟩
  rw [← hstop, ← hstart]

theorem Covers.start_le_stop (h : Covers source root) (ht : t ∈ root.preorder) :
    t.span.start ≤ t.span.stop := by
  obtain ⟨before, text, behind, -, hspan, -⟩ := h.exists_text ht
  rw [hspan]
  exact Nat.le_add_right _ _

/-- A node starts at its own start or later, and stops at its own stop or before. -/
theorem Placed.within {n : Tree} (h : Placed t) (hn : n ∈ t.preorder) :
    t.span.start ≤ n.span.start ∧ n.span.stop ≤ t.span.stop := by
  induction t using Tree.induction with
  | node t ih =>
    rcases Tree.mem_preorder_iff.mp hn with rfl | ⟨c, hc, hn⟩
    · exact ⟨Nat.le_refl _, Nat.le_refl _⟩
    · obtain ⟨hstart, hstop⟩ := (h _ (Tree.mem_preorder_self _)).within c hc
      obtain ⟨hstart', hstop'⟩ := ih c hc (h.of_child hc) hn
      exact ⟨hstart.trans hstart', hstop'.trans hstop⟩

/-- The nodes of a tree start in the order in which they are looked at. -/
theorem Placed.sorted_preorder (h : Placed t) (hcovers : Covers source t) :
    t.preorder.Pairwise fun m n => m.span.start ≤ n.span.start := by
  induction t using Tree.induction with
  | node t ih =>
    rw [Tree.preorder_eq, List.pairwise_cons]
    refine ⟨fun n hn => (h.within (Tree.preorder_eq _ ▸ List.mem_cons_of_mem _ hn)).1, ?_⟩
    have happart := (h _ (Tree.mem_preorder_self _)).apart
    rw [Tree.preorderList_eq_flatMap, List.pairwise_flatMap]
    refine ⟨fun c hc => ih c hc (h.of_child hc) (hcovers.of_child hc), ?_⟩
    refine happart.imp_of_mem fun {c d} hc hd hcd m hm n hn => ?_
    have hstop := ((h.of_child hc).within hm).2
    have hstart := ((h.of_child hd).within hn).1
    have hm := (hcovers.of_child hc).start_le_stop hm
    omega

theorem IsPlaced.sorted_children (h : IsPlaced t) (hcovers : Covers source t) :
    t.children.Pairwise fun c d => c.span.start ≤ d.span.start :=
  h.apart.imp_of_mem fun hc _ hcd =>
    (hcovers.start_le_stop (Tree.mem_preorder_of_child hc)).trans hcd

/-- What is found first among nodes in order has the smallest start. -/
theorem start_le_of_find? {ts : List Tree} {p : Tree → Bool}
    (hsorted : ts.Pairwise fun m n => m.span.start ≤ n.span.start) (hfind : ts.find? p = some t) :
    ∀ n ∈ ts, p n = true → t.span.start ≤ n.span.start := by
  obtain ⟨-, front, back, rfl, hfront⟩ := List.find?_eq_some_iff_append.mp hfind
  intro n hn hp
  rcases List.mem_append.mp hn with hn | hn
  · have := hfront n hn
    simp [hp] at this
  · rcases List.mem_cons.mp hn with rfl | hn
    · exact Nat.le_refl _
    · exact List.rel_of_pairwise_cons (List.pairwise_append.mp hsorted).2.1 hn

/-! ## Constructs that Java does not have -/

/-- A child of the root that is neither a declaration nor `;`. -/
def IsMisplaced (root t : Tree) : Prop :=
  t ∈ root.children ∧
    ¬ (t.named = true ∧ t.kind ∈ topLevelKinds ∨ t.named = false ∧ t.kind = ";")

/-- A reserved word as a name. -/
def IsMisnamed (source : List Char) (root t : Tree) : Prop :=
  t ∈ root.preorder ∧ (t.kind = "identifier" ∨ t.kind = "type_identifier") ∧
    String.ofList (textOf source t) ∈ reservedWords

def IsForbidden (source : List Char) (root t : Tree) : Prop :=
  IsMisplaced root t ∨ IsMisnamed source root t

theorem isMisplaced_iff : IsMisplaced root t ↔ t ∈ root.children ∧ allowedAtTop t = false := by
  rw [IsMisplaced, allowedAtTop]
  cases t.named <;> simp

theorem isMisnamed_iff :
    IsMisnamed source root t ↔ t ∈ root.preorder ∧ isReservedName source t = true := by
  simp [IsMisnamed, isReservedName]

theorem IsForbidden.mem (h : IsForbidden source root t) : t ∈ root.preorder := by
  rcases h with h | h
  · exact Tree.mem_preorder_of_child h.1
  · exact h.1

/-- The first misplaced construct, or else the first reserved word. -/
def IsFirstOfKind (source : List Char) (root t : Tree) : Prop :=
  (IsMisplaced root t ∧ ∀ n, IsMisplaced root n → t.span.start ≤ n.span.start) ∨
    (∀ n, ¬ IsMisplaced root n) ∧ IsMisnamed source root t ∧
      ∀ n, IsMisnamed source root n → t.span.start ≤ n.span.start

theorem IsFirstOfKind.isForbidden (h : IsFirstOfKind source root t) : IsForbidden source root t := by
  rcases h with ⟨h, -⟩ | ⟨-, h, -⟩
  · exact .inl h
  · exact .inr h

theorem isFirstOfKind_of_firstForbidden (hplaced : Placed root) (hcovers : Covers source root)
    (hfirst : firstForbidden source root = some t) : IsFirstOfKind source root t := by
  rw [firstForbidden, firstReservedName_eq] at hfirst
  cases htop : root.children.find? fun c => !allowedAtTop c with
  | some c =>
    rw [htop] at hfirst
    cases hfirst
    have hsorted := (hplaced root root.mem_preorder_self).sorted_children hcovers
    refine .inl ⟨isMisplaced_iff.mpr ⟨List.mem_of_find?_eq_some htop, ?_⟩, fun n hn => ?_⟩
    · simpa using List.find?_some htop
    · obtain ⟨hn, hp⟩ := isMisplaced_iff.mp hn
      exact start_le_of_find? hsorted htop n hn (by simp [hp])
  | none =>
    rw [htop] at hfirst
    have hsorted := hplaced.sorted_preorder hcovers
    refine .inr ⟨fun n hn => ?_, isMisnamed_iff.mpr ⟨List.mem_of_find?_eq_some hfirst,
      List.find?_some hfirst⟩, fun n hn => ?_⟩
    · obtain ⟨hn, hp⟩ := isMisplaced_iff.mp hn
      have := List.find?_eq_none.mp htop n hn
      simp [hp] at this
    · obtain ⟨hn, hp⟩ := isMisnamed_iff.mp hn
      exact start_le_of_find? hsorted hfirst n hn hp

theorem exists_firstForbidden {n : Tree} (h : IsForbidden source root n) :
    ∃ t, firstForbidden source root = some t := by
  rw [← Option.isSome_iff_exists, Option.isSome_iff_ne_none, Ne, firstForbidden_eq_none_iff]
  rintro ⟨htop, hnames⟩
  rcases h with h | h
  · obtain ⟨hn, hp⟩ := isMisplaced_iff.mp h
    rw [htop n hn] at hp
    cases hp
  · obtain ⟨hn, hp⟩ := isMisnamed_iff.mp h
    rw [hnames n hn] at hp
    cases hp

/-- A reserved word stands in front of everything misplaced, and there is something misplaced. -/
def MisnamedFirst (source : List Char) (root : Tree) : Prop :=
  (∃ m, IsMisplaced root m) ∧
    ∃ n, IsMisnamed source root n ∧ ∀ m, IsMisplaced root m → n.span.start < m.span.start

theorem IsFirstOfKind.first_iff (h : IsFirstOfKind source root t) :
    (∀ n, IsForbidden source root n → t.span.start ≤ n.span.start) ↔
      ¬ MisnamedFirst source root := by
  rcases h with ⟨ht, hmin⟩ | ⟨hnone, -, hmin⟩
  · constructor
    · rintro hfirst ⟨-, n, hn, hbefore⟩
      have := hfirst n (.inr hn)
      have := hbefore t ht
      omega
    · rintro hmisnamed n (hn | hn)
      · exact hmin n hn
      · by_contra hlt
        refine hmisnamed ⟨⟨t, ht⟩, n, hn, fun m hm => ?_⟩
        have := hmin m hm
        omega
  · constructor
    · rintro - ⟨⟨m, hm⟩, -⟩
      exact hnone m hm
    · rintro - n (hn | hn)
      · exact absurd hn (hnone n)
      · exact hmin n hn

/-- For every tree without errors that has something forbidden in it, the message names the first
construct of its kind, which is the first one of both kinds unless a reserved word stands in front
of everything misplaced. It says the line and, in bytes, the column where the construct starts, and
shows its text with blanks collapsed, cut if it does not fit. -/
theorem first_forbidden_named (hfaultless : root.hasError = false) (hplaced : Placed root)
    (hcovers : Covers source root) (hsome : ∃ n, IsForbidden source root n) :
    ∃ t before text behind,
      source = before ++ (text ++ behind) ∧
      t.span = ⟨byteSize before, byteSize before + byteSize text⟩ ∧
      IsFirstOfKind source root t ∧
      ((∀ n, IsForbidden source root n → t.span.start ≤ n.span.start) ↔
        ¬ MisnamedFirst source root) ∧
      ∃ shown, shown = (collapse (String.ofList text)).toList ∧
        (problemOf source root).map Problem.message = some
          ((if shown = [] then "unexpected input"
            else "unexpected \"" ++ String.ofList (shown.take 40) ++
              (if shown.take 40 = shown then "" else "...") ++ "\"") ++
            " at line " ++ toString (1 + before.count '\n') ++
            ", column " ++ toString (1 + byteSize (before.rtakeWhile (· ≠ '\n')))) := by
  obtain ⟨n, hn⟩ := hsome
  obtain ⟨t, ht⟩ := exists_firstForbidden hn
  have hfirst := isFirstOfKind_of_firstForbidden hplaced hcovers ht
  obtain ⟨before, text, behind, hsource, hspan, htext⟩ :=
    hcovers.exists_text hfirst.isForbidden.mem
  have hplace : placeOfNode source t =
      ⟨1 + before.count '\n', 1 + byteSize (before.rtakeWhile (· ≠ '\n'))⟩ := by
    rw [placeOfNode, hspan, hsource, placeOf_append]
  refine ⟨t, before, text, behind, hsource, hspan, hfirst, hfirst.first_iff, _, rfl, ?_⟩
  rw [problemOf_of_faultless hfaultless, ht, Option.map_some, Option.map_some, hplace, shownText,
    htext, Problem.message, atPlace, unexpectedText_eq]

def misplacedSource : List Char := "import class;\nf();".toList

/-- The name in the import. -/
def misnamedNode : Tree := .node ⟨"identifier", true, false, false, none, ⟨7, 12⟩⟩ []

/-- An import of a reserved word, and a statement that stands at the top level. -/
def misplacedTree : Tree :=
  branchAt "program" none 0 18 [
    branchAt "import_declaration" none 0 13 [textAt "import" 0, misnamedNode, textAt ";" 12],
    branchAt "expression_statement" none 14 18 [
      branchAt "method_invocation" none 14 17 [
        nameAt (some "name") 14,
        branchAt "argument_list" (some "arguments") 15 17 [textAt "(" 15, textAt ")" 16]],
      textAt ";" 17]]

theorem valid_misplacedTree : grammar.Valid misplacedTree :=
  Grammar.valid_of_recognises 8 (by decide +kernel)

theorem placed_misplacedTree : Placed misplacedTree := by
  have hall : ∀ n ∈ misplacedTree.preorder,
      (∀ c ∈ n.children, n.span.start ≤ c.span.start ∧ c.span.stop ≤ n.span.stop) ∧
        n.children.Pairwise fun c d => c.span.stop ≤ d.span.start := by decide +kernel
  exact fun n hn => ⟨(hall n hn).1, (hall n hn).2⟩

theorem covers_misplacedTree : Covers misplacedSource misplacedTree := by
  rw [Covers]
  decide +kernel

theorem isMisnamed_misnamedNode : IsMisnamed misplacedSource misplacedTree misnamedNode := by
  have himport : misnamedNode ∈ (branchAt "import_declaration" none 0 13
      [textAt "import" 0, misnamedNode, textAt ";" 12]).children := by simp [branchAt, Tree.children]
  exact isMisnamed_iff.mpr ⟨Tree.mem_preorder_trans
    (Tree.mem_preorder_of_child List.mem_cons_self) (Tree.mem_preorder_of_child himport),
    by decide +kernel⟩

theorem first_forbidden_named_import :
    misplacedTree.hasError = false ∧ ∃ t before text behind,
      misplacedSource = before ++ (text ++ behind) ∧
      t.span = ⟨byteSize before, byteSize before + byteSize text⟩ ∧
      IsFirstOfKind misplacedSource misplacedTree t ∧
      ((∀ n, IsForbidden misplacedSource misplacedTree n → t.span.start ≤ n.span.start) ↔
        ¬ MisnamedFirst misplacedSource misplacedTree) ∧
      ∃ shown, shown = (collapse (String.ofList text)).toList ∧
        (problemOf misplacedSource misplacedTree).map Problem.message = some
          ((if shown = [] then "unexpected input"
            else "unexpected \"" ++ String.ofList (shown.take 40) ++
              (if shown.take 40 = shown then "" else "...") ++ "\"") ++
            " at line " ++ toString (1 + before.count '\n') ++
            ", column " ++ toString (1 + byteSize (before.rtakeWhile (· ≠ '\n')))) :=
  have hfaultless : misplacedTree.hasError = false := by decide +kernel
  ⟨hfaultless, first_forbidden_named hfaultless placed_misplacedTree covers_misplacedTree
    ⟨misnamedNode, .inr isMisnamed_misnamedNode⟩⟩

/-- The message names the statement in the second line, not the name in the first one. -/
theorem misnamed_before_misplaced :
    grammar.Valid misplacedTree ∧ misplacedTree.hasError = false ∧
      IsForbidden misplacedSource misplacedTree misnamedNode ∧
      placeOfNode misplacedSource misnamedNode = ⟨1, 8⟩ ∧
      (∃ t, firstForbidden misplacedSource misplacedTree = some t ∧
        misnamedNode.span.start < t.span.start) ∧
      (problemOf misplacedSource misplacedTree).map Problem.message =
        some "unexpected \"f();\" at line 2, column 1" := by
  refine ⟨valid_misplacedTree, by decide +kernel, .inr isMisnamed_misnamedNode, by decide +kernel,
    ?_, by decide +kernel⟩
  have hlater : ∀ t ∈ firstForbidden misplacedSource misplacedTree,
      misnamedNode.span.start < t.span.start := by decide +kernel
  obtain ⟨t, ht⟩ := exists_firstForbidden (.inr isMisnamed_misnamedNode)
  exact ⟨t, ht, hlater t ht⟩

end TestConversion.Java
