import TestConversion.Proofs.Java.SourceTexts

/-!
# How trees are spelled

The texts that a tree is spelled as, in terms of those of its children: literals and names keep
their text, a sequence has the texts of its members, an operation is put together from its operands
around the operator, a path is its names with dots between them, and anything else is its text with
blanks collapsed.

* `spellingsOf_lower`: one equation for all kinds.
-/

namespace TestConversion.Java

open Text Syntax Code

variable {source : List Char} {t : Tree}

/-- The texts that the nodes of a form are spelled as. -/
def spellingsOf (c : Child) : List String := (nodesOf c).map Node.spelling

/-- What a child adds to the spelling of an operation. -/
def pieceOf (source : List Char) (c : Tree) : String :=
  if c.named then String.join (spellingsOf (lower source c)) else " " ++ nodeText source c ++ " "

/-- What is not a path and has no form of its own in code keeps its text, blanks collapsed. -/
def textSpelling (source : List Char) (t : Tree) : String :=
  ((reference? (lower source t)).map dotted).getD (collapse (nodeText source t))

theorem BinaryShape.spellingsOf_lower {left operator right : Tree}
    (s : BinaryShape t left operator right) (hn : t.named = true)
    (hk : t.kind = "binary_expression") (source : List Char) :
    spellingsOf (lower source t) = [String.join ((keptChildren t).map (pieceOf source))] := by
  obtain ⟨l, r, hl, hr, hbinary⟩ := s.binary?_eq source
  have hform : ownForm? source t = some (.binary l (nodeText source operator) r) := by
    rw [← hbinary, ownForm?, hk]
    rfl
  rw [lower_of_ownForm? hn hform, s.kept]
  simp [spellingsOf, nodesOf, pieceOf, Node.spelling_binary, s.left_expression.named,
    s.right_expression.named, s.operator_named, hl, hr, String.append_assoc]

/-- A construct that is no operation. -/
theorem spellingsOf_other (source : List Char) (hn : t.named = true)
    (hl : literalKinds.contains t.kind = false) (hk : nameKinds.contains t.kind = false)
    (hs : sequenceKinds.contains t.kind = false) (hb : t.kind ≠ "binary_expression") :
    spellingsOf (lower source t) = [textSpelling source t] := by
  have hlower := lower_of_other source hn hl hk hs
  cases hform : ownForm? source t with
  | none =>
    rw [hform, Option.getD_none] at hlower
    rw [textSpelling, hlower, generalForm, spellingsOf, nodesOf, List.map_singleton,
      Node.spelling_other]
    rfl
  | some n =>
    rw [hform, Option.getD_some] at hlower
    rw [textSpelling, hlower, spellingsOf, nodesOf, List.map_singleton]
    rcases ownForm?_cases hform with ⟨-, q, m, rfl⟩ | ⟨hkind, -⟩ | ⟨hkind, -⟩
    · exact congrArg (fun text => [text]) (spelling_dotted (q, m))
    · exact absurd hkind hb
    · have hcall : invocation? source t ((keptChildren t).map (lowered source)) = some n := by
        simpa [ownForm?, hkind] using hform
      obtain ⟨i, rfl, hi⟩ := text_of_invocation? hcall
      rw [Node.spelling_invocation, hi]
      rfl

/-- The texts that a tree is spelled as. -/
theorem spellingsOf_lower (h : grammar.Licenses t) (source : List Char) :
    spellingsOf (lower source t) =
      if !t.named then []
      else if literalKinds.contains t.kind || nameKinds.contains t.kind then [nodeText source t]
      else if sequenceKinds.contains t.kind then
        (keptChildren t).flatMap fun c => spellingsOf (lower source c)
      else if t.kind == "binary_expression" then
        [String.join ((keptChildren t).map (pieceOf source))]
      else [textSpelling source t] := by
  cases hn : t.named with
  | false =>
    rw [lower_of_not_named source hn]
    rfl
  | true =>
    cases hl : literalKinds.contains t.kind with
    | true =>
      rw [lower_of_literal source hn hl]
      simp [spellingsOf, nodesOf, Node.spelling_literal]
    | false =>
      cases hk : nameKinds.contains t.kind with
      | true =>
        rw [lower_of_name source hn hl hk]
        simp [spellingsOf, nodesOf, Node.name, Node.spelling_reference]
      | false =>
        cases hs : sequenceKinds.contains t.kind with
        | true =>
          rw [lower_of_sequence source hn hl hk hs]
          simp [spellingsOf, nodesOf, List.map_flatMap]
        | false =>
          by_cases hb : t.kind = "binary_expression"
          · obtain ⟨-, left, operator, right, s⟩ := exists_binaryShape h hb
            rw [s.spellingsOf_lower hn hb, hb]
            rfl
          · rw [spellingsOf_other source hn hl hk hs hb, beq_eq_false_iff_ne.mpr hb]
            rfl

end TestConversion.Java
