import TestConversion.Code.Node

/-!
# How an expression is spelled

Literals and references read as they are written, a binary operation as its operands around its
operator, and everything else as its source text with blanks collapsed. The operands are taken from
a list of pieces still to be spelled, so that long chains of operators need no nested calls.
-/

namespace TestConversion.Code

/-- What is still to be spelled. -/
inductive Piece where
  | node (n : Node)
  | operator (text : String)

def Piece.weight : Piece → Nat
  | .node n => 2 * n.size
  | .operator _ => 1

def Piece.weights : List Piece → Nat
  | [] => 0
  | p :: ps => p.weight + Piece.weights ps

/-- The texts of the pieces, in order, behind those of `done`, which are reversed. -/
def spellFrom (done : List String) : List Piece → List String
  | [] => done.reverse
  | .operator o :: ps => spellFrom ((" " ++ o ++ " ") :: done) ps
  | .node (.binary l o r) :: ps => spellFrom done (.node l :: .operator o :: .node r :: ps)
  | .node (.literal t) :: ps => spellFrom (t :: done) ps
  | .node (.reference q m) :: ps =>
    spellFrom ((match q with
      | some q => q ++ "." ++ m
      | none => m) :: done) ps
  | .node (.invocation i) :: ps => spellFrom (i.text.render :: done) ps
  | .node (.other _ t _) :: ps => spellFrom (t.render :: done) ps
termination_by ps => Piece.weights ps
decreasing_by
  all_goals simp only [Piece.weights, Piece.weight, Node.size]
  all_goals omega

/-- The text that an expression is shown as. -/
def Node.spelling (n : Node) : String := String.join (spellFrom [] [.node n])

end TestConversion.Code
