import TestConversion.Code.Spelling
import Mathlib.Data.List.Basic

/-!
# Spelling by recursion

The pieces that are still to be spelled need no list: an operation is spelled as its operands are,
with the operator between them.

* `Node.spelling_binary`: the spelling of an operation in terms of those of its operands.
* `Node.spelling_reference`, `Node.spelling_invocation`, `Node.spelling_other`: the other forms.
-/

namespace TestConversion.Code

/-- The texts that an expression is spelled with. -/
def Node.texts : Node → List String
  | .literal t => [t]
  | .reference (some q) m => [q ++ "." ++ m]
  | .reference none m => [m]
  | .binary l o r => l.texts ++ (" " ++ o ++ " ") :: r.texts
  | .invocation i => [i.text.render]
  | .other _ t _ => [t.render]

def Piece.texts : Piece → List String
  | .node n => n.texts
  | .operator o => [" " ++ o ++ " "]

theorem spellFrom_eq (done : List String) (ps : List Piece) :
    spellFrom done ps = done.reverse ++ ps.flatMap Piece.texts := by
  fun_induction spellFrom done ps with
  | case1 done => simp
  | case2 done o ps ih => rw [ih, List.flatMap_cons, Piece.texts]; simp
  | case3 done l o r ps ih =>
    rw [ih]
    simp [Piece.texts, Node.texts]
  | case4 done t ps ih => rw [ih, List.flatMap_cons, Piece.texts, Node.texts]; simp
  | case5 done q m ps ih =>
    rw [ih]
    cases q <;> simp [Piece.texts, Node.texts]
  | case6 done i ps ih => rw [ih, List.flatMap_cons, Piece.texts, Node.texts]; simp
  | case7 done k t cs ps ih => rw [ih, List.flatMap_cons, Piece.texts, Node.texts]; simp

theorem Node.spelling_eq_join (n : Node) : n.spelling = String.join n.texts := by
  rw [Node.spelling, spellFrom_eq]
  simp [Piece.texts]

theorem Node.spelling_literal (t : String) : (Node.literal t).spelling = t := by
  simp [spelling_eq_join, texts]

theorem Node.spelling_reference (q : Option String) (m : String) :
    (Node.reference q m).spelling = (q.map (· ++ ".")).getD "" ++ m := by
  cases q <;> simp [spelling_eq_join, texts]

theorem Node.spelling_binary (l : Node) (o : String) (r : Node) :
    (Node.binary l o r).spelling = l.spelling ++ (" " ++ o ++ " ") ++ r.spelling := by
  simp [spelling_eq_join, texts, String.append_assoc]

theorem Node.spelling_invocation (i : Invocation) :
    (Node.invocation i).spelling = i.text.render := by
  simp [spelling_eq_join, texts]

theorem Node.spelling_other (kind : String) (t : Text.SourceText) (cs : List Child) :
    (Node.other kind t cs).spelling = t.render := by
  simp [spelling_eq_join, texts]

end TestConversion.Code
