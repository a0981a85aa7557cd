import TestConversion.Syntax.Item

/-!
# Clashing lexemes

A longer lexeme gets in the way of a shorter one if its text begins with one of the shorter, goes on
with a character that may also begin what comes after the shorter one, and so swallows it. Two such
lexemes are not tried at the same place unless the language has both there.
-/

namespace TestConversion.Syntax

/-- Whether a lexeme can begin with a character. -/
def Lexeme.beginsWith (l : Lexeme) (c : Char) : Bool := l.pattern.deriv c != .never

/-- Along a text, whether `long` can go on with one of some characters where `short` is complete and
cannot. -/
def outruns (starts : List Char) (long short : Pattern) : List Char → Bool
  | [] => stops long short
  | c :: cs =>
    stops long short ||
      match long.deriv c, short.deriv c with
      | .never, _ => false
      | _, .never => false
      | l, s => outruns starts l s cs
where
  /-- At this very place. -/
  stops (long short : Pattern) : Bool :=
    short.nullable && starts.any fun c => long.deriv c != .never && short.deriv c == .never

/-- Whether `long` can swallow a `short` after which some characters may come. One of the two has a
fixed text. -/
def Lexeme.swallows (starts : List Char) (long short : Lexeme) : Bool :=
  match long.text?, short.text? with
  | some text, _ | none, some text => outruns starts long.pattern short.pattern text
  | none, none => false

/-- The lexemes that clash with others, each with those others. -/
def Productions.clashes (g : Productions) (following : Array Bits) : Array (Nat × Bits) :=
  let characters := (g.lexemes.toList.flatMap fun l => l.text?.getD []).eraseDups
  let shorter : Array (Lexeme × Nat × List Char) := g.lexemes.zipIdx.map fun (short, j) =>
    let after := (g.lexemes.zipIdx.filter fun x => Bits.has (following[j]?.getD 0) x.2).map (·.1)
    (short, j, characters.filter fun c => after.any (·.beginsWith c))
  g.lexemes.zipIdx.filterMap fun (long, i) =>
    let swallowed := shorter.foldl
      (fun (b : Bits) (short, j, starts) =>
        if i != j && long.swallows starts short then b ||| Bits.single j else b)
      0
    if swallowed == 0 then none else some (i, swallowed)

end TestConversion.Syntax
