import TestConversion.Java.Grammar
import TestConversion.Java.Lowering
import TestConversion.Syntax.Repair

/-!
# Reading Java

A source text becomes a syntax tree, the tree is admitted or turned down, and an admitted tree
becomes a compilation unit.
-/

namespace TestConversion.Java

open Text Syntax Code

/-- The reader of Java texts. -/
def reader : Reader := grammar.reader

/-- The mark at the beginning of a text is passed over, but its bytes count. -/
def skipMark : List Char → Nat × List Char
  | c :: cs => if c == '\uFEFF' then (c.utf8Size, cs) else (0, c :: cs)
  | [] => (0, [])

/-- The tree of a complete reading: the nodes of the whole text with the comments around it. -/
def treeOf (readings : List Derivation) : Tree :=
  let g := reader.automaton.grammar
  let children := readings.flatMap fun d =>
    match d with
    | .branch head p _ cs =>
      if head == g.firstName then
        Derivation.stepNodes g grammar.isSilent none
          ((g.productions[p]?.map (·.steps.toList)).getD []) cs
      else d.nodes g grammar.isSilent none none
    | d => d.nodes g grammar.isSilent none none
  let span : Span :=
    ⟨(children.head?.map (·.span.start)).getD 0, (children.getLast?.map (·.span.stop)).getD 0⟩
  .node ⟨"program", true, false, false, none, span⟩ children

/-- A text that even repairs make no sense of. -/
def errorTree (source : List Char) : Tree :=
  .node ⟨"ERROR", true, false, false, none, ⟨0, byteSize source⟩⟩ []

/-- The syntax tree of a text; a text outside the language has errors or missing tokens in it. -/
def tree (source : List Char) : Tree :=
  let (offset, text) := skipMark source
  match reader.read "\x7d" offset text with
  | some readings => treeOf readings
  | none => errorTree source

/-- The declarations of a source text, whose syntax tree comes from `reading`. -/
def parseWith (reading : List Char → Tree) (source label : String) :
    Except SyntaxError CompilationUnit :=
  let cs := source.toList
  let root := reading cs
  match problemOf cs root with
  | some p => .error ⟨label, p⟩
  | none => .ok (unitOf cs root)

/-- The declarations of a source text. -/
def parse (source label : String) : Except SyntaxError CompilationUnit :=
  parseWith tree source label

end TestConversion.Java
