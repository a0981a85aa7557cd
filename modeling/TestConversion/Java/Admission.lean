import TestConversion.Java.Problem
import TestConversion.Syntax.Cursor

/-!
# Admission of syntax trees

A tree is admitted if it has no error and no missing token, if only declarations and `;` stand at
its top level, and if no identifier is a reserved word. One search keeps a list of the nodes still
to be looked at and the other one moves a cursor, so that nesting needs no nested calls.
-/

namespace TestConversion.Java

open Text Syntax

/-- Kinds that may stand at the top level. -/
def topLevelKinds : List String := [
  "package_declaration", "import_declaration", "class_declaration", "interface_declaration",
  "enum_declaration", "record_declaration", "annotation_type_declaration", "module_declaration",
  "line_comment", "block_comment"]

/-- Words that never name anything. -/
def reservedWords : List String := [
  "abstract", "assert", "boolean", "break", "byte", "case", "catch", "char", "class", "const",
  "continue", "default", "do", "double", "else", "enum", "extends", "final", "finally", "float",
  "for", "goto", "if", "implements", "import", "instanceof", "int", "interface", "long",
  "native", "new", "package", "private", "protected", "public", "return", "short", "static",
  "strictfp", "super", "switch", "synchronized", "this", "throw", "throws", "transient", "try",
  "void", "volatile", "while", "true", "false", "null"]

/-- The characters that a node covers. -/
def textOf (source : List Char) (t : Tree) : List Char :=
  (slice? source t.span.start t.span.stop).getD []

/-- The text of a node as a message shows it. -/
def shownText (source : List Char) (t : Tree) : List Char :=
  (collapse (String.ofList (textOf source t))).toList

def placeOfNode (source : List Char) (t : Tree) : Place := placeOf source t.span.start

/-! ## Walking trees -/

mutual

def treeSize : Tree → Nat
  | .node _ cs => 1 + forestSize cs

def forestSize : List Tree → Nat
  | [] => 0
  | t :: ts => treeSize t + forestSize ts

end

theorem forestSize_append (a b : List Tree) : forestSize (a ++ b) = forestSize a + forestSize b := by
  induction a with
  | nil => simp [forestSize]
  | cons t a ih => simp [forestSize, ih]; omega

theorem treeSize_eq (t : Tree) : treeSize t = 1 + forestSize t.children := by
  cases t; rfl

/-- The first error or missing node, skipping trees without any. -/
def firstFault : List Tree → Option Tree
  | [] => none
  | t :: ts =>
    if t.missing || t.isError then some t
    else if t.hasError then firstFault (t.children ++ ts)
    else firstFault ts
termination_by ts => forestSize ts
decreasing_by
  all_goals simp only [forestSize, forestSize_append, treeSize_eq]
  all_goals omega

/-- An identifier that reads as a reserved word. -/
def isReservedName (source : List Char) (t : Tree) : Bool :=
  (t.kind == "identifier" || t.kind == "type_identifier") &&
    reservedWords.contains (String.ofList (textOf source t))

/-- The first identifier that is a reserved word. -/
def firstReservedName (source : List Char) (root : Tree) : Option Tree :=
  (Cursor.start root).search (isReservedName source)

/-- May stand at the top level. -/
def allowedAtTop (t : Tree) : Bool :=
  if t.named then topLevelKinds.contains t.kind else t.kind == ";"

/-- The first construct of a tree without errors that Java does not allow: one that may not stand at
the top level, else a reserved word used as a name. -/
def firstForbidden (source : List Char) (root : Tree) : Option Tree :=
  (root.children.find? fun t => !allowedAtTop t) <|> firstReservedName source root

/-- What an error or missing node says about the text. -/
def faultAt (source : List Char) (t : Tree) : Problem :=
  if t.missing then .missing t.kind (placeOfNode source t)
  else .misfit (shownText source t) (placeOfNode source t)

/-- Why a tree is not admitted. -/
def problemOf (source : List Char) (root : Tree) : Option Problem :=
  if root.hasError then
    match firstFault [root] with
    | some t => some (faultAt source t)
    | none => some .unplaced
  else
    (firstForbidden source root).map fun t =>
      .forbidden (shownText source t) (placeOfNode source t)

end TestConversion.Java
