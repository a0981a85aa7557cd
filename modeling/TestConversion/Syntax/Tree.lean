/-!
# Concrete syntax trees

What a reader makes of a text: each node has a kind, the field it fills in its parent, and the
bytes it covers. Places where the text is not in the language are nodes too, `ERROR` nodes and
missing tokens.
-/

namespace TestConversion.Syntax

/-- Byte offsets of a part of a text, the second one behind it. -/
structure Span where
  start : Nat
  stop : Nat
  deriving DecidableEq, Inhabited

/-- What a node is, apart from its children. -/
structure Label where
  kind : String
  /-- A node of a rule or a named lexeme; other tokens are anonymous. -/
  named : Bool
  /-- A comment or another node that may stand anywhere. -/
  extra : Bool
  /-- A token that the text lacks. -/
  missing : Bool
  field : Option String
  span : Span
  deriving DecidableEq, Inhabited

inductive Tree where
  | node (label : Label) (children : List Tree)
  deriving Inhabited

namespace Tree

def label : Tree → Label
  | node l _ => l

def children : Tree → List Tree
  | node _ cs => cs

def kind (t : Tree) : String := t.label.kind

def named (t : Tree) : Bool := t.label.named

def extra (t : Tree) : Bool := t.label.extra

def missing (t : Tree) : Bool := t.label.missing

def field (t : Tree) : Option String := t.label.field

def span (t : Tree) : Span := t.label.span

/-- A place where the text left the language. -/
def isError (t : Tree) : Bool := t.kind == "ERROR"

mutual

/-- All nodes, each before its children and these from left to right. -/
def preorder : Tree → List Tree
  | node l cs => node l cs :: preorderList cs

def preorderList : List Tree → List Tree
  | [] => []
  | t :: ts => t.preorder ++ preorderList ts

end

/-- Some node is an error or missing. -/
def hasError (t : Tree) : Bool := t.preorder.any fun n => n.isError || n.missing

/-- The first child that fills a field. -/
def childIn (t : Tree) (field : String) : Option Tree :=
  t.children.find? fun c => c.field == some field

def namedChildren (t : Tree) : List Tree := t.children.filter (·.named)

end Tree

end TestConversion.Syntax
