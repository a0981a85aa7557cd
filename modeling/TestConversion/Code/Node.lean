import TestConversion.Text.SourceText

/-!
# Code

Statements and expressions in the form that calls are found in: literals, references by name, binary
operations, invocations with the calls chained onto them, and everything else as a node of some
kind with its children. `size` counts nodes and bounds every walk over code.
-/

namespace TestConversion.Code

open Text (SourceText)

mutual

inductive Node where
  /-- A literal as it is written. -/
  | literal (text : String)
  /-- A name, or a dotted path and the name at its end. -/
  | reference (qualifier : Option String) (member : String)
  | binary (left : Node) (operator : String) (right : Node)
  | invocation (call : Invocation)
  /-- Any other construct, with the kind it has in the syntax. -/
  | other (kind : String) (text : SourceText) (children : List Child)

inductive Child where
  | node (n : Node)
  | sequence (ns : List Node)
  /-- Punctuation, a keyword or an operator. -/
  | token (text : String)

/-- A call with the calls made on its result. `receiver` is the expression it is made on, if that is
not a dotted path. -/
inductive Invocation where
  | mk (member : String) (qualifier : Option String) (arguments : List Node)
      (selectors : List Invocation) (receiver : Option Node) (text : SourceText)

end

namespace Invocation

def member : Invocation → String
  | mk m _ _ _ _ _ => m

def qualifier : Invocation → Option String
  | mk _ q _ _ _ _ => q

def arguments : Invocation → List Node
  | mk _ _ as _ _ _ => as

def selectors : Invocation → List Invocation
  | mk _ _ _ ss _ _ => ss

def receiver : Invocation → Option Node
  | mk _ _ _ _ r _ => r

def text : Invocation → SourceText
  | mk _ _ _ _ _ t => t

/-- The call with one more call on its result, the whole reading `text`. -/
def chain (base : Invocation) (selector : Invocation) (text : SourceText) : Invocation :=
  mk base.member base.qualifier base.arguments (base.selectors ++ [selector]) base.receiver text

end Invocation

namespace Node

def name (member : String) : Node := reference none member

/-- Lambdas and class bodies are code of their own, wherever they stand. -/
def isCodeBlock : Node → Bool
  | other kind _ _ => kind == "lambda_expression" || kind == "class_body"
  | _ => false

/-- The children of a construct without a form of its own. -/
def children : Node → List Child
  | other _ _ cs => cs
  | _ => []

end Node

/-! ## Size -/

mutual

def Node.size : Node → Nat
  | .literal _ => 1
  | .reference _ _ => 1
  | .binary l _ r => 1 + l.size + r.size
  | .invocation i => 1 + i.size
  | .other _ _ cs => 1 + Child.sizeList cs

def Child.size : Child → Nat
  | .node n => 1 + n.size
  | .sequence ns => 1 + Node.sizeList ns
  | .token _ => 1

def Invocation.size : Invocation → Nat
  | .mk _ _ as ss r _ =>
    1 + Node.sizeList as + Invocation.sizeList ss + Node.sizeOption r

def Node.sizeList : List Node → Nat
  | [] => 0
  | n :: ns => n.size + Node.sizeList ns

def Child.sizeList : List Child → Nat
  | [] => 0
  | c :: cs => c.size + Child.sizeList cs

def Invocation.sizeList : List Invocation → Nat
  | [] => 0
  | i :: is => i.size + Invocation.sizeList is

def Node.sizeOption : Option Node → Nat
  | none => 0
  | some n => n.size

end

/-! ## Sameness -/

mutual

/-- Equal up to where source texts come from. -/
def Node.same : Node → Node → Bool
  | .literal s, .literal t => s == t
  | .reference q m, .reference p n => q == p && m == n
  | .binary l o r, .binary l' o' r' => l.same l' && o == o' && r.same r'
  | .invocation i, .invocation j => i.same j
  | .other k t cs, .other k' t' cs' => k == k' && t.same t' && Child.sameList cs cs'
  | _, _ => false

def Child.same : Child → Child → Bool
  | .node n, .node m => n.same m
  | .sequence ns, .sequence ms => Node.sameList ns ms
  | .token s, .token t => s == t
  | _, _ => false

def Invocation.same : Invocation → Invocation → Bool
  | .mk m q as ss r t, .mk m' q' as' ss' r' t' =>
    m == m' && q == q' && Node.sameList as as' && Invocation.sameList ss ss' &&
      Node.sameOption r r' && t.same t'

def Node.sameList : List Node → List Node → Bool
  | [], [] => true
  | n :: ns, m :: ms => n.same m && Node.sameList ns ms
  | _, _ => false

def Child.sameList : List Child → List Child → Bool
  | [], [] => true
  | c :: cs, d :: ds => c.same d && Child.sameList cs ds
  | _, _ => false

def Invocation.sameList : List Invocation → List Invocation → Bool
  | [], [] => true
  | i :: is, j :: js => i.same j && Invocation.sameList is js
  | _, _ => false

def Node.sameOption : Option Node → Option Node → Bool
  | none, none => true
  | some n, some m => n.same m
  | _, _ => false

end

end TestConversion.Code
