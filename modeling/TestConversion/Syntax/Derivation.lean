import TestConversion.Syntax.Token

/-!
# Derivations

What a reader builds: tokens, completed productions over them, and the tokens that were passed over
where the text left the language. A derivation becomes a syntax tree by dropping the silent rules
and handing their children, with kinds and fields, to the rule above.
-/

namespace TestConversion.Syntax

inductive Derivation where
  /-- A token; one that covers nothing is missing in the text. -/
  | token (lexeme : Nat) (span : Span) (extra : Bool)
  /-- A completed production; `weight` is that of all productions in it. -/
  | branch (head production : Nat) (weight : Int) (children : List Derivation)
  /-- Parts of the text that fit nowhere. -/
  | skipped (span : Span) (children : List Derivation)

namespace Derivation

def isExtra : Derivation → Bool
  | token _ _ extra => extra
  | skipped _ _ => true
  | _ => false

def weight : Derivation → Int
  | branch _ _ w _ => w
  | _ => 0

def symbol : Derivation → Nat
  | token l _ _ => l
  | branch h _ _ _ => h
  | skipped _ _ => 0

def size : Derivation → Nat
  | branch _ _ _ cs => cs.length
  | skipped _ cs => cs.length
  | _ => 0

/-- Where the first token starts and the last one ends. -/
def bounds : Derivation → Option Span
  | token _ s _ => some s
  | skipped s _ => some s
  | branch _ _ _ cs => boundsList cs
where
  boundsList : List Derivation → Option Span
    | [] => none
    | d :: ds =>
      match d.bounds, boundsList ds with
      | none, s => s
      | some a, none => some a
      | some a, some b => some ⟨a.start, b.stop⟩

mutual

/-- Order of two readings of the same text: by symbol, then by number of children, then by the first
children that differ. -/
def compare (a b : Derivation) : Ordering :=
  match a, b with
  | branch h _ _ cs, branch k _ _ ds =>
    (Ord.compare h k).then ((Ord.compare cs.length ds.length).then (compareList cs ds))
  | a, b => Ord.compare a.symbol b.symbol

def compareList : List Derivation → List Derivation → Ordering
  | a :: as, b :: bs => (compare a b).then (compareList as bs)
  | _, _ => .eq

end

/-- Of two readings of the same text the heavier one is better, then the first in order. -/
def better (new old : Derivation) : Bool :=
  old.weight < new.weight || (old.weight == new.weight && compare new old == .lt)

mutual

/-- The nodes of a derivation, `kind` and `field` being what the step above says about it. -/
def nodes (g : Productions) (silent : String → Bool) (kind field : Option String) :
    Derivation → List Tree
  | token l span extra =>
    let name := (g.lexemes[l]?.map (·.name)).getD ""
    let named := (g.lexemes[l]?.map (·.named)).getD false
    let missing := span.start == span.stop
    match kind with
    | some k => [.node ⟨k, true, extra, missing, field, span⟩ []]
    | none =>
      if named && silent name then [] else [.node ⟨name, named, extra, missing, field, span⟩ []]
  | skipped span cs =>
    [.node ⟨"ERROR", true, true, false, none, span⟩ (plainNodes g silent cs)]
  | branch head p w cs =>
    let name := (g.names[head - g.firstName]?).getD ""
    let steps := (g.productions[p]?.map (·.steps.toList)).getD []
    match kind, silent name with
    | none, true => stepNodes g silent field steps cs
    | kind, _ =>
      let span := ((branch head p w cs).bounds).getD ⟨0, 0⟩
      [.node ⟨kind.getD name, true, false, false, field, span⟩ (stepNodes g silent none steps cs)]

/-- The nodes of the children of a production. Each step gives the kind and the field of its child,
`field` being the field of the production where a step has none. -/
def stepNodes (g : Productions) (silent : String → Bool) (field : Option String) :
    List Step → List Derivation → List Tree
  | _, [] => []
  | steps, d :: ds =>
    if d.isExtra then d.nodes g silent none none ++ stepNodes g silent field steps ds
    else
      match steps with
      | [] => d.nodes g silent none field ++ stepNodes g silent field [] ds
      | s :: steps =>
        d.nodes g silent s.kind (s.field <|> field) ++ stepNodes g silent field steps ds

def plainNodes (g : Productions) (silent : String → Bool) : List Derivation → List Tree
  | [] => []
  | d :: ds => d.nodes g silent none none ++ plainNodes g silent ds

end

end Derivation

end TestConversion.Syntax
