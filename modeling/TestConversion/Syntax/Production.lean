import TestConversion.Syntax.Grammar

/-!
# Productions

The flat form of a grammar: every choice is spread over productions, repetitions become auxiliary
symbols, and each step of a production knows its field, its other kind and its binding level.
Symbols are numbers: the lexemes first, then the end of the text, then the names of the rules and
last the auxiliary symbols.
-/

namespace TestConversion.Syntax

structure Step where
  symbol : Nat
  binding : Option Int
  assoc : Option Assoc
  kind : Option String
  field : Option String
  deriving DecidableEq, Hashable

structure Production where
  head : Nat
  steps : Array Step
  weight : Int
  deriving DecidableEq

/-- The binding level of a production at the dot before step `dot`: that of the step just read. -/
def Production.bindingAt (p : Production) (dot : Nat) : Int :=
  if dot = 0 then 0 else ((p.steps[dot - 1]?.bind (·.binding)).getD 0)

def Production.assocAt (p : Production) (dot : Nat) : Option Assoc :=
  if dot = 0 then none else p.steps[dot - 1]?.bind (·.assoc)

/-- The larger amount by absolute value, the first one on a tie. -/
def heavier (a b : Int) : Int := if b.natAbs > a.natAbs then b else a

structure Productions where
  lexemes : Array Lexeme
  /-- Names of the symbols after the end of the text. -/
  names : Array String
  /-- First auxiliary symbol. -/
  auxiliary : Nat
  /-- Number of the name that stands for a whole text; its one production is the first rule. -/
  whole : Nat
  productions : Array Production
  /-- The productions of each symbol after the end of the text. -/
  ofName : Array (Array Nat)

namespace Productions

/-- The symbol of the end of the text. -/
def endSymbol (p : Productions) : Nat := p.lexemes.size

def firstName (p : Productions) : Nat := p.lexemes.size + 1

end Productions

/-! ## Repetitions -/

/-- The bodies of repetitions met so far, each with the number of its auxiliary symbol. -/
abbrev Repetitions := Array Rule

def auxiliaryName (i : Nat) : String := s!"_repetition{i}"

/-- Replaces each repetition by an auxiliary symbol; equal bodies share one. -/
def Rule.withoutRepetition (seen : Repetitions) : Rule → Rule × Repetitions
  | .blank => (.blank, seen)
  | .token t => (.token t, seen)
  | .sym n => (.sym n, seen)
  | .seq a b =>
    let (a, seen) := a.withoutRepetition seen
    let (b, seen) := b.withoutRepetition seen
    (.seq a b, seen)
  | .choice a b =>
    let (a, seen) := a.withoutRepetition seen
    let (b, seen) := b.withoutRepetition seen
    (.choice a b, seen)
  | .many1 r =>
    let (r, seen) := r.withoutRepetition seen
    match seen.idxOf? r with
    | some i => (.sym (auxiliaryName i), seen)
    | none => (.sym (auxiliaryName seen.size), seen.push r)
  | .field f r =>
    let (r, seen) := r.withoutRepetition seen
    (.field f r, seen)
  | .relabel k r =>
    let (r, seen) := r.withoutRepetition seen
    (.relabel k r, seen)
  | .level a b r =>
    let (r, seen) := r.withoutRepetition seen
    (.level a b r, seen)
  | .weight w r =>
    let (r, seen) := r.withoutRepetition seen
    (.weight w r, seen)

/-! ## Spreading choices -/

/-- What the rules around a step say about it. -/
structure StepContext where
  binding : Option Int
  assoc : Option Assoc
  kind : Option String
  field : Option String

def StepContext.top : StepContext := ⟨none, none, none, none⟩

def StepContext.step (c : StepContext) (symbol : Nat) : Step :=
  ⟨symbol, c.binding, c.assoc, c.kind, c.field⟩

/-- Puts the last step back to the levels outside of a rule that ends before its production does. -/
def relevel (c : StepContext) (steps : List Step) : List Step :=
  match steps.reverse with
  | [] => []
  | s :: rest => ({ s with binding := c.binding, assoc := c.assoc } :: rest).reverse

/-- All sequences of steps that a rule stands for, with their weights. `atEnd` says that the rule
ends its production. -/
def Rule.spread (number : Rule → Nat) (c : StepContext) (atEnd : Bool) :
    Rule → List (List Step × Int)
  | .blank => [([], 0)]
  | .token t => [([c.step (number (.token t))], 0)]
  | .sym n => [([c.step (number (.sym n))], 0)]
  | .seq a b =>
    (a.spread number c false).flatMap fun x =>
      (b.spread number c atEnd).map fun y => (x.1 ++ y.1, heavier x.2 y.2)
  | .choice a b => a.spread number c atEnd ++ b.spread number c atEnd
  | .many1 r => r.spread number c atEnd
  | .field f r => r.spread number { c with field := some f } atEnd
  | .relabel k r => r.spread number { c with kind := some k } atEnd
  | .level a b r =>
    let inner := { c with binding := some b, assoc := a <|> c.assoc }
    (r.spread number inner atEnd).map fun x => (if atEnd then x.1 else relevel c x.1, x.2)
  | .weight w r => (r.spread number c atEnd).map fun x => (x.1, heavier w x.2)

/-! ## Inlining -/

/-- The steps of an inlined production take over what the step they replace says. -/
def inlineStep (outer : Step) (inner : List Step) : List Step :=
  let named := inner.map fun s =>
    { s with kind := outer.kind <|> s.kind, field := outer.field <|> s.field }
  match named.reverse with
  | [] => []
  | s :: rest =>
    ({ s with binding := s.binding <|> outer.binding, assoc := s.assoc <|> outer.assoc } ::
      rest).reverse

/-- Replaces inlined symbols by the right sides of their productions, `depth` levels down. -/
def inlineSteps (bodies : Nat → Option (List (List Step × Int))) :
    Nat → List Step → List (List Step × Int)
  | _, [] => [([], 0)]
  | 0, steps => [(steps, 0)]
  | depth + 1, s :: rest =>
    let heads : List (List Step × Int) :=
      match bodies s.symbol with
      | none => [([s], 0)]
      | some alternatives =>
        alternatives.flatMap fun a =>
          (inlineSteps bodies depth a.1).map fun b => (inlineStep s b.1, heavier a.2 b.2)
    heads.flatMap fun h =>
      (inlineSteps bodies (depth + 1) rest).map fun t => (h.1 ++ t.1, heavier h.2 t.2)
termination_by depth steps => (depth, steps.length)

/-! ## The flat form of a grammar -/

/-- How deep inlined rules may stand inside each other. -/
def inlineDepth : Nat := 8

def Grammar.productions (g : Grammar) : Productions := Id.run do
  let lexemes := g.allLexemes.toArray
  let mut rules : Array (String × Rule) := #[]
  let mut seen : Repetitions := #[]
  for (name, rule) in g.rules do
    let (rule, met) := rule.withoutRepetition seen
    seen := met
    rules := rules.push (name, rule)
  let plain := rules.size
  for i in [0:seen.size] do
    let body := seen[i]?.getD .blank
    let self := Rule.sym (auxiliaryName i)
    rules := rules.push (auxiliaryName i, .choice (.seq self self) body)
  let names := rules.map (·.1)
  let first := lexemes.size + 1
  let number := fun (r : Rule) =>
    match r with
    | .token t => (lexemes.findIdx? fun l => !l.named && l.name == t).getD 0
    | .sym n =>
      match lexemes.findIdx? fun l => l.named && l.name == n with
      | some i => i
      | none => first + (names.idxOf? n).getD 0
    | _ => 0
  let spreads := rules.map fun r => (r.2.spread number .top true).eraseDups
  let bodies := fun (symbol : Nat) =>
    if symbol < first then none
    else if g.inlined.contains (names[symbol - first]?.getD "") then spreads[symbol - first]?
    else none
  let mut productions : Array Production := #[]
  let mut ofName : Array (Array Nat) := #[]
  for i in [0:rules.size] do
    let mut mine : Array Nat := #[]
    if (bodies (first + i)).isNone then
      let mut all : List Production := []
      for (steps, weight) in spreads[i]?.getD [] do
        for (steps, extra) in inlineSteps bodies inlineDepth steps do
          all := ⟨first + i, steps.toArray, heavier weight extra⟩ :: all
      for p in all.reverse.eraseDups do
        mine := mine.push productions.size
        productions := productions.push p
    ofName := ofName.push mine
  let whole := names.size
  ofName := ofName.push #[productions.size]
  productions := productions.push ⟨first + whole, #[StepContext.top.step first], 0⟩
  return { lexemes, names := names.push "", auxiliary := first + plain, whole, productions, ofName }

end TestConversion.Syntax
