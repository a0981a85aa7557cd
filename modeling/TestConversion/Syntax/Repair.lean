import TestConversion.Syntax.Reading

/-!
# Texts outside the language

Where all stacks are blocked the text is repaired: a missing token is put in, a token is passed
over, or what was read last is passed over. Every repair has a cost, and the reading whose repairs
cost least is the one that is reported.
-/

namespace TestConversion.Syntax

namespace Repair

/-- Each place where parts of the text are passed over. -/
def placeCost : Nat := 500

/-- Each missing token. -/
def missingCost : Nat := placeCost + 110

/-- Each token or completed rule that is passed over. -/
def partCost : Nat := 100

/-- Each character that is passed over, and each line end among them. -/
def characterCost : Nat := 1

def lineCost : Nat := 30

/-- No more repairs than this are tried one after another. -/
def attempts : Nat := 48

/-- No more readings than this are taken off a stack. -/
def depthLimit : Nat := 12

/-- The next token of a text in any state at all. -/
def anyToken (r : Reader) (offset : Nat) (text : List Char) : Option Token :=
  let lexemes := r.automaton.grammar.lexemes
  let between := text.takeWhile isGap
  let afterGap := text.drop between.length
  let start := offset + byteLength between
  let best := (Array.range lexemes.size).foldl
    (fun best i =>
      match lexemes[i]? with
      | none => best
      | some l =>
        if l.rank > 0 || l.adjoining || l.name.startsWith "_" then best
        else
          match l.candidate i 0 afterGap afterGap, best with
          | none, _ => best
          | some c, none => some c
          | some c, some b => if c.better b then some c else some b)
    none
  match best with
  | some c =>
    let body := afterGap.take c.length
    some ⟨c.lexeme, ⟨start, start + byteLength body⟩, afterGap.drop c.length, false⟩
  | none => none

/-- The search with one free stack that ends in a node. -/
def only (s : Search) (node : Nat) : Search := { s with heads := #[⟨node, none⟩] }

/-- Runs a repaired search; none if it does not get beyond the place of the repair. -/
def resume (r : Reader) (s : Search) (place : Nat) : Option Search :=
  let s := Search.run r (2 * (s.nodeOf 0).text.length + 16) s place
  if s.finished.isSome || (s.heads.any fun h => (s.node h.node).offset > place) then some s
  else none

/-- Puts a lexeme in at the top of a stack. -/
def insert (r : Reader) (s : Search) (node lexeme : Nat) : Option Search :=
  let top := s.node node
  let token : Token := ⟨lexeme, ⟨top.offset, top.offset⟩, top.text, false⟩
  match (only s node).advance r (64 + 64 * s.nodes.size) 0 (some token) with
  | (s, .moved) => (s.heads[0]?).map fun h => only s h.node
  | _ => none

/-- The first lexeme that can be put in such that the text goes on. -/
def insertions (r : Reader) (s : Search) (node : Nat) : Option Search :=
  let place := (s.node node).offset
  (List.range r.automaton.grammar.lexemes.size).findSome? fun l =>
    (insert r s node l).bind fun s => resume r s place

/-- Puts lexemes of one kind in at the end of the text until it is complete. -/
def closing (r : Reader) (lexeme : Nat) : Nat → Search → Nat → Option Search
  | 0, _, _ => none
  | fuel + 1, s, node =>
    (insert r s node lexeme).bind fun s =>
      let top := (s.heads[0]?.map (·.node)).getD 0
      match resume r s (s.node top).offset with
      | some s => some s
      | none => closing r lexeme fuel s top

def lineEnds (cs : List Char) : Nat := cs.countP (· == '\n')

/-- Passes over the next token, or over a character if there is none. -/
def skipNext (r : Reader) (s : Search) (node : Nat) : Option (Nat × Search) :=
  let top := s.node node
  let between := top.text.takeWhile isGap
  let afterGap := top.text.drop between.length
  let start := top.offset + byteLength between
  let (span, rest, children) : Span × List Char × List Derivation :=
    match anyToken r top.offset top.text with
    | some t => (t.span, t.rest, [.token t.lexeme t.span false])
    | none => (⟨start, start + byteLength (afterGap.take 1)⟩, afterGap.drop 1, [])
  if afterGap.isEmpty then none
  else
    let (s, new) := s.push node (.skipped span children) top.state span.stop rest
    let body := afterGap.take (afterGap.length - rest.length)
    let cost := placeCost + partCost + characterCost * (span.stop - span.start) +
      lineCost * lineEnds body
    (resume r (only s new) top.offset).map fun s => (cost, s)

/-- Passes over the last `count` readings of a stack. -/
def dropLast (r : Reader) (s : Search) (node count : Nat) : List (Nat × Search) :=
  let top := s.node node
  (s.paths s.nodes.size node count []).filterMap fun (readings, below) =>
    let spans := readings.filterMap (·.bounds)
    match spans.head?, spans.getLast? with
    | some a, some b =>
      let span : Span := ⟨a.start, b.stop⟩
      let (s, new) :=
        s.push below (.skipped span readings) (s.node below).state top.offset top.text
      let parts := readings.filter fun d => !d.isExtra
      let before := (s.node below).text
      let body := before.take (before.length - top.text.length)
      let cost := placeCost + partCost * parts.length +
        characterCost * (span.stop - span.start) + lineCost * lineEnds (body.dropWhile isGap)
      (resume r (only s new) top.offset).map fun s => (cost, s)
    | _, _ => none

/-- The repairs of a blocked search with their costs. -/
def repairs (r : Reader) (closer : Option Nat) (s : Search) : List (Nat × Search) :=
  s.heads.toList.flatMap fun h =>
    let top := s.node h.node
    let atEnd := top.text.all isGap
    let closed :=
      match atEnd, closer with
      | true, some l => ((closing r l s.nodes.size s h.node).map fun s => (missingCost, s)).toList
      | _, _ => []
    let inserted := ((insertions r s h.node).map fun s => (missingCost, s)).toList
    let skipped := (skipNext r s h.node).toList
    let dropped := (List.range depthLimit).flatMap fun k => dropLast r s h.node (k + 1)
    closed ++ inserted ++ skipped ++ dropped

/-- Adds a search behind those that do not cost more. -/
def enqueue (x : Nat × Search) : List (Nat × Search) → List (Nat × Search)
  | [] => [x]
  | y :: ys => if y.1 ≤ x.1 then y :: enqueue x ys else x :: y :: ys

/-- The cheapest repaired reading, from searches in order of cost. -/
def cheapest (r : Reader) (closer : Option Nat) : Nat → List (Nat × Search) →
    Option (List Derivation)
  | 0, _ => none
  | _, [] => none
  | fuel + 1, (cost, s) :: rest =>
    match s.finished with
    | some readings => some readings
    | none =>
      let next := (repairs r closer s).foldl (fun q x => enqueue (cost + x.1, x.2) q) rest
      cheapest r closer fuel next

end Repair

/-- The readings of a text from an offset on: those of the language, else the cheapest repaired
ones. `closer` names the token that closes what is open at the end of the text. -/
def Reader.read (r : Reader) (closer : String) (offset : Nat) (text : List Char) :
    Option (List Derivation) :=
  let s := Search.run r (16 + 2 * text.length) (.start offset text) 0
  match s.finished with
  | some readings => some readings
  | none =>
    let lexeme := r.automaton.grammar.lexemes.findIdx? fun l => !l.named && l.name == closer
    Repair.cheapest r lexeme Repair.attempts [(0, s)]

end TestConversion.Syntax
