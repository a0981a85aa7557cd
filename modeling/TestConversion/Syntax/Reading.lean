import TestConversion.Syntax.Derivation

/-!
# Reading a text

The automaton is run with several stacks at once. Where a state allows several moves the stacks
part, stacks that come to the same state at the same place join again, and a stack without a move
ends. The stacks share their lower parts: they are nodes with links downwards, and a node at which
stacks joined has several links.
-/

namespace TestConversion.Syntax

structure Link where
  below : Nat
  tree : Derivation

structure StackNode where
  state : Nat
  offset : Nat
  /-- The text that is still to be read. -/
  text : List Char
  /-- Weight of all readings below. -/
  weight : Int
  links : List Link

/-- The top of a stack; `blocked` holds the place of the token that it has no move for. -/
structure Head where
  node : Nat
  blocked : Option (Option Token)

structure Search where
  nodes : Array StackNode
  heads : Array Head
  /-- The best complete reading so far. -/
  finished : Option (List Derivation)

namespace Search

def node (s : Search) (i : Nat) : StackNode := s.nodes[i]?.getD ⟨0, 0, [], 0, []⟩

def nodeOf (s : Search) (h : Nat) : StackNode := s.node ((s.heads[h]?.map (·.node)).getD 0)

def start (offset : Nat) (text : List Char) : Search :=
  { nodes := #[⟨0, offset, text, 0, []⟩], heads := #[⟨0, none⟩], finished := none }

/-- Puts a reading on top of a node. -/
def push (s : Search) (below : Nat) (tree : Derivation) (state offset : Nat) (text : List Char) :
    Search × Nat :=
  let number := s.nodes.size
  let node : StackNode := ⟨state, offset, text, (s.node below).weight + tree.weight, [⟨below, tree⟩]⟩
  ({ s with nodes := s.nodes.push node }, number)

/-- The ways to take `count` readings, not counting extras, off a stack: the readings from bottom to
top, and the node below them. -/
def paths (s : Search) : Nat → Nat → Nat → List Derivation → List (List Derivation × Nat)
  | _, at_, 0, taken => [(taken, at_)]
  | 0, _, _ + 1, _ => []
  | fuel + 1, at_, count + 1, taken =>
    (s.node at_).links.flatMap fun l =>
      s.paths fuel l.below (if l.tree.isExtra then count + 1 else count) (l.tree :: taken)

/-- All readings on a stack, down to its bottom. -/
def wholePaths (s : Search) : Nat → Nat → List Derivation → List (List Derivation)
  | 0, _, taken => [taken]
  | fuel + 1, at_, taken =>
    match (s.node at_).links with
    | [] => [taken]
    | links => links.flatMap fun l => s.wholePaths fuel l.below (l.tree :: taken)

/-- Gives a node one more link. Links with equal trees are one link if they lead to the same node,
where the heavier reading stays, and join the nodes below if these are alike. -/
def addLink : Nat → Search → Nat → Link → Search
  | 0, s, _, _ => s
  | fuel + 1, s, i, link =>
    if link.below = i then s
    else
      let node := s.node i
      let below := s.node link.below
      let same := fun (l : Link) =>
        l.tree.symbol == link.tree.symbol && l.tree.size == link.tree.size &&
          l.tree.isExtra == link.tree.isExtra && (s.node l.below).offset == below.offset
      let weight := below.weight + link.tree.weight
      match node.links.findIdx? fun l => same l && l.below == link.below with
      | some k =>
        match node.links[k]? with
        | none => s
        | some old =>
          if old.tree.weight < link.tree.weight then
            { s with nodes := s.nodes.set! i { node with links := node.links.set k link, weight } }
          else s
      | none =>
        match node.links.find? fun l => same l && (s.node l.below).state == below.state with
        | some old =>
          let s := below.links.foldl (fun s l => addLink fuel s old.below l) s
          { s with nodes := s.nodes.modify i fun n => { n with weight := max n.weight weight } }
        | none =>
          { s with
            nodes := s.nodes.set! i
              { node with links := node.links ++ [link], weight := max node.weight weight } }

def alike (s : Search) (j i : Nat) : Bool :=
  let a := s.nodeOf j
  let b := s.nodeOf i
  a.state == b.state && a.offset == b.offset &&
    ((s.heads[j]?.map (·.blocked.isNone)).getD false) &&
    ((s.heads[i]?.map (·.blocked.isNone)).getD false)

/-- Joins stack `i` into stack `j`, which has the same state at the same place. -/
def join (s : Search) (j i : Nat) : Search :=
  let into := (s.heads[j]?.map (·.node)).getD 0
  let s := (s.nodeOf i).links.foldl (fun s l => addLink s.nodes.size s into l) s
  { s with heads := s.heads.eraseIdxIfInBounds i }

/-- The readings of a list that do not end in extras, and those extras. -/
def splitExtras (ds : List Derivation) : List Derivation × List Derivation :=
  let extras := (ds.reverse.takeWhile (·.isExtra)).reverse
  (ds.take (ds.length - extras.length), extras)

/-- Ways off a stack that lead to the same node, in order of first arrival. -/
def groupPaths (paths : List (List Derivation × Nat)) : List (Nat × List (List Derivation)) :=
  paths.foldl
    (fun groups p =>
      if groups.any (·.1 == p.2) then
        groups.map fun g => if g.1 == p.2 then (g.1, g.2 ++ [p.1]) else g
      else groups ++ [(p.2, [p.1])])
    []

/-- No more stacks than this may exist while a token is being read. -/
def headLimit : Nat := 10

/-- The nodes below trailing extras get the new reading, and the extras come back on top. -/
def pushWithExtras (s : Search) (base : Nat) (tree : Derivation) (extras : List Derivation)
    (state offset : Nat) (text : List Char) : Search × Nat :=
  extras.foldl (fun (s, top) e => s.push top e state offset text)
    (s.push base tree state offset text)

/-- Joins the new stack `i` into the first older stack that is like it, other than `self`. -/
def joinNew (s : Search) (self i : Nat) : Search :=
  match (List.range i).find? fun j => j != self && s.alike j i with
  | some j => s.join j i
  | none => s

/-- Completes a production on stack `h`. Every way to take its readings off the stack gives a new
stack; the result tells the first of them. -/
def reduce (r : Reader) (s : Search) (h production : Nat) : Search × Option Nat :=
  let g := r.automaton.grammar
  match g.productions[production]? with
  | none => (s, none)
  | some p =>
    let top := s.nodeOf h
    let before := s.heads.size
    let ways := s.paths s.nodes.size ((s.heads[h]?.map (·.node)).getD 0) p.steps.size []
    let s := (groupPaths ways).foldl
      (fun s (base, alternatives) =>
        if s.heads.size > headLimit then s
        else
          let readings := alternatives.map fun ds =>
            let (body, extras) := splitExtras ds
            let weight := body.foldl (fun (w : Int) (d : Derivation) => w + d.weight) p.weight
            (Derivation.branch p.head production weight body, extras)
          match readings with
          | [] => s
          | first :: rest =>
            let (tree, extras) :=
              rest.foldl (fun best x => if Derivation.better x.1 best.1 then x else best) first
            match r.automaton.targets[(s.node base).state]?.bind (·[p.head]?) with
            | none => s
            | some state =>
              let (s, node) := s.pushWithExtras base tree extras state top.offset top.text
              let i := s.heads.size
              ({ s with heads := s.heads.push ⟨node, none⟩ } : Search).joinNew h i)
      s
    (s, if s.heads.size > before then some before else none)

/-- Reads a token on stack `h`. -/
def shift (s : Search) (h : Nat) (tree : Derivation) (state : Nat) (t : Token) : Search :=
  let (s, node) := s.push ((s.heads[h]?.map (·.node)).getD 0) tree state t.span.stop t.rest
  { s with heads := s.heads.set! h ⟨node, none⟩ }

/-- Whether the first list of readings is to be preferred. -/
def betterWhole (new old : List Derivation) : Bool :=
  let weigh := fun (ds : List Derivation) => ds.foldl (fun (w : Int) (d : Derivation) => w + d.weight) 0
  weigh old < weigh new ||
    (weigh old == weigh new && Derivation.compareList new old == .lt)

def accept (s : Search) (h : Nat) : Search :=
  let ways := s.wholePaths s.nodes.size ((s.heads[h]?.map (·.node)).getD 0) []
  let finished := ways.foldl
    (fun best w =>
      match best with
      | none => some w
      | some b => if betterWhole w b then some w else some b)
    s.finished
  { s with finished, heads := s.heads.eraseIdxIfInBounds h }

/-- What became of a stack: it read a token, ended, or has no move for its token. -/
inductive Outcome where
  | moved
  | ended
  | stuck

/-- The completions among moves, in order, with the first stack that the last one gave. -/
def reduceAll (r : Reader) (h : Nat) : List Move → Search → Option Nat → Search × Option Nat
  | [], s, last => (s, last)
  | .reduce p :: ms, s, last =>
    let (s, new) := s.reduce r h p
    reduceAll r h ms s (new <|> last)
  | _ :: ms, s, last => reduceAll r h ms s last

/-- Takes all moves of stack `h` up to and with the reading of one token. -/
def advance (r : Reader) : Nat → Search → Nat → Option Token → Search × Outcome
  | 0, s, _, _ => (s, .stuck)
  | fuel + 1, s, h, ahead =>
    let top := s.nodeOf h
    let block := fun (t : Option Token) (s : Search) =>
      { s with heads := s.heads.modify h fun x => { x with blocked := some t } }
    match ahead with
    | none => (block none s, .stuck)
    | some t =>
      let moves := r.automaton.movesAt top.state t.lexeme
      if moves.isEmpty then
        if t.keyword && !(r.automaton.movesAt top.state r.word).isEmpty then
          advance r fuel s h (some { t with lexeme := r.word, keyword := false })
        else (block (some t) s, .stuck)
      else if moves.contains .accept then (s.accept h, .ended)
      else
        let (s, last) := reduceAll r h moves s none
        match moves.findSome? fun
          | .shift target => some (target, false)
          | .skip => some (top.state, true)
          | _ => none with
        | some (target, extra) =>
          (s.shift h (.token t.lexeme t.span extra) target t, .moved)
        | none =>
          match last with
          | some i =>
            match s.heads[i]? with
            | some head =>
              let s := { s with heads := (s.heads.set! h head).eraseIdxIfInBounds i }
              advance r fuel s h ahead
            | none => (s, .stuck)
          | none => ({ s with heads := s.heads.eraseIdxIfInBounds h }, .ended)

/-- The token that stack `h` reads next. -/
def ahead (r : Reader) (s : Search) (h : Nat) : Option Token :=
  let top := s.nodeOf h
  r.token top.state top.offset top.text

/-- Advances stack `h` until it is at `place` or beyond. -/
def advanceTo (r : Reader) : Nat → Search → Nat → Nat → Search × Nat × Bool
  | 0, s, _, place => (s, place, false)
  | fuel + 1, s, h, place =>
    let (s, outcome) := s.advance r (64 + 64 * s.nodes.size) h (s.ahead r h)
    match outcome with
    | .ended => (s, place, true)
    | .stuck => (s, place, false)
    | .moved =>
      let offset := (s.nodeOf h).offset
      if offset > place || (h > 0 && offset == place) then (s, offset, false)
      else advanceTo r fuel s h place

/-- Advances the stacks from number `h` on, each by no more than `tokens` tokens. -/
def advanceAll (r : Reader) (tokens : Nat) : Nat → Search → Nat → Nat → Search × Nat
  | 0, s, _, place => (s, place)
  | fuel + 1, s, h, place =>
    match s.heads[h]? with
    | none => (s, place)
    | some head =>
      if head.blocked.isSome then advanceAll r tokens fuel s (h + 1) place
      else
        let (s, place, gone) := s.advanceTo r tokens h place
        advanceAll r tokens fuel s (if gone then h else h + 1) place

/-- Compares stack `i` with the older stack `j` and those after it: joins it, or moves it in front
if it is heavier. The result tells whether stack `i` is gone. -/
def settleAgainst : Nat → Search → Nat → Nat → Search × Bool
  | 0, s, _, _ => (s, false)
  | fuel + 1, s, i, j =>
    if j ≥ i then (s, false)
    else if s.alike j i then (s.join j i, true)
    else if (s.nodeOf j).weight < (s.nodeOf i).weight then
      settleAgainst fuel { s with heads := s.heads.swapIfInBounds i j } i (j + 1)
    else settleAgainst fuel s i (j + 1)

def settleFrom : Nat → Search → Nat → Search
  | 0, s, _ => s
  | fuel + 1, s, i =>
    if i ≥ s.heads.size then s
    else
      let (s, gone) := settleAgainst s.heads.size s i 0
      settleFrom fuel s (if gone then i else i + 1)

/-- No more stacks than this go on to the next token. -/
def keptHeads : Nat := 6

/-- Drops blocked stacks if others can go on, joins and orders the rest. -/
def condense (s : Search) : Search :=
  let s :=
    if s.heads.any (·.blocked.isNone) then
      { s with heads := s.heads.filter (·.blocked.isNone) }
    else s
  let s := settleFrom (2 * s.heads.size) s 0
  { s with heads := s.heads.extract 0 keptHeads }

/-- Reads until no stack can go on. Every round reads at least one token, so that what is left of
the rounds bounds the tokens that are still to come. -/
def run (r : Reader) : Nat → Search → Nat → Search
  | 0, s, _ => s
  | fuel + 1, s, place =>
    if s.heads.all (·.blocked.isSome) then s
    else
      let (s, place) := s.advanceAll r (fuel + 1) (2 * headLimit + 2 * s.heads.size) 0 place
      run r fuel s.condense place

end Search

end TestConversion.Syntax
