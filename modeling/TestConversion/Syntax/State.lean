import TestConversion.Syntax.Item

/-!
# States

A state is the set of items that a shared beginning of a text leads to, each with the lexemes that
may come after its production there. Beginnings with equal sets lead to one state.
-/

namespace TestConversion.Syntax

/-- The items a state is entered with, in order, each with the lexemes that may come after its
production. -/
abbrev Kernel := Array (Nat × Bits)

structure State where
  kernel : Kernel
  /-- The productions that are complete, each with the lexemes that may come next. -/
  completed : Array (Nat × Bits)
  /-- The state after each symbol, in order of symbols. -/
  targets : List (Nat × Nat)

/-- The items of a state without what may come after them. -/
def State.core (s : State) : Array Nat := s.kernel.map (·.1)

/-- The state after a symbol. -/
def State.target? (s : State) (symbol : Nat) : Option Nat := s.targets.lookup symbol

/-! ## What a name may begin with -/

/-- A name that another one may begin with. `after` are the lexemes that may come after it there,
together with those after the outer name if it may reach to its end. -/
structure Opening where
  name : Nat
  after : Bits
  whole : Bool

/-- The first names of the productions of an opening. -/
def Productions.inner (g : Productions) (first : Array Bits) (o : Opening) : Array Opening :=
  (g.ofName[o.name]?.getD #[]).filterMap fun p =>
    (g.productions[p]?).bind fun p =>
      (p.steps[0]?).bind fun s =>
        if s.symbol < g.firstName then none
        else
          match p.steps[1]? with
          | some next => some ⟨s.symbol - g.firstName, first[next.symbol]?.getD 0, false⟩
          | none => some ⟨s.symbol - g.firstName, o.after, o.whole⟩

/-- Adds an opening to those of other names; the result tells whether it says anything new. -/
def addOpening (all : Array Opening) (o : Opening) : Array Opening × Bool :=
  match all.findIdx? (·.name == o.name) with
  | none => (all.push o, true)
  | some k =>
    let old := all[k]?.getD o
    let new : Opening := ⟨o.name, old.after ||| o.after, old.whole || o.whole⟩
    if new.after == old.after && new.whole == old.whole then (all, false)
    else (all.set! k new, true)

/-- All names that a name may begin with, itself included. -/
def Productions.openings (g : Productions) (first : Array Bits) (name : Nat) : Array Opening :=
    Id.run do
  let mut all : Array Opening := #[⟨name, 0, true⟩]
  for _ in [0:g.names.size * (g.firstName + 2)] do
    let mut changed := false
    for o in all do
      for x in g.inner first o do
        let (grown, new) := addOpening all x
        all := grown
        changed := changed || new
    unless changed do break
  return all

/-! ## All states -/

/-- More states than any grammar in use has; it only bounds the construction. -/
def stateLimit : Nat := 100000

/-- Adds an item to a kernel, or what may come after it if the item is there. -/
def Kernel.add (k : Kernel) (item : Nat) (after : Bits) : Kernel :=
  match k.findIdx? (·.1 == item) with
  | some i => k.modify i fun x => (item, x.2 ||| after)
  | none => k.push (item, after)

/-- The kernels that a state leads to by symbol, and its completed productions. -/
structure Successors where
  kernels : Std.HashMap Nat Kernel
  completed : Array (Nat × Bits)

def Successors.add (s : Successors) (items : Items) (item : Nat) (after : Bits) : Successors :=
  match items.next[item]?.getD none with
  | none => { s with completed := s.completed.push (items.production[item]?.getD 0, after) }
  | some symbol =>
    let next := items.standing[item + 1]?.getD 0
    { s with
      kernels := s.kernels.alter symbol fun
        | none => some #[(next, after)]
        | some k => some (Kernel.add k next after) }

/-- What follows from a kernel: its own items, and the productions of all names before which a dot
stands. -/
def Productions.successors (g : Productions) (items : Items) (first : Array Bits)
    (openings : Array (Array Opening)) (kernel : Kernel) : Successors := Id.run do
  let mut after : Array Bits := Array.replicate g.names.size 0
  let mut opened : Array Nat := #[]
  let mut result : Successors := ⟨{}, #[]⟩
  for (item, ending) in kernel do
    result := result.add items item ending
    match items.next[item]?.getD none with
    | none => pure ()
    | some symbol =>
      if symbol ≥ g.firstName then
        let next :=
          match items.next[item + 1]?.getD none with
          | some s => first[s]?.getD 0
          | none => ending
        for o in openings[symbol - g.firstName]?.getD #[] do
          if after[o.name]?.getD 0 == 0 then opened := opened.push o.name
          after := after.modify o.name (· ||| o.after ||| (if o.whole then next else 0))
  for name in opened do
    let ending := after[name]?.getD 0
    for p in g.ofName[name]?.getD #[] do
      result := result.add items (items.first[p]?.getD 0) ending
  return result

/-- The states reachable from the one that awaits a whole text, which comes first. -/
def Productions.states (g : Productions) (items : Items) (first : Array Bits) : Array State :=
    Id.run do
  let openings := (Array.range g.names.size).map (g.openings first)
  let start : Kernel :=
    (g.ofName[g.whole]?.getD #[]).map fun p =>
      (items.first[p]?.getD 0, Bits.single g.endSymbol)
  let mut kernels : Array Kernel := #[start]
  let mut index : Std.HashMap Kernel Nat := {}
  let mut states : Array State := #[]
  for i in [0:stateLimit] do
    if i ≥ kernels.size then break
    let kernel := kernels[i]?.getD #[]
    let next := g.successors items first openings kernel
    let mut targets : List (Nat × Nat) := []
    for (symbol, k) in next.kernels.toArray.qsort fun a b => a.1 < b.1 do
      let k := k.qsort fun a b => a.1 < b.1
      match index[k]? with
      | some t => targets := (symbol, t) :: targets
      | none =>
        targets := (symbol, kernels.size) :: targets
        index := index.insert k kernels.size
        kernels := kernels.push k
    states := states.push ⟨kernel, next.completed, targets.reverse⟩
  return states

end TestConversion.Syntax
