import TestConversion.Syntax.Production
import Std.Data.HashMap

/-!
# Items

An item is a production with a dot: what stands before the dot has been read. Items that go on in
the same way are one item, so that they need no states of their own. The lexemes at the two ends of
each symbol tell what may follow what.

* `Bits.mem_below`: the members of a set below a bound are found.
-/

namespace TestConversion.Syntax

/-! ## Sets of small numbers -/

/-- A set of numbers as the bits of a number. -/
abbrev Bits := Nat

def Bits.has (b : Bits) (i : Nat) : Bool := b.testBit i

def Bits.single (i : Nat) : Bits := 1 <<< i

/-- The members below a bound, in order; they are looked for in pieces of 32 bits. -/
def Bits.below (bound : Nat) (b : Bits) : List Nat :=
  (List.range (bound / 32 + 1)).flatMap fun w =>
    let piece := (b >>> (32 * w)) % 4294967296
    if piece = 0 then []
    else
      (List.range 32).filterMap fun i =>
        if piece.testBit i && 32 * w + i < bound then some (32 * w + i) else none

theorem Bits.mem_below {bound : Nat} {b : Bits} {i : Nat} :
    i ∈ b.below bound ↔ i < bound ∧ b.has i = true := by
  have piece (w j : Nat) (hj : j < 32) :
      ((b >>> (32 * w)) % 4294967296).testBit j = b.testBit (32 * w + j) := by
    rw [show (4294967296 : Nat) = 2 ^ 32 from rfl, Nat.testBit_mod_two_pow, Nat.testBit_shiftRight]
    simp [hj]
  simp only [below, List.mem_flatMap, List.mem_range, has]
  constructor
  · rintro ⟨w, _, h⟩
    split at h
    · simp at h
    · simp only [List.mem_filterMap, List.mem_range, Option.ite_none_right_eq_some,
        Option.some.injEq, Bool.and_eq_true, decide_eq_true_eq] at h
      obtain ⟨j, hj, ⟨hp, hb⟩, rfl⟩ := h
      exact ⟨hb, by rw [← piece w j hj]; exact hp⟩
  · rintro ⟨hi, hb⟩
    have split : 32 * (i / 32) + i % 32 = i := Nat.div_add_mod i 32
    have hj : i % 32 < 32 := Nat.mod_lt _ (by decide)
    have hp := piece (i / 32) (i % 32) hj
    rw [split, hb] at hp
    refine ⟨i / 32, by have := Nat.div_le_div_right (c := 32) (Nat.le_of_lt hi); omega, ?_⟩
    split
    · rename_i h0
      simp [h0] at hp
    · simp only [List.mem_filterMap, List.mem_range, Option.ite_none_right_eq_some,
        Option.some.injEq, Bool.and_eq_true, decide_eq_true_eq]
      exact ⟨i % 32, hj, ⟨hp, by rw [split]; exact hi⟩, split⟩

/-! ## Items -/

/-- The items of all productions, numbered; item `i + 1` has its dot one step after item `i`. -/
structure Items where
  production : Array Nat
  dot : Array Nat
  next : Array (Option Nat)
  first : Array Nat
  /-- The item that stands for all items that go on in the same way. -/
  standing : Array Nat

/-- What an item still has to tell: which symbols were read matters no more, apart from their fields
and other kinds, unless the children of one of them have fields. -/
structure Outlook where
  head : Nat
  dot : Nat
  weight : Int
  binding : Option Int
  assoc : Option Assoc
  read : List (Option String × Option String × Option Nat)
  ahead : List Step
  deriving DecidableEq, Hashable

/-- The silent names that hand fields to the rule above. -/
def Productions.labelling (g : Productions) (silent : String → Bool) : Array Bool := Id.run do
  let n := g.names.size
  let hidden := fun i => i ≥ g.auxiliary - g.firstName || silent (g.names[i]?.getD "")
  let mut marks : Array Bool := Array.replicate n false
  for _ in [0:n] do
    let mut changed := false
    for i in [0:n] do
      if hidden i && !(marks[i]?.getD true) then
        let marked := marks
        let labels := fun (s : Step) =>
          s.field.isSome ||
            (s.kind.isNone && s.symbol ≥ g.firstName &&
              (marked[s.symbol - g.firstName]?.getD false))
        if (g.ofName[i]?.getD #[]).any fun p =>
            (g.productions[p]?.map (·.steps.any labels)).getD false then
          marks := marks.set! i true
          changed := true
    unless changed do break
  return marks

/-- The outlook of a production with its dot before step `dot`. -/
def Production.outlook (p : Production) (labels : Nat → Bool) (dot : Nat) : Outlook :=
  let read := p.steps.toList.take dot
  let labelled := read.any fun s => labels s.symbol
  let last := read.getLast?
  { head := p.head, dot, weight := p.weight, binding := last.bind (·.binding),
    assoc := last.bind (·.assoc),
    read := read.map fun s => (s.kind, s.field, if labelled then some s.symbol else none),
    ahead := p.steps.toList.drop dot }

def Productions.items (g : Productions) (silent : String → Bool) : Items := Id.run do
  let marks := g.labelling silent
  let labels := fun s => s ≥ g.firstName && marks[s - g.firstName]?.getD false
  let mut production : Array Nat := #[]
  let mut dot : Array Nat := #[]
  let mut next : Array (Option Nat) := #[]
  let mut first : Array Nat := #[]
  let mut standing : Array Nat := #[]
  let mut known : Std.HashMap Outlook Nat := {}
  for i in [0:g.productions.size] do
    first := first.push production.size
    let steps := (g.productions[i]?.map (·.steps)).getD #[]
    for j in [0:steps.size + 1] do
      let item := production.size
      production := production.push i
      dot := dot.push j
      next := next.push (steps[j]?.map (·.symbol))
      -- one step after the item that stands for the one before
      let after := if j = 0 then item else (standing[item - 1]?.getD 0) + 1
      match g.productions[production[after]?.getD 0]? with
      | none => standing := standing.push item
      | some p =>
        let outlook := p.outlook labels j
        match known[outlook]? with
        | some k => standing := standing.push k
        | none =>
          known := known.insert outlook after
          standing := standing.push after
  return { production, dot, next, first, standing }

/-! ## The ends of symbols -/

/-- The lexemes that stand at one end of each symbol; `pick` takes the step at that end. -/
def Productions.edge (g : Productions) (pick : Production → Option Step) : Array Bits := Id.run do
  let mut edge : Array Bits := (Array.range g.firstName).map Bits.single
  edge := edge ++ Array.replicate g.names.size 0
  for _ in [0:g.names.size] do
    let mut changed := false
    for i in [0:g.names.size] do
      let old := edge[g.firstName + i]?.getD 0
      let mut new := old
      for p in g.ofName[i]?.getD #[] do
        match g.productions[p]?.bind pick with
        | none => pure ()
        | some s => new := new ||| (edge[s.symbol]?.getD 0)
      if new != old then
        edge := edge.set! (g.firstName + i) new
        changed := true
    unless changed do break
  return edge

/-- The lexemes that each symbol may begin with. -/
def Productions.first (g : Productions) : Array Bits := g.edge fun p => p.steps[0]?

/-- The lexemes that each symbol may end with. -/
def Productions.last (g : Productions) : Array Bits := g.edge fun p => p.steps.back?

/-- For each lexeme those that may come directly after it. -/
def Productions.following (g : Productions) (first last : Array Bits) : Array Bits := Id.run do
  let mut following : Array Bits := Array.replicate g.firstName 0
  for p in g.productions do
    for i in [1:p.steps.size] do
      match p.steps[i - 1]?, p.steps[i]? with
      | some a, some b =>
        let after := first[b.symbol]?.getD 0
        for l in Bits.below g.firstName (last[a.symbol]?.getD 0) do
          following := following.modify l (· ||| after)
      | _, _ => pure ()
  return following

end TestConversion.Syntax
