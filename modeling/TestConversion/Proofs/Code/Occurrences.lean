import TestConversion.Proofs.Code.Actions
import TestConversion.Proofs.Code.Discovery

/-!
# Which occurrences of calls are found

An occurrence of a call in a piece of code is known by the turns that lead to it. The search finds
every occurrence once to which a way leads that ends in the recording mode, and no other one.

* `occurrences_found`: the occurrences found, for every node.
* `operand_block_lost`: a block of code that is an operand of an argument is not searched.
-/

namespace TestConversion.Code

/-! ## Places -/

/-- A place in code is a node or a call. -/
inductive Place where
  | node (n : Node)
  | call (i : Invocation)

/-- A turn from a place to one of its parts. -/
inductive Turn where
  | left
  | right
  /-- From a node to the call that it is. -/
  | base
  | child (i : Nat)
  /-- To a member of the sequence that is child `i`. -/
  | element (i j : Nat)
  | receiver
  | argument (i : Nat)
  | selector (i : Nat)
  deriving DecidableEq

/-- Where a turn leads; some turns lead nowhere. -/
def Place.next : Place → Turn → Option Place
  | .node (.binary l _ _), .left => some (.node l)
  | .node (.binary _ _ r), .right => some (.node r)
  | .node (.invocation i), .base => some (.call i)
  | .node (.other _ _ cs), .child i =>
    match cs[i]? with
    | some (.node n) => some (.node n)
    | _ => none
  | .node (.other _ _ cs), .element i j =>
    match cs[i]? with
    | some (.sequence ns) => ns[j]?.map .node
    | _ => none
  | .call i, .receiver => i.receiver.map .node
  | .call i, .argument j => i.arguments[j]?.map .node
  | .call i, .selector j => i.selectors[j]?.map .call
  | _, _ => none

/-- Where some turns lead one after the other. -/
def Place.follow : Place → List Turn → Option Place
  | p, [] => some p
  | p, t :: ts => (p.next t).bind fun q => q.follow ts

def Turn.part : Turn → Part
  | .argument _ => .argument
  | .left | .right => .operand
  | _ => .other

def Place.isBlock : Place → Bool
  | .node n => n.isCodeBlock
  | .call _ => false

/-- The steps down that some turns make. -/
def Place.descents : Place → List Turn → List Descent
  | _, [] => []
  | p, t :: ts =>
    match p.next t with
    | some q => ⟨t.part, q.isBlock⟩ :: q.descents ts
    | none => []

/-! ## Branching of code -/

/-- The nodes of child `i`. -/
def Child.parts (i : Nat) : Child → List (Turn × Place)
  | .node n => [(.child i, .node n)]
  | .sequence ns => ns.zipIdx.map fun x => (.element i x.2, .node x.1)
  | .token _ => []

def Place.before : Place → List (Turn × Place)
  | .node (.binary l _ r) => [(.left, .node l), (.right, .node r)]
  | .node (.invocation i) => [(.base, .call i)]
  | .node (.other _ _ cs) => cs.zipIdx.flatMap fun x => x.1.parts x.2
  | .node _ => []
  | .call i => i.receiver.toList.map fun n => (.receiver, .node n)

def Place.after : Place → List (Turn × Place)
  | .node _ => []
  | .call i => i.arguments.zipIdx.map (fun x => (.argument x.2, .node x.1)) ++
    i.selectors.zipIdx.map fun x => (.selector x.2, .call x.1)

theorem Child.mem_parts_iff {i : Nat} {c : Child} {t : Turn} {q : Place} :
    (t, q) ∈ c.parts i ↔ (∃ n, c = .node n ∧ t = .child i ∧ q = .node n) ∨
      ∃ ns j n, c = .sequence ns ∧ ns[j]? = some n ∧ t = .element i j ∧ q = .node n := by
  cases c with
  | node n => simp [Child.parts]
  | sequence ns =>
    simp only [Child.parts, List.mem_map, Prod.mk.injEq, Prod.exists, List.mem_zipIdx_iff_getElem?]
    grind
  | token s => simp [Child.parts]

/-- The parts of a place are where its turns lead. -/
theorem Place.mem_parts_iff {p q : Place} {t : Turn} :
    (t, q) ∈ p.before ++ p.after ↔ p.next t = some q := by
  rcases p with (_ | _ | ⟨l, o, r⟩ | i | ⟨k, s, cs⟩) | i
  all_goals simp only [Place.before, Place.after, List.mem_append, List.mem_cons, List.mem_map,
    List.mem_flatMap, Prod.exists, List.mem_zipIdx_iff_getElem?, Child.mem_parts_iff, Prod.mk.injEq]
  all_goals cases t <;> simp only [Place.next, Option.mem_toList, Option.map_eq_some_iff]
  all_goals grind

/-! ### Turns -/

/-- Different numbers make different turns. -/
theorem nodup_zipIdx_map {α β : Type} {f : Nat → β} (hf : Function.Injective f) (xs : List α) :
    (xs.zipIdx.map fun x => f x.2).Nodup := by
  have h : (xs.zipIdx.map Prod.snd).Nodup := by
    rw [List.zipIdx_map_snd]
    exact List.nodup_range'
  have := h.map hf
  rwa [List.map_map] at this

theorem Child.turn_of_mem_parts {i : Nat} {c : Child} {x : Turn × Place} (h : x ∈ c.parts i) :
    x.1 = .child i ∨ ∃ j, x.1 = .element i j := by
  rcases Child.mem_parts_iff.mp h with ⟨_, _, ht, _⟩ | ⟨_, j, _, _, _, ht, _⟩
  · exact Or.inl ht
  · exact Or.inr ⟨j, ht⟩

theorem Child.nodup_parts (i : Nat) (c : Child) : ((c.parts i).map Prod.fst).Nodup := by
  cases c with
  | node n => simp [Child.parts]
  | sequence ns =>
    have hinj : Function.Injective (Turn.element i) := fun _ _ h => (Turn.element.inj h).2
    simpa [Child.parts, List.map_map, Function.comp_def] using nodup_zipIdx_map hinj ns
  | token t => simp [Child.parts]

theorem nodup_childParts (cs : List Child) :
    ((cs.zipIdx.flatMap fun x => x.1.parts x.2).map Prod.fst).Nodup := by
  rw [List.map_flatMap]
  refine List.nodup_flatMap.mpr ⟨fun x _ => x.1.nodup_parts x.2, ?_⟩
  refine (List.pairwise_map.mp (nodup_zipIdx_map Function.injective_id cs)).imp fun {x y} hne => ?_
  intro t hx hy
  obtain ⟨u, hu, rfl⟩ := List.mem_map.mp hx
  obtain ⟨v, hv, heq⟩ := List.mem_map.mp hy
  apply hne
  rcases Child.turn_of_mem_parts hu with h | ⟨_, h⟩ <;>
    rcases Child.turn_of_mem_parts hv with h' | ⟨_, h'⟩ <;> simp_all

theorem Place.nodup_turns (p : Place) : ((p.before ++ p.after).map Prod.fst).Nodup := by
  rcases p with (_ | _ | ⟨l, o, r⟩ | i | ⟨k, s, cs⟩) | i
  · simp [Place.before, Place.after]
  · simp [Place.before, Place.after]
  · simp [Place.before, Place.after]
  · simp [Place.before, Place.after]
  · simpa [Place.before, Place.after] using nodup_childParts cs
  · have ha := nodup_zipIdx_map (f := Turn.argument) (fun _ _ h => Turn.argument.inj h) i.arguments
    have hs := nodup_zipIdx_map (f := Turn.selector) (fun _ _ h => Turn.selector.inj h) i.selectors
    have hr : (i.receiver.toList.map fun _ => Turn.receiver).Nodup := by
      cases i.receiver <;> simp
    simp only [Place.before, Place.after, List.map_append, List.map_map, Function.comp_def]
    refine hr.append (ha.append hs ?_) ?_
    · intro t h h'
      obtain ⟨_, _, rfl⟩ := List.mem_map.mp h
      simp at h'
    · intro t h h'
      obtain ⟨_, _, rfl⟩ := List.mem_map.mp h
      simp at h'

/-! ### Sizes -/

def Place.size : Place → Nat
  | .node n => n.size
  | .call i => i.size

theorem Node.size_le_sizeList {n : Node} {ns : List Node} (h : n ∈ ns) :
    n.size ≤ Node.sizeList ns := by
  induction ns with
  | nil => simp at h
  | cons m ns ih =>
    rw [Node.sizeList]
    rcases List.mem_cons.mp h with rfl | h
    · omega
    · have := ih h
      omega

theorem Child.size_le_sizeList {c : Child} {cs : List Child} (h : c ∈ cs) :
    c.size ≤ Child.sizeList cs := by
  induction cs with
  | nil => simp at h
  | cons d cs ih =>
    rw [Child.sizeList]
    rcases List.mem_cons.mp h with rfl | h
    · omega
    · have := ih h
      omega

theorem Invocation.size_le_sizeList {i : Invocation} {is : List Invocation} (h : i ∈ is) :
    i.size ≤ Invocation.sizeList is := by
  induction is with
  | nil => simp at h
  | cons j is ih =>
    rw [Invocation.sizeList]
    rcases List.mem_cons.mp h with rfl | h
    · omega
    · have := ih h
      omega

theorem Invocation.size_eq (i : Invocation) : i.size =
    1 + Node.sizeList i.arguments + Invocation.sizeList i.selectors +
      Node.sizeOption i.receiver := by
  cases i
  rfl

/-- A turn leads to something smaller. -/
theorem Place.size_next {p q : Place} {t : Turn} (h : p.next t = some q) : q.size < p.size := by
  rcases p with (_ | _ | ⟨l, o, r⟩ | i | ⟨k, s, cs⟩) | i <;> cases t <;>
    simp only [Place.next, reduceCtorEq, Option.some.injEq, Option.map_eq_some_iff] at h
  all_goals simp only [Place.size, Node.size]
  case node.binary.left => subst h; simp only; omega
  case node.binary.right => subst h; simp only; omega
  case node.invocation.base => subst h; simp only; omega
  case node.other.child j =>
    split at h
    · rename_i n hn
      cases h
      have := Child.size_le_sizeList (List.mem_of_getElem? hn)
      rw [Child.size] at this
      simp only
      omega
    · cases h
  case node.other.element j l =>
    split at h
    · rename_i ns hn
      obtain ⟨n, hm, rfl⟩ := Option.map_eq_some_iff.mp h
      have hc := Child.size_le_sizeList (List.mem_of_getElem? hn)
      have := Node.size_le_sizeList (List.mem_of_getElem? hm)
      rw [Child.size] at hc
      simp only
      omega
    · cases h
  case call.receiver =>
    obtain ⟨n, hn, rfl⟩ := h
    rw [Invocation.size_eq, hn, Node.sizeOption]
    simp only
    omega
  case call.argument j =>
    obtain ⟨n, hn, rfl⟩ := h
    have := Node.size_le_sizeList (List.mem_of_getElem? hn)
    rw [Invocation.size_eq]
    simp only
    omega
  case call.selector j =>
    obtain ⟨s, hs, rfl⟩ := h
    have := Invocation.size_le_sizeList (List.mem_of_getElem? hs)
    rw [Invocation.size_eq]
    simp only
    omega

/-! ### The search -/

/-- How code branches, in the order in which it is searched. -/
def branching : Branching Place Turn Invocation where
  before := Place.before
  after := Place.after
  call? := fun
    | .node _ => none
    | .call i => some i
  descent := fun _ x => ⟨x.1.part, x.2.isBlock⟩
  size := Place.size
  size_lt := fun h => Place.size_next (Place.mem_parts_iff.mp h)
  nodup := Place.nodup_turns

theorem leads_iff {p q : Place} {ts : List Turn} {ds : List Descent} :
    branching.Leads p ts ds q ↔ p.follow ts = some q ∧ ds = p.descents ts := by
  constructor
  · intro h
    induction h with
    | here p => exact ⟨rfl, rfl⟩
    | @step p q x ts ds hx _ ih =>
      have hn : p.next x.1 = some x.2 := Place.mem_parts_iff.mp hx
      obtain ⟨hf, hd⟩ := ih
      refine ⟨by simp [Place.follow, hn, hf], ?_⟩
      simp [Place.descents, hn, ← hd, branching]
  · rintro ⟨hf, rfl⟩
    induction ts generalizing p with
    | nil =>
      obtain rfl : p = q := Option.some.inj hf
      exact .here p
    | cons t ts ih =>
      obtain ⟨r, hr, hf⟩ := Option.bind_eq_some_iff.mp hf
      have hx : (t, r) ∈ branching.before p ++ branching.after p := Place.mem_parts_iff.mpr hr
      have := Branching.Leads.step hx (ih hf)
      simpa [Place.descents, hr, branching] using this

/-- The calls of a place by recursion. -/
def Place.calls (mode : Mode) : Place → List Call
  | .node n => n.calls mode
  | .call i => i.calls mode

theorem calls_after_other {t : Turn} (ht : t.part = .other) (n : Node) (mode : Mode) :
    (Place.node n).calls (mode.after ⟨t.part, (Place.node n).isBlock⟩) =
      n.calls (n.modeIn mode) := by
  rw [ht]
  rfl

theorem flatMap_zipIdx {α β : Type} (xs : List α) (f : α → List β) :
    xs.zipIdx.flatMap (fun x => f x.1) = xs.flatMap f := by
  rw [← List.flatMap_map Prod.fst f, List.zipIdx_map_fst]

theorem Child.calls_parts (c : Child) (i : Nat) (mode : Mode) :
    (c.parts i).flatMap (fun x => x.2.calls (mode.after ⟨x.1.part, x.2.isBlock⟩)) =
      c.calls mode := by
  cases c with
  | node n =>
    rw [Child.parts, List.flatMap_singleton, calls_after_other rfl, Child.calls]
  | sequence ns =>
    rw [Child.parts, List.flatMap_map, Child.calls, Node.callsOfList_eq, ← flatMap_zipIdx ns]
    exact List.flatMap_congr fun x _ => calls_after_other (t := .element i x.2) rfl x.1 mode
  | token t => rfl

/-- The calls of a place are those of its parts around the call that it is. -/
theorem Place.calls_eq (mode : Mode) (p : Place) :
    p.calls mode =
      p.before.flatMap (fun x => x.2.calls (mode.after ⟨x.1.part, x.2.isBlock⟩)) ++
        ((if mode = .record then (branching.call? p).toList.map Invocation.call else []) ++
        p.after.flatMap fun x => x.2.calls (mode.after ⟨x.1.part, x.2.isBlock⟩)) := by
  rcases p with (_ | _ | ⟨l, o, r⟩ | i | ⟨k, s, cs⟩) | i
  · simp [Place.calls, Node.calls, Place.before, Place.after, branching]
  · simp [Place.calls, Node.calls, Place.before, Place.after, branching]
  · simp [Place.calls, Node.calls, Place.before, Place.after, branching, Turn.part, Mode.after]
  · simp [Place.calls, Node.calls, Place.before, Place.after, branching, Turn.part, Mode.after,
      Place.isBlock]
  · have hcs : (cs.zipIdx.flatMap fun x => x.1.parts x.2).flatMap
        (fun x => x.2.calls (mode.after ⟨x.1.part, x.2.isBlock⟩)) = Child.callsOfList cs mode := by
      rw [List.flatMap_assoc, Child.callsOfList_eq, ← flatMap_zipIdx cs]
      exact List.flatMap_congr fun x _ => x.1.calls_parts x.2 mode
    rw [Place.before, hcs]
    simp [Place.calls, Node.calls, Place.after, branching]
  · have hr : (i.receiver.toList.map fun n => (Turn.receiver, Place.node n)).flatMap
        (fun x => x.2.calls (mode.after ⟨x.1.part, x.2.isBlock⟩)) =
          i.receiver.toList.flatMap fun n => n.calls (n.modeIn mode) := by
      rw [List.flatMap_map]
      exact List.flatMap_congr fun n _ => calls_after_other (t := .receiver) rfl n mode
    have ha : (i.arguments.zipIdx.map fun x => (Turn.argument x.2, Place.node x.1)).flatMap
        (fun x => x.2.calls (mode.after ⟨x.1.part, x.2.isBlock⟩)) =
          i.arguments.flatMap fun n => n.calls (n.modeIn .argument) := by
      rw [List.flatMap_map, ← flatMap_zipIdx i.arguments]
      rfl
    have hs : (i.selectors.zipIdx.map fun x => (Turn.selector x.2, Place.call x.1)).flatMap
        (fun x => x.2.calls (mode.after ⟨x.1.part, x.2.isBlock⟩)) =
          i.selectors.flatMap fun s => s.calls mode := by
      rw [List.flatMap_map, ← flatMap_zipIdx i.selectors]
      rfl
    rw [Place.calls, Invocation.calls_eq, Place.before, Place.after, List.flatMap_append, hr, ha,
      hs]
    simp [branching]

theorem calls_eq_map_actions (mode : Mode) (n : Node) :
    n.calls mode = (branching.actions mode (.node n)).map fun y => y.2.call :=
  branching.eq_map_actions (fun _ => True) (f := Place.calls) (g := Invocation.call)
    (fun _ _ _ => trivial) (fun mode p _ => p.calls_eq mode) mode (p := .node n) trivial

/-! ## Occurrences -/

/-- The ways to the calls that are found: each such call is found once, and found is every call to
which a way leads that is performed, and no other one. -/
theorem occurrences_found (calls : List Call) (n : Node) :
    ∃ ways : List (List Turn), ways.Nodup ∧
      (∀ w, w ∈ ways ↔ (∃ i, (Place.node n).follow w = some (.call i)) ∧
        Performed ((Place.node n).descents w)) ∧
      ∃ found, collectCalls calls n = calls ++ found ∧
        List.Forall₂ (fun w c => ∃ i, (Place.node n).follow w = some (.call i) ∧ c = i.call)
          ways found := by
  have hmem (w : List Turn) (i : Invocation) : (w, i) ∈ branching.actions .record (.node n) ↔
      (Place.node n).follow w = some (.call i) ∧ Performed ((Place.node n).descents w) := by
    rw [branching.mem_actions_iff]
    constructor
    · rintro ⟨q, ds, hl, hc, hm⟩
      obtain ⟨hf, rfl⟩ := leads_iff.mp hl
      cases q with
      | node m => cases hc
      | call j =>
        cases hc
        exact ⟨hf, (foldl_after_eq_record_iff _).mp hm⟩
    · rintro ⟨hf, hp⟩
      exact ⟨.call i, _, leads_iff.mpr ⟨hf, rfl⟩, rfl, (foldl_after_eq_record_iff _).mpr hp⟩
  refine ⟨_, branching.nodup_actions .record (.node n), fun w => ?_,
    n.calls .record, collectCalls_eq calls n, ?_⟩
  · constructor
    · intro h
      obtain ⟨⟨_, i⟩, hi, rfl⟩ := List.mem_map.mp h
      obtain ⟨hf, hp⟩ := (hmem _ i).mp hi
      exact ⟨⟨i, hf⟩, hp⟩
    · rintro ⟨⟨i, hf⟩, hp⟩
      exact List.mem_map.mpr ⟨(w, i), (hmem w i).mpr ⟨hf, hp⟩, rfl⟩
  · rw [calls_eq_map_actions, List.forall₂_map_left_iff, List.forall₂_map_right_iff,
      List.forall₂_same]
    rintro ⟨w, i⟩ hi
    exact ⟨i, ((hmem w i).mp hi).1, rfl⟩

/-- In `f(1 + x -> g())` a block of code comes after the step into the argument of `f`, but it is an
operand, and the call in it is not found. -/
theorem operand_block_lost :
    let g : Invocation := .mk "g" none [] [] none (.ofString "g()")
    let block : Node := .other "lambda_expression" (.ofString "x -> g()") [.node (.invocation g)]
    let f : Invocation :=
      .mk "f" none [.binary (.literal "1") "+" block] [] none (.ofString "f(1 + x -> g())")
    let way : List Turn := [.base, .argument 0, .right, .child 0, .base]
    (Place.node (.invocation f)).follow way = some (.call g) ∧
      (Place.node (.invocation f)).descents way = [⟨.other, false⟩, ⟨.argument, false⟩,
        ⟨.operand, true⟩, ⟨.other, false⟩, ⟨.other, false⟩] ∧
      collectCalls [] (.invocation f) = [f.call] := by
  intro g block f way
  refine ⟨rfl, rfl, ?_⟩
  rw [collectCalls_eq]
  rfl

end TestConversion.Code
