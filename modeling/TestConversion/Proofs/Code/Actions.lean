import TestConversion.Code.Calls
import Mathlib.Data.List.Nodup
import Mathlib.Data.Nat.Init

/-!
# Actions in branching code

Code branches into parts, and so do the syntax trees that it comes from. Both are searched for calls
in the same way: some parts of a place come before the place itself, the others after it, and each
step down to a part may change the mode. The calls that a search records are the *actions* of a
place.

* `foldl_after_eq_record_iff`: the mode at the end of a way down, in terms of its last step into an
  argument.
* `Branching.mem_actions_iff`: the actions of a place are the calls below it to which a way leads
  that ends in the recording mode.
* `Branching.nodup_actions`: no action is found twice.
* `Branching.eq_map_actions`: what obeys the recursion of the search gives the actions.
-/

namespace TestConversion.Code

/-! ## Steps down -/

/-- What a step down leads into. -/
inductive Part where
  | argument
  | operand
  | other
  deriving DecidableEq

/-- A step down; `block` tells whether it leads to a block of code. -/
structure Descent where
  part : Part
  block : Bool
  deriving DecidableEq

/-- The mode after a step down. A block of code is recorded, but as an operand it is read in the
mode of the operation. -/
def Mode.after (mode : Mode) (d : Descent) : Mode :=
  match d.part with
  | .argument => if d.block then .record else .argument
  | .operand => mode
  | .other => if d.block then .record else mode

/-- A way down leads to an action if no step of it goes into an argument, or if a block of code that
is no operand comes with or after the last such step. -/
def Performed (ds : List Descent) : Prop :=
  (∀ d ∈ ds, d.part ≠ .argument) ∨
    ∃ before d after, ds = before ++ d :: after ∧ d.part = .argument ∧
      (∀ e ∈ after, e.part ≠ .argument) ∧ ∃ e ∈ d :: after, e.block = true ∧ e.part ≠ .operand

theorem Mode.after_of_argument {d : Descent} (h : d.part = .argument) (mode : Mode) :
    mode.after d = if d.block then .record else .argument := by
  simp [Mode.after, h]

theorem Mode.after_of_ne_argument {d : Descent} (h : d.part ≠ .argument) (mode : Mode) :
    mode.after d = .record ↔ mode = .record ∨ d.block = true ∧ d.part ≠ .operand := by
  obtain ⟨part, block⟩ := d
  cases part <;> cases block <;> simp_all [Mode.after]

theorem foldl_after_of_ne_argument {ds : List Descent} (h : ∀ d ∈ ds, d.part ≠ .argument)
    (mode : Mode) : ds.foldl Mode.after mode = .record ↔
      mode = .record ∨ ∃ e ∈ ds, e.block = true ∧ e.part ≠ .operand := by
  induction ds generalizing mode with
  | nil => simp
  | cons d ds ih =>
    have hd := Mode.after_of_ne_argument (h d List.mem_cons_self) mode
    rw [List.foldl_cons, ih (fun e he => h e (List.mem_cons_of_mem _ he)), hd]
    simp only [List.mem_cons, exists_eq_or_imp, or_assoc]

/-- The last member of a list with some property. -/
theorem exists_last {α : Type} {p : α → Prop} {l : List α} (h : ∃ a ∈ l, p a) :
    ∃ before a after, l = before ++ a :: after ∧ p a ∧ ∀ b ∈ after, ¬ p b := by
  induction l with
  | nil => simp at h
  | cons x l ih =>
    by_cases hl : ∃ a ∈ l, p a
    · obtain ⟨before, a, after, rfl, ha, hafter⟩ := ih hl
      exact ⟨x :: before, a, after, rfl, ha, hafter⟩
    · obtain ⟨a, ha, hp⟩ := h
      rcases List.mem_cons.mp ha with rfl | ha
      · exact ⟨[], a, l, rfl, hp, fun b hb hpb => hl ⟨b, hb, hpb⟩⟩
      · exact absurd ⟨a, ha, hp⟩ hl

/-- Behind the last step into an argument only blocks of code matter. -/
theorem foldl_after_append_argument {d : Descent} (before after : List Descent)
    (hd : d.part = .argument) (hafter : ∀ e ∈ after, e.part ≠ .argument) (mode : Mode) :
    (before ++ d :: after).foldl Mode.after mode = .record ↔
      ∃ e ∈ d :: after, e.block = true ∧ e.part ≠ .operand := by
  rw [List.foldl_append, List.foldl_cons, foldl_after_of_ne_argument hafter,
    Mode.after_of_argument hd]
  have hop : d.part ≠ .operand := by rw [hd]; decide
  cases hb : d.block <;> simp [hb, hop]

theorem foldl_after_eq_record_iff (ds : List Descent) :
    ds.foldl Mode.after .record = .record ↔ Performed ds := by
  constructor
  · intro h
    by_cases ha : ∃ d ∈ ds, d.part = .argument
    · obtain ⟨before, d, after, rfl, hd, hafter⟩ := exists_last ha
      exact Or.inr ⟨before, d, after, rfl, hd, hafter,
        (foldl_after_append_argument before after hd hafter _).mp h⟩
    · exact Or.inl fun d hd hp => ha ⟨d, hd, hp⟩
  · rintro (h | ⟨before, d, after, rfl, hd, hafter, hblock⟩)
    · exact (foldl_after_of_ne_argument h _).mpr (Or.inl rfl)
    · exact (foldl_after_append_argument before after hd hafter _).mpr hblock

/-! ## Branching -/

/-- How places of type `P` branch into parts, each reached by a turn of type `T`. Some places are
calls, of type `A`. -/
structure Branching (P T A : Type) where
  /-- The parts that come before the place itself. -/
  before : P → List (T × P)
  /-- The parts that come after the place itself. -/
  after : P → List (T × P)
  call? : P → Option A
  descent : P → T × P → Descent
  size : P → Nat
  size_lt : ∀ {p : P} {x : T × P}, x ∈ before p ++ after p → size x.2 < size p
  nodup : ∀ p : P, ((before p ++ after p).map Prod.fst).Nodup

namespace Branching

variable {P T A : Type}

theorem size_lt_of_before (L : Branching P T A) {p : P} {x : T × P} (h : x ∈ L.before p) :
    L.size x.2 < L.size p :=
  L.size_lt (List.mem_append_left _ h)

theorem size_lt_of_after (L : Branching P T A) {p : P} {x : T × P} (h : x ∈ L.after p) :
    L.size x.2 < L.size p :=
  L.size_lt (List.mem_append_right _ h)

/-- The action that a place is itself. -/
def self (L : Branching P T A) (mode : Mode) (p : P) : List (List T × A) :=
  if mode = .record then (L.call? p).toList.map fun a => ([], a) else []

/-- The calls that a search of a place records, each with the turns that lead to it. -/
def actions (L : Branching P T A) (mode : Mode) (p : P) : List (List T × A) :=
  (L.before p).attach.flatMap (fun x =>
    (L.actions (mode.after (L.descent p x.1)) x.1.2).map fun y => (x.1.1 :: y.1, y.2)) ++
  (L.self mode p ++
  (L.after p).attach.flatMap fun x =>
    (L.actions (mode.after (L.descent p x.1)) x.1.2).map fun y => (x.1.1 :: y.1, y.2))
termination_by L.size p
decreasing_by
  · exact L.size_lt_of_before x.2
  · exact L.size_lt_of_after x.2

variable (L : Branching P T A)

/-- The actions in one part of a place. -/
def below (mode : Mode) (p : P) (x : T × P) : List (List T × A) :=
  (L.actions (mode.after (L.descent p x)) x.2).map fun y => (x.1 :: y.1, y.2)

theorem actions_eq (mode : Mode) (p : P) :
    L.actions mode p = (L.before p).flatMap (L.below mode p) ++
      (L.self mode p ++ (L.after p).flatMap (L.below mode p)) := by
  have unattach (xs : List (T × P)) :
      xs.attach.flatMap (fun x => L.below mode p x.1) = xs.flatMap (L.below mode p) := by
    rw [List.flatMap_def, List.attach_map_val, List.flatMap_def]
  rw [actions, ← unattach, ← unattach]
  rfl

/-! ## Ways to actions -/

/-- The turns from a place to another one, and the steps down that they make. -/
inductive Leads : P → List T → List Descent → P → Prop
  | here (p : P) : Leads p [] [] p
  | step {p q : P} {x : T × P} {ts : List T} {ds : List Descent}
      (hx : x ∈ L.before p ++ L.after p) (h : Leads x.2 ts ds q) :
      Leads p (x.1 :: ts) (L.descent p x :: ds) q

theorem mem_below_iff {mode : Mode} {p : P} {x : T × P} {ts : List T} {a : A} :
    (ts, a) ∈ L.below mode p x ↔
      ∃ us, ts = x.1 :: us ∧ (us, a) ∈ L.actions (mode.after (L.descent p x)) x.2 := by
  simp only [below, List.mem_map, Prod.mk.injEq]
  constructor
  · rintro ⟨⟨us, b⟩, hy, rfl, rfl⟩
    exact ⟨us, rfl, hy⟩
  · rintro ⟨us, rfl, hy⟩
    exact ⟨(us, a), hy, rfl, rfl⟩

theorem mem_self_iff {mode : Mode} {p : P} {ts : List T} {a : A} :
    (ts, a) ∈ L.self mode p ↔ ts = [] ∧ L.call? p = some a ∧ mode = .record := by
  unfold self
  split <;> simp_all [eq_comm, and_comm]

theorem mem_actions_iff {mode : Mode} {p : P} {ts : List T} {a : A} :
    (ts, a) ∈ L.actions mode p ↔
      ∃ q ds, L.Leads p ts ds q ∧ L.call? q = some a ∧ ds.foldl Mode.after mode = .record := by
  induction hn : L.size p using Nat.strong_induction_on generalizing p mode ts with
  | _ n ih =>
    subst hn
    have hparts : (ts, a) ∈ L.actions mode p ↔ (ts, a) ∈ L.self mode p ∨
        ∃ x ∈ L.before p ++ L.after p, (ts, a) ∈ L.below mode p x := by
      simp only [actions_eq, List.mem_append, List.mem_flatMap]
      grind
    rw [hparts, mem_self_iff]
    constructor
    · rintro (⟨rfl, ha, hm⟩ | ⟨x, hx, h⟩)
      · exact ⟨p, [], .here p, ha, hm⟩
      · obtain ⟨us, rfl, hy⟩ := L.mem_below_iff.mp h
        obtain ⟨q, ds, hl, ha, hm⟩ := (ih _ (L.size_lt hx) rfl).mp hy
        exact ⟨q, L.descent p x :: ds, .step hx hl, ha, hm⟩
    · rintro ⟨q, ds, hl, ha, hm⟩
      cases hl with
      | here => exact Or.inl ⟨rfl, ha, hm⟩
      | step hx hl =>
        refine Or.inr ⟨_, hx, L.mem_below_iff.mpr ⟨_, rfl, ?_⟩⟩
        exact (ih _ (L.size_lt hx) rfl).mpr ⟨q, _, hl, ha, hm⟩

theorem nodup_actions (mode : Mode) (p : P) : ((L.actions mode p).map Prod.fst).Nodup := by
  induction hn : L.size p using Nat.strong_induction_on generalizing p mode with
  | _ n ih =>
    subst hn
    have hperm : (L.actions mode p).Perm
        (L.self mode p ++ (L.before p ++ L.after p).flatMap (L.below mode p)) := by
      rw [actions_eq, List.flatMap_append]
      exact List.perm_append_comm_assoc _ _ _
    rw [(hperm.map Prod.fst).nodup_iff, List.map_append, List.map_flatMap]
    refine List.Nodup.append ?_ ?_ ?_
    · unfold self
      split <;> cases L.call? p <;> simp
    · refine List.nodup_flatMap.mpr ⟨fun x hx => ?_, ?_⟩
      · have hinj : Function.Injective fun ts : List T => x.1 :: ts := fun _ _ h => by simpa using h
        have := (ih _ (L.size_lt hx) (mode.after (L.descent p x)) x.2 rfl).map hinj
        simpa [below, List.map_map, Function.comp_def] using this
      · -- parts reached by different turns share no way
        refine (List.pairwise_map.mp (L.nodup p)).imp fun {x y} hne => ?_
        intro ts hx hy
        simp only [below, List.map_map, List.mem_map, Function.comp_def] at hx hy
        obtain ⟨_, _, rfl⟩ := hx
        obtain ⟨_, _, h⟩ := hy
        exact hne (List.cons.inj h).1.symm
    · intro ts hs hb
      obtain ⟨⟨us, a⟩, ha, rfl⟩ := List.mem_map.mp hs
      obtain ⟨rfl, -⟩ := L.mem_self_iff.mp ha
      obtain ⟨x, -, hb⟩ := List.mem_flatMap.mp hb
      simp [below] at hb

/-! ## Recursions that give the actions -/

/-- A recursion over good places that searches each place as `actions` does gives the actions, each
as `g` shows it. -/
theorem eq_map_actions {B : Type} (Good : P → Prop) {f : Mode → P → List B} {g : A → B}
    (hGood : ∀ {p}, Good p → ∀ x ∈ L.before p ++ L.after p, Good x.2)
    (hf : ∀ mode p, Good p →
      f mode p = (L.before p).flatMap (fun x => f (mode.after (L.descent p x)) x.2) ++
        ((if mode = .record then (L.call? p).toList.map g else []) ++
        (L.after p).flatMap fun x => f (mode.after (L.descent p x)) x.2))
    (mode : Mode) {p : P} (hp : Good p) : f mode p = (L.actions mode p).map fun y => g y.2 := by
  induction hn : L.size p using Nat.strong_induction_on generalizing p mode with
  | _ n ih =>
    subst hn
    have hparts (xs : List (T × P)) (hxs : ∀ x ∈ xs, x ∈ L.before p ++ L.after p) :
        xs.flatMap (fun x => f (mode.after (L.descent p x)) x.2) =
          (xs.flatMap (L.below mode p)).map fun y => g y.2 := by
      rw [List.map_flatMap]
      refine List.flatMap_congr fun x hx => ?_
      rw [ih _ (L.size_lt (hxs x hx)) _ (hGood hp x (hxs x hx)) rfl, below, List.map_map]
      rfl
    have hself : (if mode = .record then (L.call? p).toList.map g else []) =
        (L.self mode p).map fun y => g y.2 := by
      unfold self
      split <;> simp
    rw [hf mode p hp, actions_eq, List.map_append, List.map_append, hself,
      hparts _ fun x hx => List.mem_append_left _ hx,
      hparts _ fun x hx => List.mem_append_right _ hx]

end Branching

end TestConversion.Code
