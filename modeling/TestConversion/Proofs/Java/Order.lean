import TestConversion.Proofs.Java.Walk

/-!
# The order of calls

Calls are recorded in the order of their names in the text. A call that others are chained onto is
the innermost node of the chain, but its name comes first; the search goes down to what a call is
made on before it records the call, and to its arguments after that.

* `Placed`: trees whose nodes stand in order and within their parents.
* `inOrder_actions`: the names of the actions of a tree stand in order.
* `calls_in_order`: the calls of a method, for every valid tree that is placed.
-/

namespace TestConversion.Java

open Text Syntax Code

variable {source : List Char} {t : Tree}

/-! ## Places of nodes -/

/-- The children of a node stand in order and within it. -/
structure IsPlaced (t : Tree) : Prop where
  within : ∀ c ∈ t.children, t.span.start ≤ c.span.start ∧ c.span.stop ≤ t.span.stop
  apart : t.children.Pairwise fun c d => c.span.stop ≤ d.span.start

def Placed (t : Tree) : Prop := ∀ n ∈ t.preorder, IsPlaced n

theorem Placed.of_mem {s : Tree} (h : Placed t) (hs : s ∈ t.preorder) : Placed s :=
  fun _ hn => h _ (Tree.mem_preorder_trans hs hn)

theorem Placed.of_child {c : Tree} (h : Placed t) (hc : c ∈ t.children) : Placed c :=
  h.of_mem (Tree.mem_preorder_of_child hc)

theorem IsPlaced.parts_apart (h : IsPlaced t) :
    (parts t).Pairwise fun x y => x.2.span.stop ≤ y.2.span.start := by
  rw [← List.pairwise_map (f := Prod.snd) (R := fun c d : Tree => c.span.stop ≤ d.span.start),
    map_snd_parts]
  exact h.apart.filter _

/-! ## Names -/

/-- The name of a call. -/
def nameOf (t : Tree) : Tree := (t.childIn "name").getD t

/-- The name of a call covers some text of a span. -/
structure NamedIn (s : Span) (t : Tree) : Prop where
  start_le : s.start ≤ (nameOf t).span.start
  start_lt_stop : (nameOf t).span.start < (nameOf t).span.stop
  stop_le : (nameOf t).span.stop ≤ s.stop

theorem NamedIn.mono {r s : Span} (h : NamedIn r t) (h1 : s.start ≤ r.start)
    (h2 : r.stop ≤ s.stop) : NamedIn s t where
  start_le := Nat.le_trans h1 h.start_le
  start_lt_stop := h.start_lt_stop
  stop_le := Nat.le_trans h.stop_le h2

/-- The names of the calls stand in order. -/
def Sorted (ys : List (List Nat × Tree)) : Prop :=
  ys.Pairwise fun x y => (nameOf x.2).span.start < (nameOf y.2).span.start

/-- A name in a span comes before one in a later span. -/
theorem NamedIn.lt {r s : Span} {c d : Tree} (hc : NamedIn r c) (hd : NamedIn s d)
    (h : r.stop ≤ s.start) : (nameOf c).span.start < (nameOf d).span.start := by
  have h1 := hc.start_lt_stop
  have h2 := hc.stop_le
  have h3 := hd.start_le
  omega

/-! ## Actions in parts -/

/-- What has to be known of the actions of a tree. -/
structure InOrder (s : Span) (ys : List (List Nat × Tree)) : Prop where
  named : ∀ y ∈ ys, NamedIn s y.2
  sorted : Sorted ys

theorem inOrder_below {mode : Mode} {x : Nat × Tree}
    (h : ∀ mode, InOrder x.2.span (treeBranching.actions mode x.2)) :
    InOrder x.2.span (treeBranching.below mode t x) where
  named y hy := by
    obtain ⟨z, hz, rfl⟩ := List.mem_map.mp hy
    exact (h _).named z hz
  sorted := List.pairwise_map.mpr (h _).sorted

/-- The actions of parts that stand apart from each other. -/
theorem sorted_flatMap_below {mode : Mode} {xs : List (Nat × Tree)}
    (hx : xs.Pairwise fun x y => x.2.span.stop ≤ y.2.span.start)
    (h : ∀ x ∈ xs, InOrder x.2.span (treeBranching.below mode t x)) :
    Sorted (xs.flatMap (treeBranching.below mode t)) := by
  rw [Sorted, List.pairwise_flatMap]
  refine ⟨fun x hmem => (h x hmem).sorted, ?_⟩
  rw [List.pairwise_iff_forall_sublist] at hx ⊢
  intro x y hxy c hc d hd
  have hmem : x ∈ xs ∧ y ∈ xs :=
    ⟨hxy.subset List.mem_cons_self, hxy.subset (List.mem_cons_of_mem x List.mem_cons_self)⟩
  exact ((h x hmem.1).named c hc).lt ((h y hmem.2).named d hd) (hx hxy)

/-! ## Calls between their parts -/

namespace CallShape

variable {object : Option Tree} {between : List Tree} {name arguments : Tree}

theorem nameOf_eq (s : CallShape t object between name arguments) (h : grammar.Valid t) :
    nameOf t = name := by
  rw [nameOf, s.childIn_name h]
  rfl

theorem name_mem (s : CallShape t object between name arguments) : name ∈ t.children := by
  refine List.mem_of_mem_filter (p := fun c => !c.extra) ?_
  have hkept := s.kept
  rw [keptChildren] at hkept
  rw [hkept]
  simp

/-- What a call is made on comes before its name, and its arguments come after it. -/
theorem around_name (s : CallShape t object between name arguments) (h : IsPlaced t) :
    (∀ o ∈ object, o.span.stop ≤ name.span.start) ∧ name.span.stop ≤ arguments.span.start := by
  have hap : (keptChildren t).Pairwise fun c d => c.span.stop ≤ d.span.start := h.apart.filter _
  rw [s.kept, List.pairwise_append, List.pairwise_append, List.pairwise_pair] at hap
  obtain ⟨-, ⟨-, hargs, -⟩, hobject⟩ := hap
  exact ⟨fun o ho => hobject o (Option.mem_toList.mpr ho) name (by simp), hargs⟩

/-- The name of a call covers some text. -/
theorem namedIn (s : CallShape t object between name arguments) (h : grammar.Valid t)
    (hp : IsPlaced t) : NamedIn t.span t := by
  obtain ⟨hstart, hstop⟩ := hp.within name s.name_mem
  have hleaf := ((h.of_child s.name_mem).licenses.of_isLeaf
    (by rw [s.name_kind]; decide +kernel)).2
  rw [← s.nameOf_eq h] at hstart hstop hleaf
  exact ⟨hstart, hleaf, hstop⟩

end CallShape

theorem snd_mem_fillers {field : String} {x : Nat × Tree} (hx : x ∈ partsIn field t) :
    x.2 ∈ fillers field t := by
  rw [← map_snd_partsIn]
  exact List.mem_map_of_mem hx

/-- The name of a call stands between the parts before and after it. -/
theorem around_nameOf (h : grammar.Valid t) (hp : IsPlaced t) (hc : isCall t = true) :
    NamedIn t.span t ∧ (∀ x ∈ partsBefore t, x.2.span.stop ≤ (nameOf t).span.start) ∧
      ∀ x ∈ partsAfter t, (nameOf t).span.stop ≤ x.2.span.start := by
  obtain ⟨-, object, between, name, arguments, s⟩ := exists_callShape h.licenses (eq_of_beq hc)
  obtain ⟨hobject, hargs⟩ := s.around_name hp
  rw [partsBefore, partsAfter, if_pos hc, if_pos hc, s.nameOf_eq h]
  refine ⟨s.namedIn h hp, fun x hx => ?_, fun x hx => ?_⟩
  · have hx := snd_mem_fillers hx
    rw [s.fillers_object, Option.mem_toList] at hx
    exact hobject x.2 hx
  · have hx := snd_mem_fillers hx
    rw [s.fillers_arguments, List.mem_singleton] at hx
    rw [hx]
    exact hargs

theorem partsBefore_apart (h : IsPlaced t) :
    (partsBefore t).Pairwise fun x y => x.2.span.stop ≤ y.2.span.start := by
  rw [partsBefore]
  split
  · exact h.parts_apart.filter _
  · split
    · exact .nil
    · exact h.parts_apart

theorem partsAfter_apart (h : IsPlaced t) :
    (partsAfter t).Pairwise fun x y => x.2.span.stop ≤ y.2.span.start := by
  rw [partsAfter]
  split
  · exact h.parts_apart.filter _
  · exact .nil

/-! ## The order of actions -/

theorem isCall_of_mem_self {mode : Mode} {y : List Nat × Tree}
    (hy : y ∈ treeBranching.self mode t) : isCall t = true ∧ y.2 = t := by
  obtain ⟨-, hcall, -⟩ := treeBranching.mem_self_iff.mp hy
  exact call?_eq_some.mp hcall

theorem self_sorted (mode : Mode) (t : Tree) : Sorted (treeBranching.self mode t) := by
  rw [Branching.self]
  split
  · cases treeBranching.call? t
    · exact .nil
    · exact List.pairwise_singleton _ _
  · exact .nil

theorem partsAfter_of_not_isCall (hc : ¬ isCall t = true) : partsAfter t = [] := by
  rw [partsAfter, if_neg hc]

/-- The actions of the parts of a place are in order, and the place is between them. -/
theorem inOrder_actions_of_parts (h : grammar.Valid t) (hp : IsPlaced t) {mode : Mode}
    (hparts : ∀ x ∈ partsBefore t ++ partsAfter t,
      InOrder x.2.span (treeBranching.below mode t x)) :
    InOrder t.span (treeBranching.actions mode t) := by
  have hself : ∀ y ∈ treeBranching.self mode t, NamedIn t.span y.2 := by
    intro y hy
    obtain ⟨hc, hyt⟩ := isCall_of_mem_self hy
    rw [hyt]
    exact (around_nameOf h hp hc).1
  have hbelow (xs : List (Nat × Tree)) (hxs : ∀ x ∈ xs, x ∈ partsBefore t ++ partsAfter t) :
      ∀ y ∈ xs.flatMap (treeBranching.below mode t), ∃ x ∈ xs, NamedIn x.2.span y.2 := by
    intro y hy
    obtain ⟨x, hx, hy⟩ := List.mem_flatMap.mp hy
    exact ⟨x, hx, (hparts x (hxs x hx)).named y hy⟩
  have hbefore := hbelow (partsBefore t) fun x hx => List.mem_append_left _ hx
  have hafter := hbelow (partsAfter t) fun x hx => List.mem_append_right _ hx
  have hwithin {x : Nat × Tree} (hx : x ∈ partsBefore t ++ partsAfter t) {c : Tree}
      (hn : NamedIn x.2.span c) : NamedIn t.span c := by
    obtain ⟨h1, h2⟩ := hp.within x.2 (mem_children_of_mem_parts (mem_parts_of_mem hx))
    exact hn.mono h1 h2
  rw [treeBranching.actions_eq]
  refine ⟨fun y hy => ?_, ?_⟩
  · rcases List.mem_append.mp hy with hy | hy
    · obtain ⟨x, hx, hn⟩ := hbefore y hy
      exact hwithin (List.mem_append_left _ hx) hn
    · rcases List.mem_append.mp hy with hy | hy
      · exact hself y hy
      · obtain ⟨x, hx, hn⟩ := hafter y hy
        exact hwithin (List.mem_append_right _ hx) hn
  · have hsb : Sorted ((partsBefore t).flatMap (treeBranching.below mode t)) :=
      sorted_flatMap_below (partsBefore_apart hp)
        fun x hx => hparts x (List.mem_append_left _ hx)
    have hsa : Sorted ((partsAfter t).flatMap (treeBranching.below mode t)) :=
      sorted_flatMap_below (partsAfter_apart hp)
        fun x hx => hparts x (List.mem_append_right _ hx)
    refine List.pairwise_append.mpr
      ⟨hsb, List.pairwise_append.mpr ⟨self_sorted mode t, hsa, ?_⟩, ?_⟩
    · intro y hy z hz
      obtain ⟨hc, hyt⟩ := isCall_of_mem_self hy
      obtain ⟨hname, -, hargs⟩ := around_nameOf h hp hc
      obtain ⟨x, hx, hn⟩ := hafter z hz
      have := hname.start_lt_stop
      have := hargs x hx
      have := hn.start_le
      rw [hyt]
      omega
    · intro y hy z hz
      obtain ⟨x, hx, hn⟩ := hbefore y hy
      have h1 := hn.start_lt_stop
      have h2 := hn.stop_le
      rcases List.mem_append.mp hz with hz | hz
      · obtain ⟨hc, hzt⟩ := isCall_of_mem_self hz
        have := (around_nameOf h hp hc).2.1 x hx
        rw [hzt]
        omega
      · -- only calls have parts on both sides
        obtain ⟨w, hw, hm⟩ := hafter z hz
        have hc : isCall t = true := by
          by_contra hc
          rw [partsAfter_of_not_isCall hc] at hw
          cases hw
        obtain ⟨hname, hobject, hargs⟩ := around_nameOf h hp hc
        have := hname.start_lt_stop
        have := hobject x hx
        have := hargs w hw
        have := hm.start_le
        omega

theorem inOrder_actions (h : grammar.Valid t) (hp : Placed t) (mode : Mode) :
    InOrder t.span (treeBranching.actions mode t) := by
  induction hn : treeSize t using Nat.strong_induction_on generalizing t mode with
  | _ n ih =>
    subst hn
    refine inOrder_actions_of_parts h (hp t t.mem_preorder_self) fun x hx => ?_
    have hc := mem_children_of_mem_parts (mem_parts_of_mem hx)
    exact inOrder_below fun mode =>
      ih _ (treeSize_lt_of_child hc) (h.of_child hc) (hp.of_child hc) mode rfl

/-! ## Methods -/

/-- The calls of a method in the order of their names: each recorded call is one of the calls in the
body and has the text of its name as its method. -/
theorem calls_in_order {root m b : Tree} (h : grammar.Valid root) (hp : Placed root)
    (hm : m ∈ root.preorder) (hk : m.kind = "method_declaration")
    (hb : m.childIn "body" = some b) :
    ∃ method, methodOf? source m = some method ∧
      ∃ nodes names : List Tree,
        (∀ n ∈ nodes, n ∈ b.preorder ∧ n.kind = "method_invocation") ∧
        List.Forall₂ (fun n name => n.childIn "name" = some name) nodes names ∧
        (summaryOf method).calls.map Call.method = names.map (nodeText source) ∧
        names.Pairwise fun x y => x.span.start < y.span.start := by
  have hmv := h.of_mem hm
  have hbm : b ∈ m.children := List.mem_of_find?_eq_some hb
  have hbv := hmv.of_child hbm
  obtain ⟨method, hmethod⟩ := methodOf?_isSome source (method_name_isSome hmv.licenses hk)
  have hname : ∀ y ∈ treeBranching.actions .record b,
      y.2.childIn "name" = some (nameOf y.2) := by
    rintro ⟨p, q⟩ hy
    obtain ⟨hq, hc⟩ := isCall_of_mem_actions hy
    have hqv := hbv.of_mem hq
    obtain ⟨-, _, _, name, _, s⟩ := exists_callShape hqv.licenses (eq_of_beq hc)
    rw [s.childIn_name hqv, s.nameOf_eq hqv]
  refine ⟨method, hmethod, (treeBranching.actions .record b).map Prod.snd,
    (treeBranching.actions .record b).map fun y => nameOf y.2, ?_, ?_, ?_, ?_⟩
  · intro n hn
    obtain ⟨⟨p, q⟩, hy, rfl⟩ := List.mem_map.mp hn
    obtain ⟨hq, hc⟩ := isCall_of_mem_actions hy
    exact ⟨hq, eq_of_beq hc⟩
  · rw [List.forall₂_map_left_iff, List.forall₂_map_right_iff, List.forall₂_same]
    exact hname
  · rw [calls_methodOf? hmethod hb hbv, List.map_map, List.map_map]
    refine List.map_congr_left fun y hy => ?_
    simp only [Function.comp_apply, callOf, hname y hy]
    rfl
  · rw [List.pairwise_map]
    exact (inOrder_actions hbv ((hp.of_mem hm).of_child hbm) .record).sorted

theorem calls_in_order_sample : grammar.Valid sample ∧ Placed sample ∧
    ∃ method, methodOf? sampleSource sampleMethod = some method ∧
      ∃ nodes names : List Tree,
        (∀ n ∈ nodes, n ∈ sampleBody.preorder ∧ n.kind = "method_invocation") ∧
        List.Forall₂ (fun n name => n.childIn "name" = some name) nodes names ∧
        (summaryOf method).calls.map Call.method = names.map (nodeText sampleSource) ∧
        names.Pairwise fun x y => x.span.start < y.span.start := by
  have hp : Placed sample := by
    have hall : ∀ n ∈ sample.preorder,
        (∀ c ∈ n.children, n.span.start ≤ c.span.start ∧ c.span.stop ≤ n.span.stop) ∧
          n.children.Pairwise fun c d => c.span.stop ≤ d.span.start := by decide +kernel
    exact fun n hn => ⟨(hall n hn).1, (hall n hn).2⟩
  exact ⟨valid_sample, hp, calls_in_order valid_sample hp sampleMethod_mem rfl rfl⟩

end TestConversion.Java
