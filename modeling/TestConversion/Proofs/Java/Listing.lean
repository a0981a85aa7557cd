import TestConversion.Java.Lowering
import Mathlib.Data.Nat.Init
import Mathlib.Data.List.Basic
import Mathlib.Data.List.Perm.Basic

/-!
# Numbered nodes

Lowering numbers the nodes of a tree without its comments, parents first, and assembles them from
the last number on. What is listed is always a forest at its front: the trees that start behind a
number, one after the other, cover all numbers from there on.

* `Follows`: the forest that starts at a number, and its step to the next number.
* `links_listing`: the links of each node in terms of its children alone.
* `toList_slotsFrom`: which slots are filled after each step, and with what.
* `lower_bottom_up`: every node is assembled once, from its own children, and taken by its parent.
-/

namespace TestConversion.Java

open Text Syntax Code

/-! ## Bottom up -/

mutual

/-- Assembles a node from its children, which are assembled first, comments left out. -/
def lowerUp (source : List Char) : Tree → Child
  | .node l cs => assemble source (.node l cs) (lowerAllUp source cs)

def lowerAllUp (source : List Char) : List Tree → List Lowered
  | [] => []
  | c :: cs =>
    if c.extra then lowerAllUp source cs else (c.field, lowerUp source c) :: lowerAllUp source cs

end

/-- A tree assembled bottom up with the field that it fills. -/
def loweredUp (source : List Char) (t : Tree) : Lowered := (t.field, lowerUp source t)

theorem lowerAllUp_eq (source : List Char) (cs : List Tree) :
    lowerAllUp source cs = (cs.filter fun c => !c.extra).map (loweredUp source) := by
  induction cs with
  | nil => rfl
  | cons c cs ih =>
    rw [lowerAllUp, ih, List.filter_cons]
    cases c.extra <;> rfl

theorem lowerUp_eq (source : List Char) (t : Tree) :
    lowerUp source t = assemble source t ((keptChildren t).map (loweredUp source)) := by
  cases t with
  | node l cs =>
    rw [lowerUp, lowerAllUp_eq]
    rfl

/-! ## Nodes without comments -/

mutual

/-- The nodes that are reached without passing a comment, each before its children. -/
def keptPreorder : Tree → List Tree
  | .node l cs => .node l cs :: keptBelow cs

def keptBelow : List Tree → List Tree
  | [] => []
  | c :: cs => (if c.extra then [] else keptPreorder c) ++ keptBelow cs

end

theorem keptBelow_eq (cs : List Tree) :
    keptBelow cs = (cs.filter fun c => !c.extra).flatMap keptPreorder := by
  induction cs with
  | nil => rfl
  | cons c cs ih =>
    rw [keptBelow, ih, List.filter_cons]
    cases c.extra <;> rfl

theorem keptPreorder_eq (t : Tree) :
    keptPreorder t = t :: (keptChildren t).flatMap keptPreorder := by
  cases t with
  | node l cs =>
    rw [keptPreorder, keptBelow_eq]
    rfl

theorem flatMap_keptPreorder_cons (t : Tree) (ts : List Tree) :
    (t :: ts).flatMap keptPreorder = t :: (keptChildren t ++ ts).flatMap keptPreorder := by
  rw [List.flatMap_cons, keptPreorder_eq, List.flatMap_append, List.cons_append]

/-! ## Links -/

/-- The links to trees that are listed one after the other, the first one from number `n` on. -/
def linksFrom (n : Nat) : List Tree → List Link
  | [] => []
  | t :: ts => (t.field, n) :: linksFrom (n + (keptPreorder t).length) ts

theorem linksFrom_append (n : Nat) (ts us : List Tree) :
    linksFrom n (ts ++ us) =
      linksFrom n ts ++ linksFrom (n + (ts.flatMap keptPreorder).length) us := by
  induction ts generalizing n with
  | nil => rfl
  | cons t ts ih =>
    rw [List.cons_append, linksFrom, ih, linksFrom, List.flatMap_cons, List.length_append,
      Nat.add_assoc, List.cons_append]

/-- The links that the node with number `i` gets to pending nodes, the first of which is listed from
number `n` on. -/
def linksTo (i n : Nat) : List Pending → List Link
  | [] => []
  | p :: ps =>
    (if p.parent = some i then [(p.node.field, n)] else []) ++
      linksTo i (n + (keptPreorder p.node).length) ps

theorem linksTo_append (i n : Nat) (ps qs : List Pending) : linksTo i n (ps ++ qs) =
    linksTo i n ps ++
      linksTo i (n + (ps.flatMap fun p => keptPreorder p.node).length) qs := by
  induction ps generalizing n with
  | nil => rfl
  | cons p ps ih =>
    rw [List.cons_append, linksTo, ih, linksTo, List.flatMap_cons, List.length_append,
      Nat.add_assoc, List.append_assoc]

theorem linksTo_of_ne {i n : Nat} {ps : List Pending} (h : ∀ p ∈ ps, p.parent ≠ some i) :
    linksTo i n ps = [] := by
  induction ps generalizing n with
  | nil => rfl
  | cons p ps ih =>
    rw [linksTo, if_neg (h p List.mem_cons_self), ih fun q hq => h q (List.mem_cons_of_mem p hq)]
    rfl

/-- Pending children of one node. -/
def pendingUnder (i : Nat) (ts : List Tree) : List Pending := ts.map (⟨some i, ·⟩)

theorem linksTo_pendingUnder (i n : Nat) (ts : List Tree) :
    linksTo i n (pendingUnder i ts) = linksFrom n ts := by
  rw [pendingUnder]
  induction ts generalizing n with
  | nil => rfl
  | cons t ts ih =>
    rw [List.map_cons, linksTo, if_pos rfl, ih]
    rfl

theorem linksTo_pendingUnder_of_ne {i j n : Nat} (h : j ≠ i) (ts : List Tree) :
    linksTo i n (pendingUnder j ts) = [] := by
  refine linksTo_of_ne fun p hp => ?_
  obtain ⟨t, -, rfl⟩ := List.mem_map.mp hp
  simpa using h

theorem flatMap_pendingUnder (i : Nat) (ts : List Tree) :
    ((pendingUnder i ts).flatMap fun p => keptPreorder p.node) = ts.flatMap keptPreorder := by
  rw [pendingUnder, List.flatMap_map]

namespace Listing

variable {l : Listing} {p : Pending} {ps : List Pending}

theorem extend_cons (l : Listing) (p : Pending) (ps : List Pending) : l.extend (p :: ps) =
    (l.add p).extend (pendingUnder l.nodes.size (keptChildren p.node) ++ ps) := by
  rw [extend, List.foldr_cons_eq_append]
  rfl

/-- Listing by induction on what is pending. -/
theorem extend_induction {motive : Listing → List Pending → Prop} (nil : ∀ l, motive l [])
    (cons : ∀ l p ps,
      motive (l.add p) (pendingUnder l.nodes.size (keptChildren p.node) ++ ps) → motive l (p :: ps))
    (l : Listing) (ps : List Pending) : motive l ps := by
  fun_induction extend l ps with
  | case1 l => exact nil l
  | case2 l p ps ih =>
    rw [List.foldr_cons_eq_append] at ih
    exact cons l p ps ih

theorem size_nodes_add (l : Listing) (p : Pending) :
    (l.add p).nodes.size = l.nodes.size + 1 := Array.size_push _

theorem size_links_add (l : Listing) (p : Pending) :
    (l.add p).links.size = l.links.size + 1 := by
  rw [add]
  cases p.parent <;> simp

theorem nodes_extend (l : Listing) (ps : List Pending) : (l.extend ps).nodes.toList =
    l.nodes.toList ++ ps.flatMap fun p => keptPreorder p.node := by
  induction l, ps using extend_induction with
  | nil l => simp [extend]
  | cons l p ps ih =>
    rw [extend_cons, ih, List.flatMap_append, flatMap_pendingUnder, List.flatMap_cons,
      keptPreorder_eq]
    simp [add]

theorem size_links_extend (h : l.links.size = l.nodes.size) :
    (l.extend ps).links.size = (l.extend ps).nodes.size := by
  induction l, ps using extend_induction with
  | nil l => simpa [extend] using h
  | cons l p ps ih =>
    rw [extend_cons]
    exact ih (by rw [size_links_add, size_nodes_add, h])

/-- The parents of pending nodes are listed. -/
def Closed (l : Listing) (ps : List Pending) : Prop := ∀ p ∈ ps, ∀ i ∈ p.parent, i < l.nodes.size

theorem Closed.step (h : l.Closed (p :: ps)) :
    (l.add p).Closed (pendingUnder l.nodes.size (keptChildren p.node) ++ ps) := by
  intro q hq i hi
  rw [size_nodes_add]
  rcases List.mem_append.mp hq with hq | hq
  · obtain ⟨t, -, rfl⟩ := List.mem_map.mp hq
    cases hi
    exact Nat.lt_succ_self _
  · exact Nat.lt_succ_of_lt (h q (List.mem_cons_of_mem p hq) i hi)

theorem links_add {i : Nat} (h : i < l.links.size) :
    (l.add p).links[i]? = l.links[i]?.map fun ls =>
      ls ++ (if p.parent = some i then [(p.node.field, l.nodes.size)] else []).toArray := by
  have hi : l.links[i]? = some l.links[i] := Array.getElem?_eq_getElem h
  have hne : i ≠ l.links.size := Nat.ne_of_lt h
  rw [add]
  cases hp : p.parent with
  | none => simp [Array.getElem?_push, hne, hi]
  | some j =>
    by_cases hj : j = i
    · subst hj
      simp [Array.getElem?_modify, Array.getElem?_push, hne, hi]
    · simp [Array.getElem?_modify, Array.getElem?_push, hne, hi, hj]

theorem links_add_last (h : l.links.size = l.nodes.size) (hp : ∀ i ∈ p.parent, i < l.nodes.size) :
    (l.add p).links[l.nodes.size]? = some #[] := by
  rw [add, ← h]
  rw [← h] at hp
  cases hparent : p.parent with
  | none => simp
  | some j =>
    have hne : j ≠ l.links.size := Nat.ne_of_lt (hp j hparent)
    simp [Array.getElem_modify, hne]

/-- The links of nodes that are listed already. -/
theorem links_extend_of_lt (hsize : l.links.size = l.nodes.size) {i : Nat}
    (hi : i < l.nodes.size) : (l.extend ps).links[i]? =
      l.links[i]?.map fun ls => ls ++ (linksTo i l.nodes.size ps).toArray := by
  induction l, ps using extend_induction with
  | nil l => simp [extend, linksTo]
  | cons l p ps ih =>
    rw [extend_cons, ih (by rw [size_links_add, size_nodes_add, hsize])
        (Nat.lt_of_lt_of_eq (Nat.lt_succ_of_lt hi) (size_nodes_add l p).symm),
      links_add (hsize ▸ hi), size_nodes_add, linksTo_append,
      linksTo_pendingUnder_of_ne (Nat.ne_of_lt hi).symm, flatMap_pendingUnder, linksTo,
      keptPreorder_eq, List.length_cons, Option.map_map]
    congr 1
    funext ls
    simp [Nat.add_assoc, Nat.add_comm 1]

/-- The links of nodes that are pending or below such ones. -/
theorem links_extend_of_le (hsize : l.links.size = l.nodes.size) (hc : l.Closed ps) {i : Nat}
    (hi : l.nodes.size ≤ i) {t : Tree} (ht : (l.extend ps).nodes[i]? = some t) :
    (l.extend ps).links[i]? = some (linksFrom (i + 1) (keptChildren t)).toArray := by
  induction l, ps using extend_induction with
  | nil l =>
    rw [extend, Array.getElem?_eq_none hi] at ht
    cases ht
  | cons l p ps ih =>
    have hsize' : (l.add p).links.size = (l.add p).nodes.size := by
      rw [size_links_add, size_nodes_add, hsize]
    rw [extend_cons] at ht ⊢
    rcases Nat.lt_or_eq_of_le hi with hi | rfl
    · exact ih hsize' hc.step ((size_nodes_add l p).symm ▸ hi) ht
    · have hnode : t = p.node := by
        rw [← Array.getElem?_toList, nodes_extend] at ht
        simpa [add, eq_comm] using ht
      subst hnode
      -- the nodes that were pending before have other parents
      have hothers : ∀ q ∈ ps, q.parent ≠ some l.nodes.size := fun q hq heq =>
        absurd (hc q (List.mem_cons_of_mem p hq) _ heq) (Nat.lt_irrefl _)
      rw [links_extend_of_lt hsize' (Nat.lt_of_lt_of_eq (Nat.lt_succ_self _) (size_nodes_add l p).symm),
        links_add_last hsize (hc p List.mem_cons_self), size_nodes_add, linksTo_append,
        linksTo_pendingUnder, linksTo_of_ne hothers]
      simp

end Listing

/-! ## The listing of a tree -/

variable (t : Tree)

theorem nodes_listing : (listing t).nodes.toList = keptPreorder t := by
  rw [listing, Listing.nodes_extend]
  simp [Listing.empty]

theorem size_links_listing : (listing t).links.size = (listing t).nodes.size :=
  Listing.size_links_extend rfl

theorem links_listing {i : Nat} {n : Tree} (h : (listing t).nodes[i]? = some n) :
    (listing t).links[i]? = some (linksFrom (i + 1) (keptChildren n)).toArray := by
  refine Listing.links_extend_of_le rfl ?_ (Nat.zero_le i) h
  intro p hp i hi
  rw [List.mem_singleton.mp hp] at hi
  cases hi

/-- The trees that cover all numbers from `k` on, one after the other. -/
def Follows (k : Nat) (ts : List Tree) : Prop :=
  (keptPreorder t).drop k = ts.flatMap keptPreorder

variable {t}

theorem follows_root : Follows t 0 [t] := by simp [Follows]

theorem Follows.getElem? {k : Nat} {u : Tree} {ts : List Tree} (h : Follows t k (u :: ts)) :
    (listing t).nodes[k]? = some u := by
  rw [Follows, flatMap_keptPreorder_cons] at h
  rw [← Array.getElem?_toList, nodes_listing, ← Nat.add_zero k, ← List.getElem?_drop, h]
  rfl

theorem Follows.step {k : Nat} {u : Tree} {ts : List Tree} (h : Follows t k (u :: ts)) :
    Follows t (k + 1) (keptChildren u ++ ts) := by
  rw [Follows, flatMap_keptPreorder_cons] at h
  rw [Follows, ← List.tail_drop, h, List.tail_cons]

/-- What follows the first of the trees. -/
theorem Follows.skip {k : Nat} {u : Tree} {ts : List Tree} (h : Follows t k (u :: ts)) :
    Follows t (k + (keptPreorder u).length) ts := by
  rw [Follows, List.flatMap_cons] at h
  rw [Follows, ← List.drop_drop, h, List.drop_left]

theorem Follows.length {k : Nat} {ts : List Tree} (h : Follows t k ts) :
    (ts.flatMap keptPreorder).length = (listing t).nodes.size - k := by
  rw [← h, List.length_drop, ← nodes_listing, Array.length_toList]

theorem Follows.exists_cons {k : Nat} {ts : List Tree} (h : Follows t k ts)
    (hk : k < (listing t).nodes.size) : ∃ u us, ts = u :: us := by
  cases ts with
  | nil =>
    have hlength := h.length
    rw [List.flatMap_nil, List.length_nil] at hlength
    omega
  | cons u us => exact ⟨u, us, rfl⟩

theorem Follows.eq_nil {ts : List Tree} (h : Follows t (listing t).nodes.size ts) : ts = [] := by
  cases ts with
  | nil => rfl
  | cons u us =>
    have hlength := h.length
    rw [flatMap_keptPreorder_cons, List.length_cons] at hlength
    omega

/-- From the last number back to a number: the trees that follow it are the children of its node and
the trees behind that node. -/
@[elab_as_elim]
theorem Follows.induction {motive : Nat → List Tree → Prop} (last : motive (listing t).nodes.size [])
    (step : ∀ k u us, Follows t k (u :: us) → k < (listing t).nodes.size →
      motive (k + 1) (keptChildren u ++ us) → motive k (u :: us))
    {k : Nat} {ts : List Tree} (h : Follows t k ts) (hk : k ≤ (listing t).nodes.size) :
    motive k ts := by
  induction hn : (listing t).nodes.size - k generalizing k ts with
  | zero =>
    obtain rfl : k = (listing t).nodes.size := by omega
    rw [h.eq_nil]
    exact last
  | succ n ih =>
    obtain ⟨u, us, rfl⟩ := h.exists_cons (by omega)
    exact step k u us h (by omega) (ih h.step (by omega) (by omega))

/-- Some trees follow each number. -/
theorem exists_follows {k : Nat} (hk : k ≤ (listing t).nodes.size) : ∃ ts, Follows t k ts := by
  induction k with
  | zero => exact ⟨[t], follows_root⟩
  | succ k ih =>
    obtain ⟨ts, hts⟩ := ih (Nat.le_of_succ_le hk)
    obtain ⟨u, us, rfl⟩ := hts.exists_cons hk
    exact ⟨_, hts.step⟩

theorem exists_follows_cons {i : Nat} {n : Tree} (h : (listing t).nodes[i]? = some n) :
    ∃ ts, Follows t i (n :: ts) := by
  obtain ⟨hi, -⟩ := Array.getElem?_eq_some_iff.mp h
  obtain ⟨ts, hts⟩ := exists_follows (Nat.le_of_lt hi)
  obtain ⟨u, us, rfl⟩ := hts.exists_cons hi
  rw [hts.getElem?] at h
  cases h
  exact ⟨us, hts⟩

/-- Each link leads to its tree. -/
theorem Follows.nodes_of_links {k : Nat} {ts us : List Tree} (h : Follows t k (ts ++ us)) :
    ((linksFrom k ts).map fun link => (link.1, (listing t).nodes[link.2]?)) =
      ts.map fun c => (c.field, some c) := by
  induction ts generalizing k with
  | nil => rfl
  | cons c ts ih => rw [linksFrom, List.map_cons, List.map_cons, h.getElem?, ih h.skip]

/-- The numbers in all links from a number on. -/
def linkedFrom (l : Listing) (k : Nat) : List Nat :=
  (l.links.toList.drop k).flatMap fun links => links.toList.map (·.2)

theorem linkedFrom_eq {k : Nat} {n : Tree} (h : (listing t).nodes[k]? = some n) :
    linkedFrom (listing t) k =
      (linksFrom (k + 1) (keptChildren n)).map (·.2) ++ linkedFrom (listing t) (k + 1) := by
  have hlinks : (listing t).links.toList[k]? = some (linksFrom (k + 1) (keptChildren n)).toArray :=
    Array.getElem?_toList.trans (links_listing t h)
  obtain ⟨hk, heq⟩ := List.getElem?_eq_some_iff.mp hlinks
  rw [linkedFrom, List.drop_eq_getElem_cons hk, heq, List.flatMap_cons]
  rfl

/-- The links from a number on, and those to the trees that follow it, lead to each number once. -/
theorem linkedFrom_perm {k : Nat} {ts : List Tree} (h : Follows t k ts)
    (hk : k ≤ (listing t).nodes.size) :
    (linkedFrom (listing t) k ++ (linksFrom k ts).map (·.2)).Perm
      (List.range' k ((listing t).nodes.size - k)) := by
  refine Follows.induction ?last ?step h hk
  case last =>
    have hdrop : (listing t).links.toList.drop (listing t).nodes.size = [] := by
      rw [← size_links_listing, ← Array.length_toList, List.drop_length]
    rw [linkedFrom, hdrop, Nat.sub_self]
    exact .refl _
  case step =>
    intro k u us h hk ih
    have hcount : (listing t).nodes.size - k = (listing t).nodes.size - (k + 1) + 1 := by omega
    rw [linksFrom_append, List.map_append] at ih
    rw [linkedFrom_eq h.getElem?, linksFrom, keptPreorder_eq, List.length_cons, List.map_cons,
      ← Nat.add_assoc, Nat.add_right_comm, hcount, List.range'_succ]
    refine List.perm_middle.trans (List.Perm.cons k (.trans ?_ ih))
    rw [← List.append_assoc]
    exact List.perm_append_comm.append_right _

/-! ## Slots -/

/-- The slots of trees that are lowered and not taken yet. -/
def filled (source : List Char) (ts : List Tree) : List (Option Child) :=
  ts.flatMap fun t =>
    some (lowerUp source t) :: List.replicate ((keptPreorder t).length - 1) none

theorem filled_cons (source : List Char) (t : Tree) (ts : List Tree) :
    filled source (t :: ts) = some (lowerUp source t) ::
      (List.replicate ((keptPreorder t).length - 1) none ++ filled source ts) := by
  rw [filled, List.flatMap_cons, List.cons_append]
  rfl

theorem length_keptPreorder (t : Tree) :
    (keptPreorder t).length - 1 = ((keptChildren t).flatMap keptPreorder).length := by
  rw [keptPreorder_eq, List.length_cons, Nat.add_sub_cancel]

/-- Links to trees that are lowered take each of them and leave no slot filled. -/
theorem takeAll_filled (source : List Char) (ts : List Tree) {slots : Slots}
    {before after : List (Option Child)} (h : slots.toList = before ++ filled source ts ++ after) :
    (takeAll (linksFrom before.length ts) slots).1 = ts.map (loweredUp source) ∧
      (takeAll (linksFrom before.length ts) slots).2.toList =
        before ++ List.replicate (ts.flatMap keptPreorder).length none ++ after := by
  induction ts generalizing slots before with
  | nil => exact ⟨rfl, by simpa [linksFrom, takeAll, filled] using h⟩
  | cons t ts ih =>
    have hslot : slots[before.length]? = some (some (lowerUp source t)) := by
      rw [← Array.getElem?_toList, h, filled_cons]
      simp
    have htaken : (slots.setIfInBounds before.length none).toList =
        (before ++ List.replicate (keptPreorder t).length none) ++ filled source ts ++ after := by
      rw [Array.toList_setIfInBounds, h, filled_cons, keptPreorder_eq, List.length_cons,
        List.replicate_succ]
      simp
    have hlength : (before ++ List.replicate (keptPreorder t).length (none : Option Child)).length =
        before.length + (keptPreorder t).length := by simp
    obtain ⟨hothers, hslots⟩ := ih htaken
    rw [hlength] at hothers hslots
    rw [linksFrom, takeAll, hslot]
    refine ⟨?_, ?_⟩
    · simp only [hothers]
      rfl
    · simp only [hslots]
      rw [List.flatMap_cons, List.length_append, ← List.replicate_append_replicate]
      simp only [List.append_assoc]

theorem slotsFrom_succ (source : List Char) (l : Listing) {k : Nat} (hk : k < l.nodes.size) :
    slotsFrom source l k = assembleAt source l k (slotsFrom source l (k + 1)) := by
  have hcount : l.nodes.size - k = (l.nodes.size - (k + 1)) + 1 := by omega
  rw [slotsFrom, hcount, List.range'_succ, List.foldr_cons]
  rfl

/-- Before a node is assembled, its children are lowered and not taken yet. -/
theorem takeAll_children {source : List Char} {k : Nat} {u : Tree} {ts : List Tree}
    (h : (slotsFrom source (listing t) (k + 1)).toList =
      List.replicate (k + 1) none ++ filled source (keptChildren u ++ ts)) :
    let taken := takeAll (linksFrom (k + 1) (keptChildren u)) (slotsFrom source (listing t) (k + 1))
    taken.1 = (keptChildren u).map (loweredUp source) ∧
      taken.2.toList = List.replicate (k + 1) none ++
        List.replicate ((keptPreorder u).length - 1) none ++ filled source ts := by
  have hsplit : filled source (keptChildren u ++ ts) =
      filled source (keptChildren u) ++ filled source ts := by
    rw [filled, List.flatMap_append]
    rfl
  rw [hsplit, ← List.append_assoc] at h
  have htake := takeAll_filled source (keptChildren u) h
  rwa [List.length_replicate, ← length_keptPreorder] at htake

theorem links_getD {k : Nat} {n : Tree} (h : (listing t).nodes[k]? = some n) :
    (listing t).links.getD k #[] = (linksFrom (k + 1) (keptChildren n)).toArray := by
  rw [Array.getD_eq_getD_getElem?, links_listing t h]
  rfl

/-- After the nodes from a number on are assembled, the slots of the trees that follow it are filled
and no others. -/
theorem toList_slotsFrom (source : List Char) {k : Nat} {ts : List Tree} (h : Follows t k ts)
    (hk : k ≤ (listing t).nodes.size) :
    (slotsFrom source (listing t) k).toList = List.replicate k none ++ filled source ts := by
  refine Follows.induction ?last ?step h hk
  case last =>
    rw [slotsFrom, Nat.sub_self, List.range'_zero, List.foldr_nil, Array.toList_replicate, filled,
      List.flatMap_nil, List.append_nil]
  case step =>
    intro k u us h hk ih
    obtain ⟨htaken, hleft⟩ := takeAll_children ih
    rw [slotsFrom_succ source _ hk, assembleAt, h.getElem?, links_getD h.getElem?, filled_cons,
      lowerUp_eq, ← htaken]
    simp only [Array.toList_setIfInBounds]
    rw [hleft, List.replicate_succ']
    simp

theorem filled_root (source : List Char) (t : Tree) : filled source [t] =
    some (lowerUp source t) :: List.replicate ((listing t).nodes.size - 1) none := by
  rw [filled_cons, ← nodes_listing, Array.length_toList]
  simp [filled]

theorem slotsFrom_zero (source : List Char) (t : Tree) : (slotsFrom source (listing t) 0).toList =
    some (lowerUp source t) :: List.replicate ((listing t).nodes.size - 1) none := by
  rw [toList_slotsFrom source follows_root (Nat.zero_le _), filled_root]
  rfl

theorem lower_eq_lowerUp (source : List Char) (t : Tree) : lower source t = lowerUp source t := by
  rw [lower, ← Array.getElem?_toList, slotsFrom_zero]
  rfl

/-- What is taken for a node, and what it leaves in its slot. -/
theorem slotsFrom_node (source : List Char) {i : Nat} {n : Tree}
    (h : (listing t).nodes[i]? = some n) :
    (takeAll ((listing t).links.getD i #[]).toList (slotsFrom source (listing t) (i + 1))).1 =
        (keptChildren n).map (loweredUp source) ∧
      (slotsFrom source (listing t) i)[i]? = some (some (lowerUp source n)) := by
  obtain ⟨ts, hts⟩ := exists_follows_cons h
  obtain ⟨hi, -⟩ := Array.getElem?_eq_some_iff.mp h
  constructor
  · rw [links_getD h]
    exact (takeAll_children (toList_slotsFrom source hts.step hi)).1
  · rw [← Array.getElem?_toList, toList_slotsFrom source hts (Nat.le_of_lt hi), filled_cons]
    simp

/-- Lowering is the fold of a tree from the bottom up. The nodes that are numbered are those reached
without passing a comment, once each; each number but that of the root stands in one link, and the
links of a node lead to its children in order. A node is assembled from what its own children are
lowered to, all of which is there by then, and in the end all slots but that of the root are
empty. -/
theorem lower_bottom_up (source : List Char) (t : Tree) :
    lower source t = lowerUp source t ∧
      (listing t).nodes.toList = keptPreorder t ∧
      (linkedFrom (listing t) 0).Perm (List.range' 1 ((listing t).nodes.size - 1)) ∧
      (∀ i n, (listing t).nodes[i]? = some n →
        let links := ((listing t).links.getD i #[]).toList
        (links.map fun link => (link.1, (listing t).nodes[link.2]?)) =
            (keptChildren n).map (fun c => (c.field, some c)) ∧
          (takeAll links (slotsFrom source (listing t) (i + 1))).1 =
            (keptChildren n).map (loweredUp source) ∧
          (slotsFrom source (listing t) i)[i]? = some (some (lowerUp source n))) ∧
      (slotsFrom source (listing t) 0).toList =
        some (lowerUp source t) :: List.replicate ((listing t).nodes.size - 1) none := by
  refine ⟨lower_eq_lowerUp source t, nodes_listing t, ?_, fun i n h => ⟨?_, slotsFrom_node source h⟩,
    slotsFrom_zero source t⟩
  · obtain ⟨n, hn⟩ : ∃ n, (listing t).nodes.size = n + 1 :=
      ⟨_, by rw [← Array.length_toList, nodes_listing, keptPreorder_eq, List.length_cons]⟩
    have hperm := linkedFrom_perm follows_root (Nat.zero_le (listing t).nodes.size)
    rw [Nat.sub_zero, hn, List.range'_succ] at hperm
    rw [hn]
    exact (List.perm_append_comm.trans hperm).cons_inv
  · obtain ⟨ts, hts⟩ := exists_follows_cons h
    rw [links_getD h]
    exact hts.step.nodes_of_links

end TestConversion.Java
