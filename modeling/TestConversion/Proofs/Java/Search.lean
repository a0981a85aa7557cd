import TestConversion.Proofs.Code.Actions
import TestConversion.Proofs.Java.Forms

/-!
# The search of a tree

What is found in a lowered tree is found in the tree itself: of a call first what it is made on,
then the call, then its arguments; of anything else the children from left to right. Nothing is
looked for in literals, nor in the type arguments of calls.

* `treeBranching`: how trees branch, in the order of the search.
* `callsWithin_lower`, `calls_methodOf?`: the calls of a lowered tree are the actions of the tree,
  and those of a method are the actions of its body.
-/

namespace TestConversion.Java

open Text Syntax Code

variable {source : List Char} {t : Tree}

/-! ## Branching of trees -/

def isCall (t : Tree) : Bool := t.kind == "method_invocation"

/-- Nothing is looked for below literals and names. -/
def isAtom (t : Tree) : Bool := literalKinds.contains t.kind || nameKinds.contains t.kind

/-- Lambdas and class bodies. -/
def isBlock (t : Tree) : Bool := t.kind == "lambda_expression" || t.kind == "class_body"

/-- The children that are not comments, with their numbers. -/
def parts (t : Tree) : List (Nat × Tree) :=
  (t.children.zipIdx.map Prod.swap).filter fun x => !x.2.extra

/-- The parts that fill a field. -/
def partsIn (field : String) (t : Tree) : List (Nat × Tree) :=
  (parts t).filter fun x => x.2.field == some field

def partsBefore (t : Tree) : List (Nat × Tree) :=
  if isCall t then partsIn "object" t else if isAtom t then [] else parts t

def partsAfter (t : Tree) : List (Nat × Tree) :=
  if isCall t then partsIn "arguments" t else []

/-- The step down to a child. -/
def descentTo (t c : Tree) : Descent where
  part :=
    if isCall t && c.field == some "arguments" then .argument
    else if t.kind == "binary_expression" then .operand
    else .other
  block := isBlock c

theorem mem_parts {x : Nat × Tree} :
    x ∈ parts t ↔ t.children[x.1]? = some x.2 ∧ x.2.extra = false := by
  obtain ⟨i, c⟩ := x
  simp only [parts, List.mem_filter, List.mem_map, Prod.exists, Prod.swap_prod_mk, Prod.mk.injEq,
    List.mem_zipIdx_iff_getElem?, Bool.not_eq_true']
  constructor
  · rintro ⟨⟨_, _, h, rfl, rfl⟩, hx⟩
    exact ⟨h, hx⟩
  · rintro ⟨h, hx⟩
    exact ⟨⟨c, i, h, rfl, rfl⟩, hx⟩

theorem map_snd_parts (t : Tree) : (parts t).map Prod.snd = keptChildren t := by
  have h : ((t.children.zipIdx.map Prod.swap).map Prod.snd).filter (fun c => !c.extra) =
      keptChildren t := by
    rw [List.map_map]
    exact congrArg _ (List.zipIdx_map_fst 0 t.children)
  rw [← h, List.filter_map]
  rfl

theorem map_snd_partsIn (field : String) (t : Tree) :
    (partsIn field t).map Prod.snd = fillers field t := by
  rw [fillers, ← map_snd_parts, List.filter_map]
  rfl

theorem nodup_parts (t : Tree) : ((parts t).map Prod.fst).Nodup := by
  have h : ((t.children.zipIdx.map Prod.swap).map Prod.fst).Nodup := by
    rw [List.map_map]
    refine List.Nodup.of_map id ?_
    rw [List.map_id]
    exact (List.zipIdx_map_snd 0 t.children).symm ▸ List.nodup_range'
  exact h.sublist (List.filter_sublist.map Prod.fst)

theorem mem_parts_of_mem {x : Nat × Tree} (h : x ∈ partsBefore t ++ partsAfter t) :
    x ∈ parts t := by
  rw [List.mem_append, partsBefore, partsAfter] at h
  cases hc : isCall t with
  | true =>
    rw [hc, if_pos rfl, if_pos rfl] at h
    rcases h with h | h <;> exact List.mem_of_mem_filter h
  | false =>
    rw [hc] at h
    cases ha : isAtom t <;> simp_all

theorem nodup_partsBefore_partsAfter (t : Tree) :
    ((partsBefore t ++ partsAfter t).map Prod.fst).Nodup := by
  have hin (field : String) : ((partsIn field t).map Prod.fst).Nodup :=
    (nodup_parts t).sublist (List.filter_sublist.map Prod.fst)
  rw [partsBefore, partsAfter]
  cases isCall t with
  | true =>
    rw [if_pos rfl, if_pos rfl, List.map_append]
    refine (hin "object").append (hin "arguments") fun i ho ha => ?_
    -- one child does not fill two fields
    obtain ⟨⟨_, c⟩, hc, rfl⟩ := List.mem_map.mp ho
    obtain ⟨⟨_, d⟩, hd, rfl⟩ := List.mem_map.mp ha
    obtain ⟨hc, hof⟩ := List.mem_filter.mp hc
    obtain ⟨hd, haf⟩ := List.mem_filter.mp hd
    have hcd := (mem_parts.mp hc).1.symm.trans (mem_parts.mp hd).1
    cases hcd
    rw [eq_of_beq hof] at haf
    exact absurd haf (by decide)
  | false =>
    cases isAtom t with
    | true => simp
    | false => simpa using nodup_parts t

theorem treeSize_lt_of_child {c : Tree} (hc : c ∈ t.children) : treeSize c < treeSize t := by
  have hforest : ∀ cs : List Tree, c ∈ cs → treeSize c ≤ forestSize cs := by
    intro cs
    induction cs with
    | nil => intro h; cases h
    | cons d ds ih =>
      intro h
      rw [forestSize]
      rcases List.mem_cons.mp h with rfl | h
      · omega
      · have := ih h
        omega
  have := hforest _ hc
  rw [treeSize_eq t]
  omega

theorem mem_children_of_mem_parts {x : Nat × Tree} (h : x ∈ parts t) : x.2 ∈ t.children :=
  List.mem_of_getElem? (mem_parts.mp h).1

/-- How trees branch, in the order in which calls are looked for. -/
def treeBranching : Branching Tree Nat Tree where
  before := partsBefore
  after := partsAfter
  call? t := if isCall t then some t else none
  descent t x := descentTo t x.2
  size := treeSize
  size_lt h := treeSize_lt_of_child (mem_children_of_mem_parts (mem_parts_of_mem h))
  nodup := nodup_partsBefore_partsAfter

theorem call?_eq_some {q : Tree} : treeBranching.call? t = some q ↔ isCall t = true ∧ q = t := by
  show (if isCall t then some t else none) = some q ↔ _
  cases hc : isCall t with
  | true => simp [eq_comm]
  | false => simp

theorem mem_preorder_of_leads {q : Tree} {p : List Nat} {ds : List Descent}
    (h : treeBranching.Leads t p ds q) : q ∈ t.preorder := by
  induction h with
  | here t => exact t.mem_preorder_self
  | step hx _ ih =>
    have hc := mem_children_of_mem_parts (mem_parts_of_mem hx)
    exact Tree.mem_preorder_trans (Tree.mem_preorder_of_child hc) ih

/-- Actions are calls in the tree. -/
theorem isCall_of_mem_actions {mode : Mode} {p : List Nat} {q : Tree}
    (h : (p, q) ∈ treeBranching.actions mode t) : q ∈ t.preorder ∧ isCall q = true := by
  obtain ⟨r, ds, hl, hcall, -⟩ := treeBranching.mem_actions_iff.mp h
  obtain ⟨hc, rfl⟩ := call?_eq_some.mp hcall
  exact ⟨mem_preorder_of_leads hl, hc⟩

/-! ## Modes -/

/-- Stepping down to a block of code sets the recording mode. -/
theorem after_of_other {c : Tree} (hp : (descentTo t c).part = .other) (mode : Mode) :
    mode.after (descentTo t c) = if isBlock c then .record else mode := by
  rw [Mode.after, hp]
  rfl

/-- An operand is searched in the mode of the operation. -/
theorem after_of_binary (hk : t.kind = "binary_expression") (c : Tree) (mode : Mode) :
    mode.after (descentTo t c) = mode := by
  simp [Mode.after, descentTo, isCall, hk]

/-- A step down from anything but a call or an operation is no special one. -/
theorem part_descentTo (hc : isCall t = false) (hb : t.kind ≠ "binary_expression") (c : Tree) :
    (descentTo t c).part = .other := by
  simp [descentTo, hc, hb]

namespace CallShape

variable {object : Option Tree} {between : List Tree} {name arguments : Tree}

theorem part_object (s : CallShape t object between name arguments) (hc : isCall t = true)
    {o : Tree} (ho : o ∈ object) : (descentTo t o).part = .other := by
  have hk : t.kind = "method_invocation" := eq_of_beq hc
  simp [descentTo, s.object_field o ho, hk]

theorem isBlock_arguments (s : CallShape t object between name arguments) :
    isBlock arguments = false := by
  simp [isBlock, s.arguments_kind]

theorem after_arguments (s : CallShape t object between name arguments) (hc : isCall t = true)
    (mode : Mode) : mode.after (descentTo t arguments) = .argument := by
  simp [Mode.after, descentTo, hc, s.arguments_field, s.isBlock_arguments]

end CallShape

/-! ## Blocks -/

theorem named_of_isBlock (h : grammar.Licenses t) (hb : isBlock t = true) : t.named = true := by
  cases hn : t.named with
  | true => rfl
  | false =>
    have htexts : grammar.texts.all (fun k => !(k == "lambda_expression" || k == "class_body")) =
        true := by decide +kernel
    have := List.all_eq_true.mp htexts _ (h.children_of_not_named hn).2
    rw [Bool.not_eq_true'] at this
    exact absurd hb (by rw [isBlock, this]; decide)

/-- Forms of their own are no blocks. -/
theorem isCodeBlock_of_ownForm? {n : Node} (h : ownForm? source t = some n) :
    n.isCodeBlock = false := by
  rcases ownForm?_cases h with ⟨-, _, _, rfl⟩ | ⟨-, _, _, _, rfl⟩ | ⟨-, _, rfl⟩ <;> rfl

theorem isCodeBlock_lower (h : grammar.Licenses t) :
    (lower source t).isCodeBlock = isBlock t := by
  cases hb : isBlock t with
  | true =>
    have hn := named_of_isBlock h hb
    have hkind : t.kind = "lambda_expression" ∨ t.kind = "class_body" := by
      simpa [isBlock] using hb
    have hform : ownForm? source t = none := by
      rcases hkind with hk | hk <;> simp [ownForm?, hk]
    rw [lower_of_other source hn, hform]
    · exact hb
    all_goals rcases hkind with hk | hk <;> rw [hk] <;> decide +kernel
  | false =>
    refine lower_cases source t (motive := fun c => c.isCodeBlock = false)
      ?token ?literal ?name ?sequence ?other
    case token => exact fun _ => rfl
    case literal => exact fun _ _ => rfl
    case name => exact fun _ _ _ => rfl
    case sequence => exact fun _ _ _ _ => rfl
    case other =>
      intro _ _ _ _
      cases hform : ownForm? source t with
      | none => exact hb
      | some n => exact isCodeBlock_of_ownForm? hform

/-- Stepping down to a child changes the mode as the search of lowered forms does. -/
theorem callsWithin_after {c : Tree} (h : grammar.Licenses c) (hp : (descentTo t c).part = .other)
    (mode : Mode) :
    (lower source c).callsWithin (mode.after (descentTo t c)) = (lower source c).calls mode := by
  rw [Child.calls_eq, isCodeBlock_lower h, after_of_other hp]

/-! ## The search -/

theorem flatMap_parts {β : Type} (h : Tree → List β) :
    (parts t).flatMap (fun x => h x.2) = (keptChildren t).flatMap h := by
  rw [← map_snd_parts, List.flatMap_map]

theorem flatMap_partsIn {β : Type} (field : String) (h : Tree → List β) :
    (partsIn field t).flatMap (fun x => h x.2) = (fillers field t).flatMap h := by
  rw [← map_snd_partsIn, List.flatMap_map]

theorem named_of_isCall (h : grammar.Licenses t) (hc : isCall t = true) : t.named = true :=
  (exists_callShape h (eq_of_beq hc)).1

/-- What is found in a call. -/
theorem callsWithin_of_isCall (h : grammar.Valid t) (hc : isCall t = true) (mode : Mode) :
    (lower source t).callsWithin mode =
      ((fillers "object" t).flatMap fun c =>
        (lower source c).callsWithin (mode.after (descentTo t c))) ++
        ((if mode = .record then [callOf source t] else []) ++
          (fillers "arguments" t).flatMap fun c =>
            (lower source c).callsWithin (mode.after (descentTo t c))) := by
  have hk : t.kind = "method_invocation" := eq_of_beq hc
  obtain ⟨hn, object, between, name, arguments, s⟩ := exists_callShape h.licenses hk
  obtain ⟨i, hi, hcalls⟩ := s.calls_invocation? h source
  have hform : ownForm? source t = some (.invocation i) := by
    simp [ownForm?, hk, hi]
  rw [lower_of_ownForm? hn hform, s.fillers_object, s.fillers_arguments]
  have hchild {c : Tree} (hmem : c ∈ keptChildren t) : grammar.Licenses c :=
    (h.of_child (List.mem_of_mem_filter hmem)).licenses
  have hobject : (object.toList.flatMap fun c =>
      (lower source c).callsWithin (mode.after (descentTo t c))) =
        object.toList.flatMap fun c => (lower source c).calls mode := by
    refine List.flatMap_congr fun c hmem => ?_
    have hkept : c ∈ keptChildren t := by
      rw [s.kept]
      exact List.mem_append_left _ hmem
    exact callsWithin_after (hchild hkept) (s.part_object hc (Option.mem_toList.mp hmem)) mode
  have harguments : (lower source arguments).callsWithin (mode.after (descentTo t arguments)) =
      (lower source arguments).calls .argument := by
    have hkept : arguments ∈ keptChildren t := by
      rw [s.kept]
      simp
    rw [Child.calls_eq, isCodeBlock_lower (hchild hkept), s.isBlock_arguments,
      s.after_arguments hc]
    rfl
  rw [hobject, List.flatMap_singleton, harguments]
  exact hcalls mode

theorem keptChildren_of_not_named (h : grammar.Licenses t) (hn : t.named = false) :
    keptChildren t = [] := by
  rw [keptChildren, (h.children_of_not_named hn).1]
  rfl

/-- In most constructs the children are searched in the mode of their parent. -/
theorem flatMap_callsWithin_after (h : grammar.Valid t) (hc : isCall t = false)
    (hb : t.kind ≠ "binary_expression") (mode : Mode) :
    ((keptChildren t).flatMap fun c =>
      (lower source c).callsWithin (mode.after (descentTo t c))) =
        (keptChildren t).flatMap fun c => (lower source c).calls mode :=
  List.flatMap_congr fun c hmem =>
    callsWithin_after (h.of_child (List.mem_of_mem_filter hmem)).licenses
      (part_descentTo hc hb c) mode

/-- What is found in an operation. -/
theorem callsWithin_of_binary (h : grammar.Valid t) (hk : t.kind = "binary_expression")
    (mode : Mode) : (lower source t).callsWithin mode =
      (keptChildren t).flatMap fun c =>
        (lower source c).callsWithin (mode.after (descentTo t c)) := by
  obtain ⟨hn, left, operator, right, s⟩ := exists_binaryShape h.licenses hk
  obtain ⟨n, hform, hcalls⟩ := s.calls_binary? source
  have hoperator : (lower source operator).callsWithin mode = [] :=
    (IsWord.calls_lower (Or.inl s.operator_named) mode).2
  have hown : ownForm? source t = some n := by
    simp [ownForm?, hk, hform]
  rw [lower_of_ownForm? hn hown, s.kept]
  simp only [List.flatMap_cons, List.flatMap_nil, after_of_binary hk, hoperator, List.nil_append,
    List.append_nil]
  exact hcalls mode

theorem callsWithin_of_isAtom (ha : isAtom t = true) (mode : Mode) :
    (lower source t).callsWithin mode = [] := by
  have hform (hl : literalKinds.contains t.kind = false)
      (hk : nameKinds.contains t.kind = false) : False := by
    rw [isAtom, hl, hk] at ha
    cases ha
  exact lower_cases source t (motive := fun c => c.callsWithin mode = []) (fun _ => rfl)
    (fun _ _ => rfl) (fun _ _ _ => rfl) (fun _ hl hk _ => (hform hl hk).elim)
    (fun _ hl hk _ => (hform hl hk).elim)

/-- What is found in anything but calls, literals and names. -/
theorem callsWithin_of_others (h : grammar.Valid t) (hc : isCall t = false)
    (ha : isAtom t = false) (mode : Mode) : (lower source t).callsWithin mode =
      (keptChildren t).flatMap fun c =>
        (lower source c).callsWithin (mode.after (descentTo t c)) := by
  by_cases hb : t.kind = "binary_expression"
  · exact callsWithin_of_binary h hb mode
  · rw [flatMap_callsWithin_after h hc hb]
    rw [isAtom, Bool.or_eq_false_iff] at ha
    refine lower_cases source t (motive := fun c => c.callsWithin mode =
      (keptChildren t).flatMap fun c => (lower source c).calls mode)
      ?token ?literal ?name ?sequence ?other
    case token =>
      intro hn
      rw [keptChildren_of_not_named h.licenses hn]
      rfl
    case literal =>
      intro _ hl
      rw [ha.1] at hl
      cases hl
    case name =>
      intro _ _ hk
      rw [ha.2] at hk
      cases hk
    case sequence =>
      intro _ _ _ _
      rw [Child.callsWithin, Node.callsOfList_eq, List.flatMap_assoc]
      refine List.flatMap_congr fun c _ => ?_
      rw [← Node.callsOfList_eq, callsOfList_nodesOf]
    case other =>
      intro _ _ _ _
      cases hform : ownForm? source t with
      | none => exact calls_generalForm source t mode
      | some n =>
        have hk : t.kind = "field_access" := by
          by_contra hne
          rw [isCall] at hc
          simp [ownForm?, hne, hb, hc] at hform
        obtain ⟨-, object, rest, s⟩ := exists_accessShape h.licenses hk
        have hn : fieldAccess? source t ((keptChildren t).map (lowered source)) = some n := by
          simpa [ownForm?, hk] using hform
        have hnil : ((keptChildren t).flatMap fun c => (lower source c).calls mode) = [] :=
          List.flatMap_eq_nil_iff.mpr (s.calls_eq_nil hn mode).2
        rw [hnil]
        exact (s.calls_eq_nil hn mode).1

/-- A lowered tree is searched as the tree branches. -/
theorem callsWithin_lower_eq (h : grammar.Valid t) (mode : Mode) :
    (lower source t).callsWithin mode =
      (treeBranching.before t).flatMap (fun x =>
        (lower source x.2).callsWithin (mode.after (treeBranching.descent t x))) ++
        ((if mode = .record then (treeBranching.call? t).toList.map (callOf source) else []) ++
          (treeBranching.after t).flatMap fun x =>
            (lower source x.2).callsWithin (mode.after (treeBranching.descent t x))) := by
  simp only [treeBranching, partsBefore, partsAfter]
  cases hc : isCall t with
  | true =>
    rw [callsWithin_of_isCall h hc]
    simp only [if_true, Option.toList_some, List.map_singleton]
    rw [flatMap_partsIn "object" fun c =>
        (lower source c).callsWithin (mode.after (descentTo t c)),
      flatMap_partsIn "arguments" fun c =>
        (lower source c).callsWithin (mode.after (descentTo t c))]
  | false =>
    cases ha : isAtom t with
    | true =>
      rw [callsWithin_of_isAtom ha]
      simp
    | false =>
      rw [callsWithin_of_others h hc ha, ← flatMap_parts]
      simp

/-- The calls of a lowered tree are the actions of the tree. -/
theorem callsWithin_lower (h : grammar.Valid t) (mode : Mode) :
    (lower source t).callsWithin mode =
      (treeBranching.actions mode t).map fun y => callOf source y.2 :=
  treeBranching.eq_map_actions grammar.Valid
    (f := fun mode t => (lower source t).callsWithin mode) (g := callOf source)
    (fun h _ hx => h.of_child (mem_children_of_mem_parts (mem_parts_of_mem hx)))
    (fun mode _ h => callsWithin_lower_eq h mode) mode h

/-- The calls of a method are the actions of its body. -/
theorem calls_methodOf? {m b : Tree} {method : Method} (hmethod : methodOf? source m = some method)
    (hb : m.childIn "body" = some b) (h : grammar.Valid b) : (summaryOf method).calls =
      (treeBranching.actions .record b).map fun y => callOf source y.2 :=
  (callsOf_methodOf? hmethod hb).trans (callsWithin_lower h .record)

end TestConversion.Java
