import TestConversion.Proofs.Java.Search
import TestConversion.Proofs.Syntax.Recognition

/-!
# Calls by a walk of the tree

The calls of a method are those that a walk of the tree of its body records, as long as no lambda is
an operand: lowering the body and chaining its calls changes neither what is recorded nor the order.

* `walk`: the walk.
* `calls_eq_walk`: the calls of a method, for every valid tree.
* `sample`: the tree of a small program with a chain of calls, a lambda and a call as an argument.
-/

namespace TestConversion.Java

open Text Syntax Code

/-! ## The walk -/

mutual

/-- The calls that a walk of a tree records. -/
def walk (source : List Char) (mode : Mode) : Tree → List Call
  | .node l cs =>
    if isCall (.node l cs) then
      walkField source mode "object" cs ++
        ((if mode = .record then [callOf source (.node l cs)] else []) ++
          walkField source .argument "arguments" cs)
    else if isAtom (.node l cs) then []
    else walkAll source (if isBlock (.node l cs) then .record else mode) cs

/-- The walk of the first tree that fills a field. -/
def walkField (source : List Char) (mode : Mode) (field : String) : List Tree → List Call
  | [] => []
  | c :: cs =>
    if c.field == some field then walk source mode c else walkField source mode field cs

/-- The walks of all trees that are not comments. -/
def walkAll (source : List Char) (mode : Mode) : List Tree → List Call
  | [] => []
  | c :: cs => (if c.extra then [] else walk source mode c) ++ walkAll source mode cs

end

variable {source : List Char} {t : Tree}

theorem walkField_eq (mode : Mode) (field : String) (cs : List Tree) :
    walkField source mode field cs =
      (cs.find? fun c => c.field == some field).toList.flatMap (walk source mode) := by
  induction cs with
  | nil => rfl
  | cons c cs ih =>
    rw [walkField, List.find?_cons, ih]
    cases hf : c.field == some field <;> simp

theorem walkAll_eq (mode : Mode) (cs : List Tree) :
    walkAll source mode cs = (cs.filter fun c => !c.extra).flatMap (walk source mode) := by
  induction cs with
  | nil => rfl
  | cons c cs ih =>
    rw [walkAll, List.filter_cons, ih]
    cases hx : c.extra <;> simp

theorem walk_of_isCall (hc : isCall t = true) (mode : Mode) : walk source mode t =
    (t.childIn "object").toList.flatMap (walk source mode) ++
      ((if mode = .record then [callOf source t] else []) ++
        (t.childIn "arguments").toList.flatMap (walk source .argument)) := by
  cases t with
  | node l cs =>
    rw [walk, if_pos hc, walkField_eq, walkField_eq]
    rfl

theorem walk_of_isAtom (hc : isCall t = false) (ha : isAtom t = true) (mode : Mode) :
    walk source mode t = [] := by
  cases t with
  | node l cs => rw [walk, hc, if_neg Bool.false_ne_true, if_pos ha]

theorem walk_of_others (hc : isCall t = false) (ha : isAtom t = false) (mode : Mode) :
    walk source mode t =
      (keptChildren t).flatMap (walk source (if isBlock t then .record else mode)) := by
  cases t with
  | node l cs =>
    rw [walk, hc, if_neg Bool.false_ne_true, ha, if_neg Bool.false_ne_true, walkAll_eq]
    rfl

/-! ## The walk as a search -/

/-- No lambda is an operand. -/
def NoLambdaOperand (t : Tree) : Prop :=
  ∀ n ∈ t.preorder, n.kind = "binary_expression" → ∀ c ∈ n.children, c.kind ≠ "lambda_expression"

theorem NoLambdaOperand.of_child {c : Tree} (h : NoLambdaOperand t) (hc : c ∈ t.children) :
    NoLambdaOperand c :=
  fun n hn => h n (Tree.mem_preorder_trans (Tree.mem_preorder_of_child hc) hn)

/-- The walk of a tree when the mode in it is set. -/
def walkWithin (source : List Char) (mode : Mode) (t : Tree) : List Call :=
  if isBlock t then (keptChildren t).flatMap (walk source mode) else walk source mode t

theorem isCall_of_isBlock (h : isBlock t = true) : isCall t = false ∧ isAtom t = false := by
  have hk : t.kind = "lambda_expression" ∨ t.kind = "class_body" := by
    simpa [isBlock] using h
  rcases hk with hk | hk <;> rw [isCall, isAtom, hk] <;> decide +kernel

theorem walk_eq_walkWithin (mode : Mode) (t : Tree) :
    walk source mode t = walkWithin source (if isBlock t then .record else mode) t := by
  rw [walkWithin]
  cases hb : isBlock t with
  | true =>
    obtain ⟨hc, ha⟩ := isCall_of_isBlock hb
    rw [walk_of_others hc ha, hb]
    rfl
  | false => rfl

/-- The walk in a tree whose children are walked alike. -/
theorem walkWithin_of_others (hc : isCall t = false) (ha : isAtom t = false) (mode : Mode) :
    walkWithin source mode t = (keptChildren t).flatMap (walk source mode) := by
  rw [walkWithin]
  cases hb : isBlock t with
  | true => rfl
  | false =>
    rw [if_neg Bool.false_ne_true, walk_of_others hc ha, hb]
    rfl

theorem walkWithin_after {c : Tree} (hp : (descentTo t c).part = .other) (mode : Mode) :
    walkWithin source (mode.after (descentTo t c)) c = walk source mode c := by
  rw [walk_eq_walkWithin, after_of_other hp]

theorem BinaryShape.not_isBlock {left operator right c : Tree}
    (s : BinaryShape t left operator right) (h : grammar.Valid t) (hc : c ∈ keptChildren t)
    (hl : c.kind ≠ "lambda_expression") : isBlock c = false := by
  have hexpr {e : Tree} (he : IsExpression e) (hle : e.kind ≠ "lambda_expression") :
      isBlock e = false := by
    have hkind := he.kind
    rw [isNodeKind, Bool.and_eq_true, bne_iff_ne] at hkind
    simp [isBlock, hle, hkind.2]
  have hlic := (h.of_child (List.mem_of_mem_filter hc)).licenses
  rw [s.kept] at hc
  simp only [List.mem_cons, List.not_mem_nil, or_false] at hc
  rcases hc with rfl | rfl | rfl
  · exact hexpr s.left_expression hl
  · by_contra hb
    have hn := named_of_isBlock hlic ((Bool.not_eq_false _).mp hb)
    rw [s.operator_named] at hn
    cases hn
  · exact hexpr s.right_expression hl

/-- An operand is walked in the mode of the operation, for it is no block of code. -/
theorem walkWithin_operand (h : grammar.Valid t) (hl : NoLambdaOperand t)
    (hk : t.kind = "binary_expression") {c : Tree} (hc : c ∈ keptChildren t) (mode : Mode) :
    walkWithin source (mode.after (descentTo t c)) c = walk source mode c := by
  obtain ⟨-, left, operator, right, s⟩ := exists_binaryShape h.licenses hk
  have hb : isBlock c = false :=
    s.not_isBlock h hc (hl t t.mem_preorder_self hk c (List.mem_of_mem_filter hc))
  rw [walk_eq_walkWithin, after_of_binary hk, hb]
  rfl

theorem walkWithin_after_kept (h : grammar.Valid t) (hl : NoLambdaOperand t)
    (hc : isCall t = false) {c : Tree} (hmem : c ∈ keptChildren t) (mode : Mode) :
    walkWithin source (mode.after (descentTo t c)) c = walk source mode c := by
  by_cases hk : t.kind = "binary_expression"
  · exact walkWithin_operand h hl hk hmem mode
  · exact walkWithin_after (part_descentTo hc hk c) mode

/-- The walk of a call. -/
theorem walkWithin_of_isCall (h : grammar.Valid t) (hc : isCall t = true) (mode : Mode) :
    walkWithin source mode t =
      ((fillers "object" t).flatMap fun c =>
        walkWithin source (mode.after (descentTo t c)) c) ++
        ((if mode = .record then [callOf source t] else []) ++
          (fillers "arguments" t).flatMap fun c =>
            walkWithin source (mode.after (descentTo t c)) c) := by
  have hk : t.kind = "method_invocation" := eq_of_beq hc
  obtain ⟨-, object, between, name, arguments, s⟩ := exists_callShape h.licenses hk
  have hb : isBlock t = false := by simp [isBlock, hk]
  have hobject : (object.toList.flatMap fun c =>
      walkWithin source (mode.after (descentTo t c)) c) =
        object.toList.flatMap (walk source mode) :=
    List.flatMap_congr fun c hmem =>
      walkWithin_after (s.part_object hc (Option.mem_toList.mp hmem)) mode
  have harguments : walkWithin source (mode.after (descentTo t arguments)) arguments =
      walk source .argument arguments := by
    rw [walk_eq_walkWithin, s.isBlock_arguments, s.after_arguments hc]
    rfl
  rw [walkWithin, hb, if_neg Bool.false_ne_true, walk_of_isCall hc, s.fillers_object,
    s.fillers_arguments, s.childIn_object h, s.childIn_arguments h, hobject]
  simp [harguments]

/-- A tree is walked as it branches. -/
theorem walkWithin_eq (h : grammar.Valid t) (hl : NoLambdaOperand t) (mode : Mode) :
    walkWithin source mode t =
      (treeBranching.before t).flatMap (fun x =>
        walkWithin source (mode.after (treeBranching.descent t x)) x.2) ++
        ((if mode = .record then (treeBranching.call? t).toList.map (callOf source) else []) ++
          (treeBranching.after t).flatMap fun x =>
            walkWithin source (mode.after (treeBranching.descent t x)) x.2) := by
  simp only [treeBranching, partsBefore, partsAfter]
  cases hc : isCall t with
  | true =>
    rw [walkWithin_of_isCall h hc]
    simp only [if_true, Option.toList_some, List.map_singleton]
    rw [flatMap_partsIn "object" fun c => walkWithin source (mode.after (descentTo t c)) c,
      flatMap_partsIn "arguments" fun c => walkWithin source (mode.after (descentTo t c)) c]
  | false =>
    cases ha : isAtom t with
    | true =>
      have hb : isBlock t = false := by
        by_contra hb
        have := (isCall_of_isBlock ((Bool.not_eq_false _).mp hb)).2
        rw [ha] at this
        cases this
      rw [walkWithin, hb, if_neg Bool.false_ne_true, walk_of_isAtom hc ha]
      simp
    | false =>
      rw [walkWithin_of_others hc ha]
      have hkept : (keptChildren t).flatMap (walk source mode) = (keptChildren t).flatMap fun c =>
          walkWithin source (mode.after (descentTo t c)) c :=
        List.flatMap_congr fun c hmem => (walkWithin_after_kept h hl hc hmem mode).symm
      rw [hkept, ← flatMap_parts]
      simp

/-- A walk gives the actions of the tree. -/
theorem walkWithin_eq_map_actions (h : grammar.Valid t) (hl : NoLambdaOperand t) (mode : Mode) :
    walkWithin source mode t = (treeBranching.actions mode t).map fun y => callOf source y.2 := by
  refine treeBranching.eq_map_actions (fun t => grammar.Valid t ∧ NoLambdaOperand t)
    (f := fun mode t => walkWithin source mode t) (g := callOf source) ?_ ?_ mode ⟨h, hl⟩
  · rintro t ⟨h, hl⟩ x hx
    have hc := mem_children_of_mem_parts (mem_parts_of_mem hx)
    exact ⟨h.of_child hc, hl.of_child hc⟩
  · rintro mode t ⟨h, hl⟩
    exact walkWithin_eq h hl mode

/-! ## Methods -/

/-- The calls of a method are those that a walk of its body records. -/
theorem calls_eq_walk {root m b : Tree} (h : grammar.Valid root) (hm : m ∈ root.preorder)
    (hk : m.kind = "method_declaration") (hb : m.childIn "body" = some b)
    (hl : NoLambdaOperand b) :
    ∃ method, methodOf? source m = some method ∧
      (summaryOf method).calls = walk source .record b := by
  have hmv := h.of_mem hm
  have hbv : grammar.Valid b := hmv.of_child (List.mem_of_find?_eq_some hb)
  obtain ⟨method, hmethod⟩ := methodOf?_isSome source (method_name_isSome hmv.licenses hk)
  refine ⟨method, hmethod, ?_⟩
  have hwalk : walk source .record b = walkWithin source .record b := by
    rw [walk_eq_walkWithin]
    split <;> rfl
  rw [calls_methodOf? hmethod hb hbv, hwalk, walkWithin_eq_map_actions hbv hl]

/-! ## A sample -/

/-- A node with its own rule. -/
def branchAt (kind : String) (field : Option String) (start stop : Nat) (cs : List Tree) : Tree :=
  .node ⟨kind, true, false, false, field, ⟨start, stop⟩⟩ cs

def nameAt (field : Option String) (start : Nat) : Tree :=
  .node ⟨"identifier", true, false, false, field, ⟨start, start + 1⟩⟩ []

/-- A fixed text. -/
def textAt (text : String) (start : Nat) : Tree :=
  .node ⟨text, false, false, false, none, ⟨start, start + text.length⟩⟩ []

def sampleSource : List Char := "class A { void m() { f(x -> g()).h(i()); } }".toList

/-- The body of `m`. -/
def sampleBody : Tree :=
  branchAt "block" (some "body") 19 42 [
    textAt "\x7b" 19,
    branchAt "expression_statement" none 21 40 [
      branchAt "method_invocation" none 21 39 [
        branchAt "method_invocation" (some "object") 21 32 [
          nameAt (some "name") 21,
          branchAt "argument_list" (some "arguments") 22 32 [
            textAt "(" 22,
            branchAt "lambda_expression" none 23 31 [
              nameAt (some "parameters") 23,
              textAt "->" 25,
              branchAt "method_invocation" (some "body") 28 31 [
                nameAt (some "name") 28,
                branchAt "argument_list" (some "arguments") 29 31 [
                  textAt "(" 29, textAt ")" 30]]],
            textAt ")" 31]],
        textAt "." 32,
        nameAt (some "name") 33,
        branchAt "argument_list" (some "arguments") 34 39 [
          textAt "(" 34,
          branchAt "method_invocation" none 35 38 [
            nameAt (some "name") 35,
            branchAt "argument_list" (some "arguments") 36 38 [textAt "(" 36, textAt ")" 37]],
          textAt ")" 38]],
      textAt ";" 39],
    textAt "\x7d" 41]

def sampleMethod : Tree :=
  branchAt "method_declaration" none 10 42 [
    .node ⟨"void_type", true, false, false, some "type", ⟨10, 14⟩⟩ [],
    nameAt (some "name") 15,
    branchAt "formal_parameters" (some "parameters") 16 18 [textAt "(" 16, textAt ")" 17],
    sampleBody]

def sampleClassBody : Tree :=
  branchAt "class_body" (some "body") 8 44 [textAt "\x7b" 8, sampleMethod, textAt "\x7d" 43]

def sampleClass : Tree :=
  branchAt "class_declaration" none 0 44 [
    textAt "class" 0, nameAt (some "name") 6, sampleClassBody]

def sample : Tree := branchAt "program" none 0 44 [sampleClass]

theorem valid_sample : grammar.Valid sample :=
  Grammar.valid_of_recognises 8 (by decide +kernel)

theorem sampleMethod_mem : sampleMethod ∈ sample.preorder := by
  have hc : sampleClass ∈ sample.preorder := Tree.mem_preorder_of_child List.mem_cons_self
  have hb : sampleClassBody ∈ sampleClass.preorder :=
    Tree.mem_preorder_of_child (List.mem_cons_of_mem _ (List.mem_cons_of_mem _ List.mem_cons_self))
  have hm : sampleMethod ∈ sampleClassBody.preorder :=
    Tree.mem_preorder_of_child (List.mem_cons_of_mem _ List.mem_cons_self)
  exact Tree.mem_preorder_trans hc (Tree.mem_preorder_trans hb hm)

theorem calls_eq_walk_sample :
    grammar.Valid sample ∧ NoLambdaOperand sampleBody ∧
      ∃ method, methodOf? sampleSource sampleMethod = some method ∧
        (summaryOf method).calls = walk sampleSource .record sampleBody := by
  have hl : NoLambdaOperand sampleBody := by
    unfold NoLambdaOperand
    decide +kernel
  exact ⟨valid_sample, hl, calls_eq_walk valid_sample sampleMethod_mem rfl rfl hl⟩

end TestConversion.Java
