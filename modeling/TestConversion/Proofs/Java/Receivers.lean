import TestConversion.Proofs.Code.Spelling
import TestConversion.Proofs.Java.Paths

/-!
# What calls are made on

The qualifier of a recorded call on a path, and the arguments of a call that are paths, are the
names of the path with dots between them. A `super` behind the name that qualifies it is missing
there.

* `qualifier_of_isPath`: the qualifier of a call on a path.
* `paths_spelled`: paths as arguments and as receivers of calls, for every valid tree.
* `super_lost`: a receiver and an argument without their `super`.
-/

namespace TestConversion.Java

open Text Syntax Code

variable {source : List Char} {t : Tree}

/-! ## Receivers and arguments -/

/-- What stands in front of the name of a call: nothing, or what it is made on, dots, and perhaps
type arguments. -/
inductive IsCallFront : List Tree → Prop
  | bare : IsCallFront []
  | made {object : Tree} {dots types : List Tree} (ho : object.field = some "object")
    (hd : IsDotted dots) (ht : ∀ c ∈ types, c.field = some "type_arguments") :
    IsCallFront (object :: (dots ++ types))

theorem exists_callFront (h : grammar.Licenses t) (hc : isCall t = true) :
    ∃ front name arguments, keptChildren t = front ++ [name, arguments] ∧ IsCallFront front := by
  have hk : t.kind = "method_invocation" := eq_of_beq hc
  obtain ⟨-, -, hg⟩ := h.gives (by rw [hk]; decide +kernel)
    (by rw [hk]; exact rule_method_invocation)
  obtain ⟨front, back, hkept, hfront, hback⟩ := Grammar.gives_seq.mp hg
  obtain ⟨arguments, rfl, -⟩ := gives_symbol (Grammar.gives_field.mp hback) (by decide +kernel)
  rcases Grammar.gives_choice.mp hfront with hfront | hfront
  · obtain ⟨name, rfl, -⟩ := gives_name (Grammar.gives_field.mp hfront)
    exact ⟨[], name, arguments, hkept, .bare⟩
  · obtain ⟨as, _, rfl, hobject, h⟩ := Grammar.gives_seq.mp hfront
    obtain ⟨bs, _, rfl, hdot, h⟩ := Grammar.gives_seq.mp h
    obtain ⟨cs, _, rfl, hsuper, h⟩ := Grammar.gives_seq.mp h
    obtain ⟨ds, es, rfl, htypes, hname⟩ := Grammar.gives_seq.mp h
    obtain ⟨object, rfl, -, hof⟩ := gives_object (Grammar.gives_field.mp hobject)
    obtain ⟨dot, rfl, hd⟩ := gives_dot hdot
    obtain ⟨name, rfl, -⟩ := gives_name (Grammar.gives_field.mp hname)
    have hdots : IsDotted (dot :: cs) := by
      rcases Grammar.gives_choice.mp hsuper with h | h
      · obtain ⟨us, vs, rfl, hu, hv⟩ := Grammar.gives_seq.mp h
        obtain ⟨u, rfl, hus⟩ := gives_symbol hu (by decide +kernel)
        obtain ⟨v, rfl, hvd⟩ := gives_dot hv
        exact .qualified hd hus hvd
      · cases Grammar.gives_blank.mp h
        exact .plain hd
    refine ⟨object :: (dot :: cs ++ ds), name, arguments, by simpa [keptChildren] using hkept, ?_⟩
    exact .made hof hdots (gives_typeArguments (Grammar.gives_field.mp htypes))

theorem CallShape.isCallFront {object : Option Tree} {between : List Tree} {name arguments : Tree}
    (s : CallShape t object between name arguments) (h : grammar.Licenses t)
    (hc : isCall t = true) : IsCallFront (object.toList ++ between) := by
  obtain ⟨front, _, _, hkept, hfront⟩ := exists_callFront h hc
  rw [s.kept, ← List.append_assoc] at hkept
  rwa [(List.append_inj' hkept rfl).1]

/-- The children of a call that is made on something. -/
structure ReceiverShape (t object : Tree) (dots rest : List Tree) : Prop where
  kept : keptChildren t = object :: (dots ++ rest)
  object_field : object.field = some "object"
  dots : IsDotted dots
  rest_field : ∀ c ∈ rest, c.field ≠ none ∧ c.field ≠ some "object"

theorem exists_receiverShape (h : grammar.Valid t) (hc : isCall t = true) {o : Tree}
    (ho : t.childIn "object" = some o) : ∃ dots rest, ReceiverShape t o dots rest := by
  obtain ⟨-, object, between, name, arguments, s⟩ := exists_callShape h.licenses (eq_of_beq hc)
  obtain rfl : object = some o := (s.childIn_object h).symm.trans ho
  generalize hfront : (some o).toList ++ between = front
  cases hfront ▸ s.isCallFront h.licenses hc with
  | bare => cases hfront
  | @made _ dots types hof hdots htypes =>
    obtain ⟨rfl, rfl⟩ := List.cons_eq_cons.mp hfront
    refine ⟨dots, types ++ [name, arguments], by simpa using s.kept, hof, hdots, fun c hc => ?_⟩
    rcases List.mem_append.mp hc with hc | hc
    · simp [htypes c hc]
    · rcases List.mem_pair.mp hc with rfl | rfl
      · simp [s.name_field]
      · simp [s.arguments_field]

/-- The names that a call is made on: those of its object, and of what stands before its own name
without filling a field. -/
def receiverNames (source : List Char) (t : Tree) : List String :=
  ((keptChildren t).filter fun c => c.field == some "object" || c.field == none).flatMap
    (namesIn source)

namespace ReceiverShape

variable {object : Tree} {dots rest : List Tree}

theorem receiverNames_eq (s : ReceiverShape t object dots rest) (source : List Char) :
    receiverNames source t = namesIn source object ++ dots.flatMap (namesIn source) := by
  have hdots : ∀ c ∈ dots, (c.field == some "object" || c.field == none) = true := by
    intro c hc
    simp [s.dots.field_eq_none hc]
  have hrest : ∀ c ∈ rest, ¬ (c.field == some "object" || c.field == none) = true := by
    intro c hc
    simp [s.rest_field c hc]
  rw [receiverNames, s.kept, List.filter_cons, List.filter_append, List.filter_eq_self.mpr hdots,
    List.filter_eq_nil_iff.mpr hrest]
  simp [s.object_field]

theorem noLooseSuper_iff (s : ReceiverShape t object dots rest) (h : grammar.Valid t) :
    NoLooseSuper t ↔ ∀ c ∈ dots, c.kind = "super" → c.field ≠ none := by
  have hkept : keptChildren t = [object] ++ (dots ++ rest) := s.kept
  apply Java.noLooseSuper_iff h hkept
  intro c hc
  rcases List.mem_append.mp hc with hc | hc
  · simp [List.mem_singleton.mp hc, s.object_field]
  · exact (s.rest_field c hc).1

end ReceiverShape

/-- The qualifier of a call on a path, and when it shows all that the call is made on. -/
theorem qualifier_of_isPath (h : grammar.Valid t) (hc : isCall t = true) {o : Tree}
    (ho : t.childIn "object" = some o) (hp : IsPath o) (source : List Char) :
    (callOf source t).qualifier = some (".".intercalate (namesShown source o)) ∧
      ((callOf source t).qualifier = some (".".intercalate (receiverNames source t)) ↔
        NoQualifiedSuper o ∧ NoLooseSuper t) := by
  have hov : grammar.Valid o := h.of_mem (mem_preorder_of_childIn ho)
  obtain ⟨dots, rest, s⟩ := exists_receiverShape h hc ho
  obtain ⟨hne, r, hr, hdotted⟩ := lower_path hov hp source
  have hqualifier : (callOf source t).qualifier = some (".".intercalate (namesShown source o)) := by
    rw [callOf, ho, Option.bind_some, qualifierOf_eq, hr, Option.map_some, hdotted]
  have hlic : ∀ c ∈ dots, grammar.Licenses c := fun c hc =>
    (h.of_child (mem_children_of_kept s.kept (by simp [hc]))).licenses
  have hsublist := namesShown_sublist hov.licenses source
  refine ⟨hqualifier, ?_⟩
  rw [hqualifier, Option.some_inj, s.receiverNames_eq,
    intercalate_eq_iff (hsublist.trans (List.sublist_append_left _ _)) hne,
    eq_append_iff_of_sublist hsublist, namesShown_eq_iff hov hp,
    s.dots.namesIn_eq_nil_iff hlic source, s.noLooseSuper_iff h]

theorem reference?_eq_some {c : Child} {r : Option String × String} (h : reference? c = some r) :
    c = .node (.reference r.1 r.2) := by
  cases c with
  | node n =>
    cases n with
    | reference q m =>
      cases h
      rfl
    | literal | binary | invocation | other => cases h
  | sequence | token => cases h

theorem spelling_dotted (r : Option String × String) :
    (Node.reference r.1 r.2).spelling = dotted r := by
  rw [Node.spelling_reference, dotted]
  cases r.1 <;> simp

/-- An argument that is a path. -/
theorem IsSpelled.shows {e : Tree} {text : String} (hs : IsSpelled source e text)
    (h : grammar.Valid e) (hp : IsPath e) : Shows source e text := by
  obtain ⟨n, hn, rfl⟩ := hs
  obtain ⟨r, hr, hshows⟩ := shows_dotted h hp source
  cases hn.symm.trans (reference?_eq_some hr)
  rwa [spelling_dotted]

/-- A path, of any length and wherever it stands, is lowered to a reference, which is spelled with
the names of the path that fill a field, in order and with dots between them; and the qualifier of a
call that is recorded from a node on a path is spelled in that way, as are its arguments that are
paths. These are all names of the path, or all that the call is made on, exactly if no `super` is
qualified there. -/
theorem paths_spelled {reading : List Char → Tree} {source label : String}
    {unit : CompilationUnit} (hparse : parseWith reading source label = .ok unit)
    (h : grammar.Valid (reading source.toList)) (fileName : String) :
    let text := source.toList
    let root := reading text
    (∀ e ∈ root.preorder, IsPath e → ∃ q m, lower text e = .node (.reference q m) ∧
      Shows text e (Node.reference q m).spelling) ∧
    ∀ s ∈ (extract unit fileName).methods, ∃ nodes : List Tree,
      List.Forall₂ (fun t call => t ∈ root.preorder ∧ isCall t = true ∧
        call = callOf text t ∧ some call.method = (t.childIn "name").map (nodeText text) ∧
        (∀ o, t.childIn "object" = some o → IsPath o →
          call.qualifier = some (".".intercalate (namesShown text o)) ∧
          (call.qualifier = some (".".intercalate (receiverNames text t)) ↔
            NoQualifiedSuper o ∧ NoLooseSuper t)) ∧
        List.Forall₂ (fun e argument => IsPath e → Shows text e argument)
          (argumentExpressions t) call.arguments) nodes s.calls := by
  intro text root
  obtain ⟨-, rfl⟩ := (parseWith_eq_ok_iff h).mp hparse
  refine ⟨fun e he hp => ?_, fun s hs => ?_⟩
  · obtain ⟨r, hr, hshows⟩ := shows_dotted (h.of_mem he) hp text
    exact ⟨r.1, r.2, reference?_eq_some hr, by rwa [spelling_dotted]⟩
  · obtain ⟨nodes, hnodes, hcalls⟩ := exists_nodes_of_calls h hs
    refine ⟨nodes, ?_⟩
    rw [hcalls, List.forall₂_map_right_iff, List.forall₂_same]
    intro t ht
    obtain ⟨hmem, hc⟩ := hnodes t ht
    have hv := h.of_mem hmem
    refine ⟨hmem, hc, rfl, method_callOf hv hc text,
      fun o ho hp => qualifier_of_isPath hv hc ho hp text, ?_⟩
    obtain ⟨hexpressions, hspelled⟩ := arguments_callOf hv hc text
    refine ((List.forall₂_and_left _ _).mpr ⟨hexpressions, hspelled⟩).imp ?_
    rintro e argument ⟨⟨he, -⟩, hspelling⟩ hp
    exact hspelling.shows (hv.of_mem (mem_preorder_of_mem_preorderList he)) hp

/-! ## Samples -/

/-- A class with one method, and a statement in that, which starts at byte 21. -/
def programAround (statement : Tree) : Tree :=
  let stop := statement.span.stop
  branchAt "program" none 0 (stop + 4) [
    branchAt "class_declaration" none 0 (stop + 4) [
      textAt "class" 0,
      nameAt (some "name") 6,
      branchAt "class_body" (some "body") 8 (stop + 4) [
        textAt "\x7b" 8,
        branchAt "method_declaration" none 10 (stop + 2) [
          .node ⟨"void_type", true, false, false, some "type", ⟨10, 14⟩⟩ [],
          nameAt (some "name") 15,
          branchAt "formal_parameters" (some "parameters") 16 18 [textAt "(" 16, textAt ")" 17],
          branchAt "block" (some "body") 19 (stop + 2) [
            textAt "\x7b" 19, statement, textAt "\x7d" (stop + 1)]],
        textAt "\x7d" (stop + 3)]]]

theorem mem_programAround (statement : Tree) : statement ∈ (programAround statement).preorder := by
  simp [programAround, branchAt, Tree.preorder, Tree.preorderList, Tree.mem_preorder_self]

def pathSource : String := "class A \x7b void m() \x7b a.b.c(d.e, f + g); \x7d \x7d"

def operationTree : Tree :=
  branchAt "binary_expression" none 32 37 [
    nameAt (some "left") 32,
    .node ⟨"+", false, false, false, some "operator", ⟨34, 35⟩⟩ [],
    nameAt (some "right") 36]

/-- The only statement is `a.b.c(d.e, f + g);`. -/
def pathTree : Tree :=
  programAround <| branchAt "expression_statement" none 21 39 [
    branchAt "method_invocation" none 21 38 [
      branchAt "field_access" (some "object") 21 24 [
        nameAt (some "object") 21, textAt "." 22, nameAt (some "field") 23],
      textAt "." 24,
      nameAt (some "name") 25,
      branchAt "argument_list" (some "arguments") 26 38 [
        textAt "(" 26,
        branchAt "field_access" none 27 30 [
          nameAt (some "object") 27, textAt "." 28, nameAt (some "field") 29],
        textAt "," 30,
        operationTree,
        textAt ")" 37]],
    textAt ";" 38]

theorem valid_pathTree : grammar.Valid pathTree := Grammar.valid_of_recognises 8 (by decide +kernel)

theorem parseWith_pathTree : parseWith (fun _ => pathTree) pathSource "" =
    .ok (unitOf pathSource.toList pathTree) := by
  have hnone : firstForbidden pathSource.toList pathTree = none := by decide +kernel
  exact (@parseWith_eq_ok_iff (fun _ => pathTree) pathSource "" valid_pathTree _).mpr ⟨hnone, rfl⟩

/-- What is recorded of its only method. -/
def pathSummary : MethodSummary := ⟨"m", [], [⟨"c", some "a.b", ["d.e", "f + g"]⟩]⟩

theorem pathSummary_mem :
    pathSummary ∈ (extract (unitOf pathSource.toList pathTree) "A.java").methods := by
  have hmethods : (extract (unitOf pathSource.toList pathTree) "A.java").methods =
      [pathSummary] := by decide +kernel
  rw [hmethods]
  exact List.mem_singleton_self _

theorem paths_spelled_sample :
    grammar.Valid pathTree ∧
      parseWith (fun _ => pathTree) pathSource "" = .ok (unitOf pathSource.toList pathTree) ∧
      (∀ e ∈ pathTree.preorder, IsPath e → ∃ q m,
        lower pathSource.toList e = .node (.reference q m) ∧
          Shows pathSource.toList e (Node.reference q m).spelling) ∧
      ∃ s ∈ (extract (unitOf pathSource.toList pathTree) "A.java").methods,
        s.calls = [⟨"c", some "a.b", ["d.e", "f + g"]⟩] ∧ ∃ nodes : List Tree,
          List.Forall₂ (fun t call => t ∈ pathTree.preorder ∧ isCall t = true ∧
            call = callOf pathSource.toList t ∧
            (∀ o, t.childIn "object" = some o → IsPath o →
              call.qualifier = some (".".intercalate (receiverNames pathSource.toList t))) ∧
            List.Forall₂ (fun e argument => IsPath e → Shows pathSource.toList e argument)
              (argumentExpressions t) call.arguments) nodes s.calls := by
  have hplain : ∀ t ∈ pathTree.preorder, NoQualifiedSuper t ∧ NoLooseSuper t := by decide +kernel
  obtain ⟨hpaths, hrecords⟩ := @paths_spelled (fun _ => pathTree) pathSource "" _
    parseWith_pathTree valid_pathTree "A.java"
  obtain ⟨nodes, hnodes⟩ := hrecords _ pathSummary_mem
  refine ⟨valid_pathTree, parseWith_pathTree, hpaths, _, pathSummary_mem, rfl, nodes,
    hnodes.imp ?_⟩
  rintro t call ⟨hmem, hc, hcall, -, hqualifier, harguments⟩
  refine ⟨hmem, hc, hcall, ?_, harguments⟩
  intro o ho hp
  have hobject : o ∈ pathTree.preorder :=
    Tree.mem_preorder_trans hmem (mem_preorder_of_childIn ho)
  exact (hqualifier o ho hp).2.mpr ⟨(hplain o hobject).1, (hplain t hmem).2⟩

def superSource : String := "class A \x7b void m() \x7b A.super.m(A.super.x); \x7d \x7d"

def superAt (start : Nat) : Tree :=
  .node ⟨"super", true, false, false, none, ⟨start, start + 5⟩⟩ []

def superArgument : Tree :=
  branchAt "field_access" none 31 40 [
    nameAt (some "object") 31, textAt "." 32, superAt 33, textAt "." 38, nameAt (some "field") 39]

def superCall : Tree :=
  branchAt "method_invocation" none 21 41 [
    nameAt (some "object") 21, textAt "." 22, superAt 23, textAt "." 28, nameAt (some "name") 29,
    branchAt "argument_list" (some "arguments") 30 41 [
      textAt "(" 30, superArgument, textAt ")" 40]]

/-- The only statement is `A.super.m(A.super.x);`. -/
def superTree : Tree :=
  programAround (branchAt "expression_statement" none 21 42 [superCall, textAt ";" 41])

/-- The call and its argument are made on `A.super`, but neither is shown with `super`. -/
theorem super_lost :
    grammar.Valid superTree ∧ superCall ∈ superTree.preorder ∧ IsPath superArgument ∧
      receiverNames superSource.toList superCall = ["A", "super"] ∧
      namesIn superSource.toList superArgument = ["A", "super", "x"] ∧
      ∃ unit, parseWith (fun _ => superTree) superSource "" = .ok unit ∧
        (extract unit "A.java").methods.map (·.calls) = [[⟨"m", some "A", ["A.x"]⟩]] := by
  have hvalid : grammar.Valid superTree := Grammar.valid_of_recognises 8 (by decide +kernel)
  have hnone : firstForbidden superSource.toList superTree = none := by decide +kernel
  have hpath : IsPath superArgument := by
    refine .access rfl fun c hc hn => .name ?_
    have hkept : keptChildren superArgument = [nameAt (some "object") 31, textAt "." 32,
        superAt 33, textAt "." 38, nameAt (some "field") 39] := rfl
    rw [hkept] at hc
    simp only [List.mem_cons, List.not_mem_nil, or_false] at hc
    rcases hc with rfl | rfl | rfl | rfl | rfl
    · decide
    · cases hn
    · decide
    · cases hn
    · decide
  have hmem : superCall ∈ superTree.preorder :=
    Tree.mem_preorder_trans (mem_programAround _) (Tree.mem_preorder_of_child List.mem_cons_self)
  exact ⟨hvalid, hmem, hpath, by decide +kernel, by decide +kernel, _,
    (@parseWith_eq_ok_iff (fun _ => superTree) superSource "" hvalid _).mpr ⟨hnone, rfl⟩,
    by decide +kernel⟩

end TestConversion.Java
