import TestConversion.Java.Grammar
import TestConversion.Java.Lowering
import TestConversion.Proofs.Syntax.Validity

/-!
# Shapes of Java trees

What licensed nodes of the kinds that are read in a way of their own have as children.

* `exists_callShape`: calls.
* `exists_binaryShape`: binary operations.
* `exists_accessShape`: field accesses.
* `method_name_isSome`, `class_name_isSome`: declarations.
* `problemOf_of_valid`: valid trees have no errors.
-/

namespace TestConversion.Java

open Syntax
open Syntax.Rule (seqs choices optional)

/-! ## Expressions and words -/

/-- Nodes of this kind are neither sequences nor class bodies. -/
def isNodeKind (kind : String) : Bool := !sequenceKinds.contains kind && kind != "class_body"

structure IsExpression (t : Tree) : Prop where
  named : t.named = true
  kind : isNodeKind t.kind = true

/-- A name, or a token without a name of its own. -/
def IsWord (t : Tree) : Prop := t.named = false ∨ nameKinds.contains t.kind = true

variable {n : String} {k f : Option String} {t : Tree} {ts : List Tree}

theorem gives_symbol (h : grammar.Gives (.sym n) k f ts) (hn : grammar.isSilent n = false) :
    ∃ t, ts = [t] ∧ t.IsNode (k.getD n) true f :=
  (Grammar.gives_sym_of_not_silent hn).mp h

theorem gives_expression (h : grammar.Gives (.sym "expression") none f ts) :
    ∃ t, ts = [t] ∧ IsExpression t ∧ t.field = f := by
  obtain ⟨t, kind, rfl, hk, ht⟩ := h.of_soleKinds_all 4 (p := isNodeKind)
    (by decide +kernel)
  exact ⟨t, rfl, ⟨ht.named, by rw [ht.kind, hk]⟩, ht.field⟩

/-- What stands before a dot. -/
theorem gives_object
    (h : grammar.Gives (.choice (.sym "primary_expression") (.sym "super")) none f ts) :
    ∃ t, ts = [t] ∧ IsExpression t ∧ t.field = f := by
  obtain ⟨t, kind, rfl, hk, ht⟩ := h.of_soleKinds_all 4 (p := isNodeKind)
    (by decide +kernel)
  exact ⟨t, rfl, ⟨ht.named, by rw [ht.kind, hk]⟩, ht.field⟩

theorem gives_name
    (h : grammar.Gives (.choice (.sym "identifier") (.sym "_reserved_identifier")) none f ts) :
    ∃ t, ts = [t] ∧ t.kind = "identifier" ∧ t.field = f := by
  obtain ⟨t, kind, rfl, hk, ht⟩ := h.of_soleKinds_all 2
    (p := fun kind => kind == "identifier") (by decide +kernel)
  exact ⟨t, rfl, by rw [ht.kind, eq_of_beq hk], ht.field⟩

theorem gives_super (h : grammar.Gives (.sym "super") none none ts) :
    ∃ t, ts = [t] ∧ IsWord t ∧ t.field = none := by
  obtain ⟨t, rfl, ht⟩ := gives_symbol h (by decide +kernel)
  exact ⟨t, rfl, Or.inr (by rw [ht.kind]; decide +kernel), ht.field⟩

theorem gives_text {s : String} (h : grammar.Gives (.token s) none f ts) :
    ∃ t, ts = [t] ∧ t.named = false ∧ t.field = f := by
  obtain ⟨t, rfl, ht⟩ := Grammar.gives_token.mp h
  exact ⟨t, rfl, ht.named, ht.field⟩

/-! ## Calls -/

/-- The children of a call: what it is made on, if anything, its name and its arguments. Between
them are only words and type arguments. -/
structure CallShape (t : Tree) (object : Option Tree) (between : List Tree)
    (name arguments : Tree) : Prop where
  kept : keptChildren t = object.toList ++ (between ++ [name, arguments])
  object_field : ∀ o ∈ object, o.field = some "object"
  object_expression : ∀ o ∈ object, IsExpression o
  between_field : ∀ c ∈ between, c.field = none ∧ IsWord c ∨ c.field = some "type_arguments"
  name_field : name.field = some "name"
  name_kind : name.kind = "identifier"
  arguments_field : arguments.field = some "arguments"
  arguments_named : arguments.named = true
  arguments_kind : arguments.kind = "argument_list"

theorem rule_method_invocation : grammar.rule? "method_invocation" = some (.seq
    (.choice
      (.field "name" (.choice (.sym "identifier") (.sym "_reserved_identifier")))
      (.seq (.field "object" (.choice (.sym "primary_expression") (.sym "super")))
        (.seq (.token ".")
          (.seq (.choice (.seq (.sym "super") (.token ".")) .blank)
            (.seq (.field "type_arguments" (.choice (.sym "type_arguments") .blank))
              (.field "name" (.choice (.sym "identifier") (.sym "_reserved_identifier"))))))))
    (.field "arguments" (.sym "argument_list"))) := by
  rfl

/-- The dot, and perhaps `super` and one more dot. -/
theorem gives_dots (h : grammar.Gives (.choice (.seq (.sym "super") (.token ".")) .blank)
    none none ts) : ∀ t ∈ ts, t.field = none ∧ IsWord t := by
  rcases Grammar.gives_choice.mp h with h | h
  · obtain ⟨as, bs, rfl, ha, hb⟩ := Grammar.gives_seq.mp h
    obtain ⟨a, rfl, hword, hfield⟩ := gives_super ha
    obtain ⟨b, rfl, hnamed, hfield'⟩ := gives_text hb
    intro t ht
    rcases List.mem_pair.mp ht with rfl | rfl
    · exact ⟨hfield, hword⟩
    · exact ⟨hfield', Or.inl hnamed⟩
  · obtain rfl := Grammar.gives_blank.mp h
    simp

theorem gives_typeArguments (h : grammar.Gives (.choice (.sym "type_arguments") .blank)
    none (some "type_arguments") ts) : ∀ t ∈ ts, t.field = some "type_arguments" := by
  rcases Grammar.gives_choice.mp h with h | h
  · obtain ⟨t, rfl, ht⟩ := gives_symbol h (by decide +kernel)
    intro u hu
    cases List.mem_singleton.mp hu
    exact ht.field
  · obtain rfl := Grammar.gives_blank.mp h
    simp

theorem exists_callShape (h : grammar.Licenses t) (hk : t.kind = "method_invocation") :
    t.named = true ∧ ∃ object between name arguments,
      CallShape t object between name arguments := by
  obtain ⟨-, hn, hg⟩ := h.gives (by rw [hk]; decide +kernel)
    (by rw [hk]; exact rule_method_invocation)
  refine ⟨hn, ?_⟩
  obtain ⟨front, back, hkept, hfront, hback⟩ := Grammar.gives_seq.mp hg
  obtain ⟨arguments, rfl, ha⟩ := gives_symbol (Grammar.gives_field.mp hback) (by decide +kernel)
  rcases Grammar.gives_choice.mp hfront with hfront | hfront
  · obtain ⟨name, rfl, hkind, hfield⟩ := gives_name (Grammar.gives_field.mp hfront)
    exact ⟨none, [], name, arguments, {
      kept := hkept
      object_field := by simp
      object_expression := by simp
      between_field := by simp
      name_field := hfield
      name_kind := hkind
      arguments_field := ha.field
      arguments_named := ha.named
      arguments_kind := ha.kind }⟩
  · obtain ⟨as, _, rfl, hobject, h⟩ := Grammar.gives_seq.mp hfront
    obtain ⟨bs, _, rfl, hdot, h⟩ := Grammar.gives_seq.mp h
    obtain ⟨cs, _, rfl, hdots, h⟩ := Grammar.gives_seq.mp h
    obtain ⟨ds, es, rfl, htypes, hname⟩ := Grammar.gives_seq.mp h
    obtain ⟨object, rfl, hexpr, hfield⟩ := gives_object (Grammar.gives_field.mp hobject)
    obtain ⟨dot, rfl, hnamed, hdotField⟩ := gives_text hdot
    obtain ⟨name, rfl, hkind, hnameField⟩ := gives_name (Grammar.gives_field.mp hname)
    refine ⟨some object, dot :: (cs ++ ds), name, arguments, {
      kept := by simpa [keptChildren] using hkept
      object_field := by simpa using hfield
      object_expression := by simpa using hexpr
      between_field := ?_
      name_field := hnameField
      name_kind := hkind
      arguments_field := ha.field
      arguments_named := ha.named
      arguments_kind := ha.kind }⟩
    intro c hc
    rcases List.mem_cons.mp hc with rfl | hc
    · exact Or.inl ⟨hdotField, Or.inl hnamed⟩
    · rcases List.mem_append.mp hc with hc | hc
      · exact Or.inl (gives_dots hdots c hc)
      · exact Or.inr (gives_typeArguments (Grammar.gives_field.mp htypes) c hc)

/-! ## Binary operations -/

structure BinaryShape (t left operator right : Tree) : Prop where
  kept : keptChildren t = [left, operator, right]
  left_field : left.field = some "left"
  left_expression : IsExpression left
  operator_field : operator.field = some "operator"
  operator_named : operator.named = false
  right_field : right.field = some "right"
  right_expression : IsExpression right

/-- An operation for each operator. -/
theorem rule_binary_expression : ∃ os : List (String × Int), os ≠ [] ∧
    grammar.rule? "binary_expression" = some (choices (os.map fun o =>
      .level (some .left) o.2 (.seq (.field "left" (.sym "expression"))
        (.seq (.field "operator" (.token o.1)) (.field "right" (.sym "expression")))))) :=
  ⟨[(">", 10), ("<", 10), (">=", 10), ("<=", 10), ("==", 9), ("!=", 9), ("&&", 5), ("||", 4),
    ("+", 12), ("-", 12), ("*", 13), ("/", 13), ("&", 8), ("|", 6), ("^", 7), ("%", 13),
    ("<<", 11), (">>", 11), (">>>", 11)], List.cons_ne_nil _ _, rfl⟩

theorem exists_of_gives_choices {g : Grammar} {rs : List Rule} {k f : Option String}
    {ts : List Tree} (h : g.Gives (choices rs) k f ts) (hne : rs ≠ []) :
    ∃ r ∈ rs, g.Gives r k f ts := by
  induction rs with
  | nil => exact absurd rfl hne
  | cons r rs ih =>
    cases rs with
    | nil => exact ⟨r, List.mem_cons_self, h⟩
    | cons s rs =>
      rcases Grammar.gives_choice.mp h with h | h
      · exact ⟨r, List.mem_cons_self, h⟩
      · obtain ⟨q, hq, h⟩ := ih h (List.cons_ne_nil s rs)
        exact ⟨q, List.mem_cons_of_mem r hq, h⟩

theorem exists_binaryShape (h : grammar.Licenses t) (hk : t.kind = "binary_expression") :
    t.named = true ∧ ∃ left operator right, BinaryShape t left operator right := by
  obtain ⟨os, hne, hr⟩ := rule_binary_expression
  obtain ⟨-, hn, hg⟩ := h.gives (by rw [hk]; decide +kernel) (by rw [hk]; exact hr)
  obtain ⟨_, hr, hg⟩ := exists_of_gives_choices hg (by simpa using hne)
  obtain ⟨o, -, rfl⟩ := List.mem_map.mp hr
  obtain ⟨as, _, hkept, hleft, hg⟩ := Grammar.gives_seq.mp (Grammar.gives_level.mp hg)
  obtain ⟨bs, cs, rfl, hop, hright⟩ := Grammar.gives_seq.mp hg
  obtain ⟨left, rfl, hl, hlf⟩ := gives_expression (Grammar.gives_field.mp hleft)
  obtain ⟨operator, rfl, ho, hof⟩ := gives_text (Grammar.gives_field.mp hop)
  obtain ⟨right, rfl, hr, hrf⟩ := gives_expression (Grammar.gives_field.mp hright)
  exact ⟨hn, left, operator, right, {
    kept := hkept
    left_field := hlf
    left_expression := hl
    operator_field := hof
    operator_named := ho
    right_field := hrf
    right_expression := hr }⟩

/-! ## Field accesses -/

/-- The children of a field access: what it is made on, and words. -/
structure AccessShape (t object : Tree) (rest : List Tree) : Prop where
  kept : keptChildren t = object :: rest
  object_field : object.field = some "object"
  rest_words : ∀ c ∈ rest, IsWord c ∧ c.field ≠ some "object"

theorem rule_field_access : grammar.rule? "field_access" = some (
    .seq (.field "object" (.choice (.sym "primary_expression") (.sym "super")))
      (.seq (.choice (.seq (.token ".") (.sym "super")) .blank)
        (.seq (.token ".")
          (.field "field" (.choice (.sym "identifier")
            (.choice (.sym "_reserved_identifier") (.sym "this"))))))) := by
  rfl

/-- The name of a field. -/
theorem gives_fieldName (h : grammar.Gives
    (.choice (.sym "identifier") (.choice (.sym "_reserved_identifier") (.sym "this")))
    none f ts) : ∃ t, ts = [t] ∧ IsWord t ∧ t.field = f := by
  obtain ⟨t, kind, rfl, hk, ht⟩ := h.of_soleKinds_all 2
    (p := fun kind => nameKinds.contains kind) (by decide +kernel)
  exact ⟨t, rfl, Or.inr (by rw [ht.kind, hk]), ht.field⟩

theorem exists_accessShape (h : grammar.Licenses t) (hk : t.kind = "field_access") :
    t.named = true ∧ ∃ object rest, AccessShape t object rest := by
  obtain ⟨-, hn, hg⟩ := h.gives (by rw [hk]; decide +kernel)
    (by rw [hk]; exact rule_field_access)
  obtain ⟨as, _, hkept, hobject, hg⟩ := Grammar.gives_seq.mp hg
  obtain ⟨bs, _, rfl, hsuper, hg⟩ := Grammar.gives_seq.mp hg
  obtain ⟨cs, ds, rfl, hdot, hfield⟩ := Grammar.gives_seq.mp hg
  obtain ⟨object, rfl, -, hof⟩ := gives_object (Grammar.gives_field.mp hobject)
  obtain ⟨dot, rfl, hdn, hdf⟩ := gives_text hdot
  obtain ⟨name, rfl, hnw, hnf⟩ := gives_fieldName (Grammar.gives_field.mp hfield)
  have hbs : ∀ c ∈ bs, IsWord c ∧ c.field = none := by
    rcases Grammar.gives_choice.mp hsuper with h | h
    · obtain ⟨us, vs, rfl, hu, hv⟩ := Grammar.gives_seq.mp h
      obtain ⟨u, rfl, hun, huf⟩ := gives_text hu
      obtain ⟨v, rfl, hvw, hvf⟩ := gives_super hv
      intro c hc
      rcases List.mem_pair.mp hc with rfl | rfl
      · exact ⟨Or.inl hun, huf⟩
      · exact ⟨hvw, hvf⟩
    · obtain rfl := Grammar.gives_blank.mp h
      simp
  refine ⟨hn, object, bs ++ ([dot] ++ [name]), hkept, hof, fun c hc => ?_⟩
  rcases List.mem_append.mp hc with hc | hc
  · obtain ⟨hw, hf⟩ := hbs c hc
    exact ⟨hw, by rw [hf]; simp⟩
  · rcases List.mem_pair.mp hc with rfl | rfl
    · exact ⟨Or.inl hdn, by rw [hdf]; simp⟩
    · exact ⟨hnw, by rw [hnf]; simp⟩

/-! ## Declarations -/

theorem childIn_isSome {c t : Tree} {field : String} (hc : c ∈ keptChildren t)
    (hf : c.field = some field) : (t.childIn field).isSome = true := by
  rw [Tree.childIn, List.find?_isSome]
  exact ⟨c, List.mem_of_mem_filter hc, by rw [hf]; exact beq_self_eq_true _⟩

/-- The rules of methods as far as their names. -/
theorem rules_method : ∃ a b c d e f, grammar.rule? "method_declaration" =
      some (.seq a (.seq (.sym "_method_header") b)) ∧
    grammar.rule? "_method_header" =
      some (.seq c (.seq d (.seq (.sym "_method_declarator") e))) ∧
    grammar.rule? "_method_declarator" =
      some (.seq (.field "name" (.choice (.sym "identifier") (.sym "_reserved_identifier"))) f) :=
  ⟨_, _, _, _, _, _, rfl, rfl, rfl⟩

theorem method_name_isSome (h : grammar.Licenses t) (hk : t.kind = "method_declaration") :
    (t.childIn "name").isSome = true := by
  obtain ⟨_, _, _, _, _, _, hr, hheader, hdeclarator⟩ := rules_method
  obtain ⟨-, -, hg⟩ := h.gives (by rw [hk]; decide +kernel) (by rw [hk]; exact hr)
  obtain ⟨as, _, hkept, -, hg⟩ := Grammar.gives_seq.mp hg
  obtain ⟨bs, cs, rfl, hg, -⟩ := Grammar.gives_seq.mp hg
  rw [Grammar.gives_sym_of_silent (by decide +kernel) (by decide +kernel) hheader] at hg
  obtain ⟨ds, _, rfl, -, hg⟩ := Grammar.gives_seq.mp hg
  obtain ⟨es, _, rfl, -, hg⟩ := Grammar.gives_seq.mp hg
  obtain ⟨fs, gs, rfl, hg, -⟩ := Grammar.gives_seq.mp hg
  rw [Grammar.gives_sym_of_silent (by decide +kernel) (by decide +kernel) hdeclarator] at hg
  obtain ⟨is, js, rfl, hg, -⟩ := Grammar.gives_seq.mp hg
  obtain ⟨name, rfl, -, hf⟩ := gives_name (Grammar.gives_field.mp hg)
  refine childIn_isSome (c := name) ?_ hf
  rw [keptChildren, hkept]
  simp

theorem rule_class_declaration : ∃ a b c, grammar.rule? "class_declaration" =
    some (.seq a (.seq b (.seq (.field "name" (.sym "identifier")) c))) :=
  ⟨_, _, _, rfl⟩

theorem class_name_isSome (h : grammar.Licenses t) (hk : t.kind = "class_declaration") :
    (t.childIn "name").isSome = true := by
  obtain ⟨_, _, _, hr⟩ := rule_class_declaration
  obtain ⟨-, -, hg⟩ := h.gives (by rw [hk]; decide +kernel) (by rw [hk]; exact hr)
  obtain ⟨as, _, hkept, -, hg⟩ := Grammar.gives_seq.mp hg
  obtain ⟨bs, _, rfl, -, hg⟩ := Grammar.gives_seq.mp hg
  obtain ⟨cs, ds, rfl, hg, -⟩ := Grammar.gives_seq.mp hg
  obtain ⟨name, rfl, hn⟩ := gives_symbol (Grammar.gives_field.mp hg) (by decide +kernel)
  refine childIn_isSome (c := name) ?_ hn.field
  rw [keptChildren, hkept]
  simp

/-! ## Errors -/

/-- A valid tree is turned down for nothing but constructs that Java does not allow. -/
theorem problemOf_of_valid (h : grammar.Valid t) (source : List Char) :
    problemOf source t = (firstForbidden source t).map fun c =>
      .forbidden (shownText source c) (placeOfNode source c) := by
  have hg : "ERROR" ∉ grammar.kinds := by decide +kernel
  rw [problemOf, h.hasError_eq_false hg]
  rfl

end TestConversion.Java
