import TestConversion.Proofs.Java.Admission
import TestConversion.Proofs.Java.Recorded

/-!
# What declarations and names are read from

The parts of a compilation unit in terms of the children of the nodes that they are read from, with
the lists of work gone.

* `segmentsOf_of_other`: the segments of a name are those of its named children.
* `importOf_eq_foldl`, `annotationsOf_eq`: imports and annotations, child by child.
* `reference?_lower`: which trees are lowered to names and paths, and to which ones.
* `length_nodesOf_lower`: how many nodes a tree is lowered to.
* `of_methodOf?_eq_some`, `of_classOf?_eq_some`, `parseWith_eq_ok_iff`: methods, classes and units.
-/

namespace TestConversion.Java

open Text Syntax Code

variable {source : List Char} {t : Tree}

/-! ## Names with dots -/

theorem segmentsOf_of_identifier (source : List Char) (hk : t.kind = "identifier") :
    segmentsOf source t = [nodeText source t] := by
  rw [segmentsOf, segmentsFrom, hk, beq_self_eq_true, if_pos rfl, segmentsFrom]
  rfl

theorem forestSize_namedChildren (t : Tree) (ts : List Tree) :
    forestSize (t.namedChildren ++ ts) < forestSize (t :: ts) := by
  have := forestSize_filter (·.named) t.children
  rw [forestSize_append, forestSize, treeSize_eq, Tree.namedChildren]
  omega

/-- The identifiers of some names are those of each name in turn. -/
theorem segmentsFrom_eq (source : List Char) (found : List String) (ts : List Tree) :
    segmentsFrom source found ts = found.reverse ++ ts.flatMap (segmentsOf source) := by
  induction hn : forestSize ts using Nat.strong_induction_on generalizing found ts with
  | _ n ih =>
    subst hn
    cases ts with
    | nil => simp [segmentsFrom]
    | cons t ts =>
      by_cases hk : t.kind = "identifier"
      · have hlt : forestSize ts < forestSize (t :: ts) := by
          rw [forestSize, treeSize_eq]
          omega
        rw [segmentsFrom, hk, beq_self_eq_true, if_pos rfl, ih _ hlt _ _ rfl, List.flatMap_cons,
          segmentsOf_of_identifier source hk]
        simp
      · have hne : (t.kind == "identifier") = false := beq_eq_false_iff_ne.mpr hk
        have hlt : forestSize (t.namedChildren ++ []) < forestSize (t :: ts) := by
          have := forestSize_namedChildren t []
          simp only [forestSize] at this ⊢
          omega
        have ht : segmentsOf source t = t.namedChildren.flatMap (segmentsOf source) := by
          rw [segmentsOf, segmentsFrom, hne, if_neg Bool.false_ne_true, ih _ hlt _ _ rfl]
          simp
        rw [segmentsFrom, hne, if_neg Bool.false_ne_true,
          ih _ (forestSize_namedChildren t ts) _ _ rfl, List.flatMap_append, List.flatMap_cons, ht]

theorem segmentsOf_of_other (source : List Char) (hk : t.kind ≠ "identifier") :
    segmentsOf source t = t.namedChildren.flatMap (segmentsOf source) := by
  rw [segmentsOf, segmentsFrom, beq_eq_false_iff_ne.mpr hk, if_neg Bool.false_ne_true,
    segmentsFrom_eq]
  simp

/-! ## Imports and annotations -/

/-- What a child of an import adds to it. -/
def importStep (source : List Char) (decl : Import) (c : Tree) : Import :=
  if c.kind == "static" then { decl with isStatic := true }
  else if c.kind == "asterisk" then { decl with isWildcard := true }
  else if c.kind == "identifier" || c.kind == "scoped_identifier" then
    { decl with path := ".".intercalate (segmentsOf source c) }
  else decl

theorem importOf_eq_foldl (source : List Char) (t : Tree) :
    importOf source t = t.children.foldl (importStep source) ⟨"", false, false⟩ :=
  rfl

/-- The annotation that a modifier is. -/
def annotation? (source : List Char) (m : Tree) : Option Annotation :=
  if m.kind == "marker_annotation" || m.kind == "annotation" then
    (m.childIn "name").map fun name => ⟨segmentsOf source name⟩
  else none

theorem annotationsOf_eq (source : List Char) (t : Tree) : annotationsOf source t =
    (t.children.filter fun c => c.kind == "modifiers").flatMap fun modifiers =>
      modifiers.children.flatMap fun m => (annotation? source m).toList := by
  simp only [← List.filterMap_eq_flatMap_toList]
  rfl

/-! ## Names and paths in code -/

/-- The name that a form is, with the path in front of it. -/
def reference? : Child → Option (Option String × String)
  | .node (.reference q m) => some (q, m)
  | _ => none

/-- A name with the path in front of it. -/
def dotted (r : Option String × String) : String :=
  match r.1 with
  | some q => q ++ "." ++ r.2
  | none => r.2

theorem qualifierOf_eq (c : Child) : qualifierOf c = (reference? c).map dotted := by
  cases c with
  | node n =>
    cases n with
    | reference q m => cases q <;> rfl
    | literal | binary | invocation | other => rfl
  | sequence | token => rfl

/-- The name or path that a field access is made on, if the child is one. -/
def base? : Lowered → Option (Option String × String)
  | (some "object", .node (.reference q m)) => some (q, m)
  | _ => none

theorem base?_eq (c : Lowered) :
    base? c = if c.1 == some "object" then reference? c.2 else none := by
  obtain ⟨f, c⟩ := c
  by_cases hf : f = some "object"
  · subst hf
    cases c with
    | node n => cases n <;> rfl
    | sequence | token => rfl
  · rw [base?]
    · simp [hf]
    · rintro q m heq
      exact hf (congrArg Prod.fst heq)

theorem fieldAccess?_eq (source : List Char) (t : Tree) (children : List Lowered) :
    fieldAccess? source t children = (t.childIn "field").bind fun field =>
      (children.findSome? base?).map fun r =>
        .reference (some (dotted r)) (nodeText source field) := by
  rw [fieldAccess?]
  cases t.childIn "field" with
  | none => rfl
  | some field =>
    show (children.findSome? base?).bind _ = _
    cases children.findSome? base? <;> rfl

/-- A lowered tree is a name if the tree is one, or if it is a field of a name or path. -/
theorem reference?_lower (source : List Char) (t : Tree) : reference? (lower source t) =
    if !t.named || literalKinds.contains t.kind then none
    else if nameKinds.contains t.kind then some (none, nodeText source t)
    else if t.kind == "field_access" then
      ((t.childIn "field").map (nodeText source)).bind fun last =>
        ((keptChildren t).findSome? (base? ∘ lowered source)).map fun r => (some (dotted r), last)
    else none := by
  refine lower_cases source t (motive := fun c => reference? c = _)
    ?token ?literal ?name ?sequence ?other
  case token =>
    intro hn
    rw [hn]
    rfl
  case literal =>
    intro hn hl
    rw [hn, hl]
    rfl
  case name =>
    intro hn hl hk
    rw [hn, hl, hk]
    rfl
  case sequence =>
    intro hn hl hk hs
    have hne : t.kind ≠ "field_access" := by
      intro hfield
      rw [hfield] at hs
      exact absurd hs (by decide +kernel)
    rw [hn, hl, hk, beq_eq_false_iff_ne.mpr hne]
    rfl
  case other =>
    intro hn hl hk _
    rw [hn, hl, hk]
    by_cases hfield : t.kind = "field_access"
    · rw [ownForm?, fieldAccess?_eq, List.findSome?_map, hfield, beq_self_eq_true, if_pos rfl]
      cases t.childIn "field" with
      | none => rfl
      | some field => cases (keptChildren t).findSome? (base? ∘ lowered source) <;> rfl
    · rw [beq_eq_false_iff_ne.mpr hfield]
      cases hform : ownForm? source t with
      | none => rfl
      | some n =>
        rcases ownForm?_cases hform with ⟨hk, -⟩ | ⟨-, _, _, _, rfl⟩ | ⟨-, _, rfl⟩
        · exact absurd hk hfield
        · rfl
        · rfl

/-! ## Numbers of nodes -/

theorem sequenceKinds_of_atom {kind : String}
    (h : (literalKinds.contains kind || nameKinds.contains kind) = true) :
    sequenceKinds.contains kind = false := by
  have hall : (literalKinds ++ nameKinds).all (fun k => !sequenceKinds.contains k) = true := by
    decide +kernel
  have hmem : kind ∈ literalKinds ++ nameKinds := by
    simpa [List.contains_iff_mem, List.mem_append] using h
  have := List.all_eq_true.mp hall _ hmem
  rwa [Bool.not_eq_true'] at this

/-- How many nodes a tree is lowered to. -/
theorem length_nodesOf_lower (source : List Char) (t : Tree) :
    (nodesOf (lower source t)).length =
      if !t.named then 0
      else if sequenceKinds.contains t.kind then
        ((keptChildren t).flatMap fun c => nodesOf (lower source c)).length
      else 1 := by
  refine lower_cases source t (motive := fun c => (nodesOf c).length = _)
    ?token ?literal ?name ?sequence ?other
  case token =>
    intro hn
    rw [hn]
    rfl
  case literal =>
    intro hn hl
    rw [hn, sequenceKinds_of_atom (by rw [hl, Bool.true_or])]
    rfl
  case name =>
    intro hn _ hk
    rw [hn, sequenceKinds_of_atom (by rw [hk, Bool.or_true])]
    rfl
  case sequence =>
    intro hn hl hk hs
    rw [hn, hs]
    rfl
  case other =>
    intro hn hl hk hs
    rw [hn, hs]
    rfl

theorem length_arguments_callOf (source : List Char) (t : Tree) :
    (callOf source t).arguments.length =
      ((t.childIn "arguments").map fun a => (nodesOf (lower source a)).length).getD 0 := by
  simp only [callOf]
  cases t.childIn "arguments" with
  | none => rfl
  | some a => exact List.length_map _

/-! ## Methods and classes -/

/-- What a method is read from. -/
theorem of_methodOf?_eq_some {m : Method} (h : methodOf? source t = some m) :
    (t.childIn "name").map (nodeText source) = some m.name ∧
      m.annotations = annotationsOf source t := by
  obtain ⟨name, hname, h⟩ := Option.bind_eq_some_iff.mp h
  cases h
  rw [hname]
  exact ⟨rfl, rfl⟩

theorem callsOf_eq_getD {m : Method} (h : methodOf? source t = some m) : callsOf m =
    ((t.childIn "body").map fun b => (lower source b).callsWithin .record).getD [] := by
  cases hb : t.childIn "body" with
  | some b => exact callsOf_methodOf? h hb
  | none =>
    rw [methodOf?, hb] at h
    obtain ⟨name, -, h⟩ := Option.bind_eq_some_iff.mp h
    cases h
    rfl

/-- The members of a class. -/
def membersOf (t : Tree) : List Tree := ((t.childIn "body").map methodNodes).getD []

theorem kind_of_mem_membersOf {m : Tree} (h : m ∈ membersOf t) : m.kind = "method_declaration" := by
  rw [membersOf] at h
  cases hb : t.childIn "body" with
  | none =>
    rw [hb] at h
    cases h
  | some body =>
    rw [hb] at h
    exact eq_of_beq (List.mem_filter.mp h).2

theorem of_classOf?_eq_some {c : TestClass} (h : classOf? source t = some c) :
    (t.childIn "name").map (nodeText source) = some c.name ∧
      c.methods = (membersOf t).filterMap (methodOf? source) := by
  obtain ⟨name, hname, h⟩ := Option.bind_eq_some_iff.mp h
  cases h
  rw [hname, membersOf]
  cases t.childIn "body" <;> exact ⟨rfl, rfl⟩

theorem classOf?_isSome (source : List Char) (h : (t.childIn "name").isSome = true) :
    ∃ c, classOf? source t = some c := by
  obtain ⟨name, hname⟩ := Option.isSome_iff_exists.mp h
  rw [classOf?, hname]
  exact ⟨_, rfl⟩

/-! ## Texts -/

theorem parseWith_eq_ok_iff {reading : List Char → Tree} {source label : String}
    (h : grammar.Valid (reading source.toList)) {unit : CompilationUnit} :
    parseWith reading source label = .ok unit ↔
      firstForbidden source.toList (reading source.toList) = none ∧
        unit = unitOf source.toList (reading source.toList) := by
  have hp := problemOf_of_valid h source.toList
  cases hf : firstForbidden source.toList (reading source.toList) with
  | some c =>
    rw [hf] at hp
    simp [parseWith_of_problem hp]
  | none =>
    rw [hf] at hp
    simp [parseWith_of_none hp, eq_comm]

end TestConversion.Java
