import TestConversion.Proofs.Java.Transcripts

/-!
# What the metadata depend on

The metadata tell the imports and the methods that stand directly in the body of the first class at
the top of a file. So edits of anything else change nothing in them: of the other members of that
class, of the classes behind it, and of all other declarations at the top.

* `segmentsOf_eq`, `exists_annotationName`: annotations.
* `isSummaryOf_summaryOf`: what a method is recorded as.
* `Edited`, `EditedUnit`: edits of members and of declarations.
* `metadata_of_first_class`: what the metadata tell, and the edits that do not change them.
-/

namespace TestConversion.Java

open Text Syntax Code

variable {source source' : List Char} {root root' t t' : Tree}

/-! ## Annotations -/

/-- The identifiers in a tree. -/
def identifiersIn (t : Tree) : List Tree := t.preorder.filter fun n => n.kind == "identifier"

theorem identifiersIn_eq (t : Tree) : identifiersIn t =
    (if t.kind = "identifier" then [t] else []) ++ t.children.flatMap identifiersIn := by
  have hbelow : (t.children.flatMap Tree.preorder).filter (fun n => n.kind == "identifier") =
      t.children.flatMap identifiersIn :=
    List.filter_flatMap
  rw [identifiersIn, Tree.preorder_eq, List.filter_cons, Tree.preorderList_eq_flatMap, hbelow]
  by_cases hk : t.kind = "identifier" <;> simp [hk]

theorem identifiersIn_of_not_named (h : grammar.Licenses t) (hn : t.named = false) :
    identifiersIn t = [] := by
  have hwords : "identifier" ∉ grammar.texts := by decide +kernel
  obtain ⟨hchildren, htext⟩ := h.children_of_not_named hn
  have hk : t.kind ≠ "identifier" := fun hk => hwords (hk ▸ htext)
  rw [identifiersIn_eq, if_neg hk, hchildren]
  rfl

/-- The segments of a name are the identifiers in it. -/
theorem segmentsOf_eq (h : grammar.Valid t) (source : List Char) :
    segmentsOf source t = (identifiersIn t).map (nodeText source) := by
  induction t using Tree.induction with
  | node t ih =>
    rw [identifiersIn_eq]
    by_cases hk : t.kind = "identifier"
    · have hleaf := (h.licenses.of_isLeaf (isLeaf_of_nameKinds (by rw [hk]; decide +kernel))).1
      rw [segmentsOf_of_identifier source hk, if_pos hk, hleaf]
      rfl
    · rw [segmentsOf_of_other source hk, if_neg hk, List.nil_append, List.map_flatMap,
        Tree.namedChildren, flatMap_filter]
      refine List.flatMap_congr fun c hc => ?_
      cases hn : c.named with
      | true => exact ih c hc (h.of_child hc)
      | false =>
        rw [identifiersIn_of_not_named (h.of_child hc).licenses hn]
        rfl

/-- The annotations among the modifiers of a method. -/
def annotationNodes (m : Tree) : List Tree :=
  (m.children.filter fun c => c.kind == "modifiers").flatMap fun modifiers =>
    modifiers.children.filter fun a => a.kind == "marker_annotation" || a.kind == "annotation"

theorem gives_dottedName {f : Option String} {ts : List Tree}
    (h : grammar.Gives (.sym "_name") none f ts) : ∃ t, ts = [t] ∧ t.field = f := by
  obtain ⟨t, kind, rfl, -, ht⟩ := h.of_soleKinds_all 4 (p := fun _ => true) (by decide +kernel)
  exact ⟨t, rfl, ht.field⟩

theorem rules_annotation : ∃ a b, grammar.rule? "marker_annotation" =
      some (.seq a (.field "name" (.sym "_name"))) ∧
    grammar.rule? "annotation" = some (.seq a (.seq (.field "name" (.sym "_name")) b)) :=
  ⟨_, _, rfl, rfl⟩

theorem annotation_name_isSome (h : grammar.Licenses t)
    (hk : t.kind = "marker_annotation" ∨ t.kind = "annotation") :
    (t.childIn "name").isSome = true := by
  obtain ⟨a, b, hmarker, hfull⟩ := rules_annotation
  rcases hk with hk | hk
  · obtain ⟨-, -, hg⟩ := h.gives (by rw [hk]; decide +kernel) (by rw [hk]; exact hmarker)
    obtain ⟨as, bs, hkept, -, hg⟩ := Grammar.gives_seq.mp hg
    obtain ⟨name, rfl, hf⟩ := gives_dottedName (Grammar.gives_field.mp hg)
    refine childIn_isSome (c := name) ?_ hf
    rw [keptChildren, hkept]
    simp
  · obtain ⟨-, -, hg⟩ := h.gives (by rw [hk]; decide +kernel) (by rw [hk]; exact hfull)
    obtain ⟨as, _, hkept, -, hg⟩ := Grammar.gives_seq.mp hg
    obtain ⟨bs, cs, rfl, hg, -⟩ := Grammar.gives_seq.mp hg
    obtain ⟨name, rfl, hf⟩ := gives_dottedName (Grammar.gives_field.mp hg)
    refine childIn_isSome (c := name) ?_ hf
    rw [keptChildren, hkept]
    simp

/-- The text is the whole name of an annotation. -/
def IsAnnotationName (source : List Char) (a : Tree) (text : String) : Prop :=
  ∃ name, a.childIn "name" = some name ∧
    text = ".".intercalate ((identifiersIn name).map (nodeText source))

theorem annotations_of_modifiers {cs : List Tree} (h : ∀ c ∈ cs, grammar.Valid c)
    (source : List Char) :
    List.Forall₂ (IsAnnotationName source)
      (cs.filter fun a => a.kind == "marker_annotation" || a.kind == "annotation")
      ((cs.flatMap fun a => (annotation? source a).toList).map Annotation.name) := by
  induction cs with
  | nil => exact .nil
  | cons c cs ih =>
    have ih := ih fun d hd => h d (List.mem_cons_of_mem c hd)
    have hc := h c List.mem_cons_self
    rw [List.filter_cons, List.flatMap_cons, annotation?]
    split
    · rename_i hk
      obtain ⟨name, hname⟩ := Option.isSome_iff_exists.mp
        (annotation_name_isSome hc.licenses (by simpa using hk))
      rw [hname]
      refine .cons ⟨name, hname, ?_⟩ ih
      rw [← segmentsOf_eq (hc.of_child (List.mem_of_find?_eq_some hname))]
      rfl
    · exact ih

/-- The annotations of a method are those among its modifiers, under their whole names. -/
theorem annotations_eq (h : grammar.Valid t) (source : List Char) :
    List.Forall₂ (IsAnnotationName source) (annotationNodes t)
      ((annotationsOf source t).map Annotation.name) := by
  rw [annotationsOf_eq, annotationNodes, List.map_flatMap]
  refine List.rel_flatMap (R := fun m m' => m = m' ∧ grammar.Valid m) ?_ ?_
  · exact List.forall₂_same.mpr fun m hm => ⟨rfl, h.of_child (List.mem_of_mem_filter hm)⟩
  · rintro m _ ⟨rfl, hm⟩
    exact annotations_of_modifiers (fun c hc => hm.of_child hc) source

/-! ## Methods -/

/-- What a method is recorded as: its name, the names of its annotations, and calls in its body. -/
structure IsSummaryOf (source : List Char) (m : Tree) (s : MethodSummary) : Prop where
  name : (m.childIn "name").map (nodeText source) = some s.name
  annotations : List.Forall₂ (IsAnnotationName source) (annotationNodes m) s.annotations
  bodiless : m.childIn "body" = none → s.calls = []
  calls : ∃ nodes : List Tree, s.calls = nodes.map (callOf source) ∧ ∀ n ∈ nodes,
    n.kind = "method_invocation" ∧ ∃ b, m.childIn "body" = some b ∧ n ∈ b.preorder

theorem isSummaryOf_summaryOf {m : Method} (h : grammar.Valid t)
    (hm : methodOf? source t = some m) : IsSummaryOf source t (summaryOf m) := by
  obtain ⟨hname, hannotations⟩ := of_methodOf?_eq_some hm
  have hbodiless : t.childIn "body" = none → (summaryOf m).calls = [] := by
    intro hb
    rw [summaryOf, callsOf_eq_getD hm, hb]
    rfl
  refine ⟨hname, ?_, hbodiless, ?_⟩
  · rw [summaryOf, hannotations]
    exact annotations_eq h source
  · cases hb : t.childIn "body" with
    | none => exact ⟨[], hbodiless hb, by simp⟩
    | some b =>
      refine ⟨(treeBranching.actions .record b).map Prod.snd, ?_, ?_⟩
      · rw [calls_methodOf? hm hb (h.of_child (List.mem_of_find?_eq_some hb)), List.map_map]
        rfl
      · intro n hn
        obtain ⟨⟨p, n⟩, hp, rfl⟩ := List.mem_map.mp hn
        obtain ⟨hmem, hcall⟩ := isCall_of_mem_actions hp
        exact ⟨eq_of_beq hcall, b, rfl, hmem⟩

/-! ## The first class -/

/-- The methods that stand directly in the body of a class. -/
def methodsIn (c : Tree) : List Tree :=
  ((c.childIn "body").map fun b =>
    b.children.filter fun m => m.kind == "method_declaration").getD []

/-- The first class at the top of a tree. -/
def topClass? (root : Tree) : Option Tree :=
  root.children.find? fun c => c.kind == "class_declaration"

theorem filter_namedChildren_eq {kind : String} (h : grammar.Valid t) (hb : grammar.isBranch kind)
    {r : Rule} (hr : grammar.rule? kind = some r) :
    (t.namedChildren.filter fun c => c.kind == kind) =
      t.children.filter fun c => c.kind == kind := by
  rw [Tree.namedChildren, List.filter_filter]
  refine List.filter_congr fun c hc => ?_
  cases hk : c.kind == kind with
  | false => rfl
  | true =>
    have hk := eq_of_beq hk
    rw [((h.of_child hc).licenses.gives (hk ▸ hb) (hk ▸ hr)).2.1]
    rfl

theorem membersOf_eq (h : grammar.Valid t) : membersOf t = methodsIn t := by
  obtain ⟨_, _, _, _, _, _, hr, -⟩ := rules_method
  rw [membersOf, methodsIn]
  cases hb : t.childIn "body" with
  | none => rfl
  | some b =>
    exact filter_namedChildren_eq (h.of_child (List.mem_of_find?_eq_some hb)) (by decide +kernel) hr

theorem firstClass?_eq (h : grammar.Valid t) : firstClass? t = topClass? t := by
  obtain ⟨_, _, _, hr⟩ := rule_class_declaration
  rw [firstClass?, filter_namedChildren_eq h (by decide +kernel) hr, List.head?_filter, topClass?]

/-- The methods of a class as they are recorded. -/
def summariesOf (source : List Char) (c : Tree) : List MethodSummary :=
  ((methodsIn c).filterMap (methodOf? source)).map summaryOf

def classNameOf (source : List Char) (c : Tree) : String :=
  ((c.childIn "name").map (nodeText source)).getD ""

/-- Name and methods come from the first class. -/
theorem extract_eq (h : grammar.Valid root) (source : List Char) (fileName : String) :
    (extract (unitOf source root) fileName).className =
        ((topClass? root).map (classNameOf source)).getD "" ∧
      (extract (unitOf source root) fileName).methods =
        ((topClass? root).map (summariesOf source)).getD [] := by
  rw [← firstClass?_eq h, firstClass?]
  cases hclasses : root.namedChildren.filter fun c => c.kind == "class_declaration" with
  | nil =>
    rw [extract, unitOf, hclasses]
    exact ⟨rfl, rfl⟩
  | cons c cs =>
    have hmem : c ∈ root.namedChildren.filter fun c => c.kind == "class_declaration" :=
      hclasses ▸ List.mem_cons_self
    have hv := h.of_child (mem_children_of_mem_namedChildren hmem)
    have hk : c.kind = "class_declaration" := eq_of_beq (List.mem_filter.mp hmem).2
    obtain ⟨cls, hcls⟩ := classOf?_isSome source (class_name_isSome hv.licenses hk)
    obtain ⟨hname, hmethods⟩ := of_classOf?_eq_some hcls
    rw [List.head?_cons, Option.map_some, Option.map_some, classNameOf, hname, summariesOf,
      ← membersOf_eq hv, ← hmethods, extract, unitOf, hclasses, List.filterMap_cons_some hcls]
    exact ⟨rfl, rfl⟩

theorem forall₂_map_filterMap {α β γ : Type} {R : α → γ → Prop} {f : α → Option β} {g : β → γ}
    {xs : List α} (h : ∀ x ∈ xs, ∃ y, f x = some y ∧ R x (g y)) :
    List.Forall₂ R xs ((xs.filterMap f).map g) := by
  induction xs with
  | nil => exact .nil
  | cons x xs ih =>
    obtain ⟨y, hy, hxy⟩ := h x List.mem_cons_self
    rw [List.filterMap_cons_some hy]
    exact .cons hxy (ih fun z hz => h z (List.mem_cons_of_mem x hz))

theorem of_mem_methodsIn {c m : Tree} (hm : m ∈ methodsIn c) :
    m ∈ c.preorder ∧ m.kind = "method_declaration" := by
  rw [methodsIn] at hm
  cases hb : c.childIn "body" with
  | none =>
    rw [hb] at hm
    cases hm
  | some b =>
    rw [hb] at hm
    obtain ⟨hm, hk⟩ := List.mem_filter.mp hm
    exact ⟨Tree.mem_preorder_trans (mem_preorder_of_childIn hb) (Tree.mem_preorder_of_child hm),
      eq_of_beq hk⟩

theorem of_topClass? {c : Tree} (hc : topClass? root = some c) :
    c ∈ root.children ∧ c.kind = "class_declaration" :=
  ⟨List.mem_of_find?_eq_some hc,
    eq_of_beq (List.find?_some (p := fun c : Tree => c.kind == "class_declaration") hc)⟩

/-- Each method in the body of the first class is recorded, and nothing else is. -/
theorem methods_described (h : grammar.Valid root) {c : Tree} (hc : topClass? root = some c)
    (source : List Char) (fileName : String) :
    List.Forall₂ (IsSummaryOf source) (methodsIn c)
      (extract (unitOf source root) fileName).methods := by
  rw [(extract_eq h source fileName).2, hc, Option.map_some, Option.getD_some, summariesOf]
  refine forall₂_map_filterMap fun m hm => ?_
  obtain ⟨hmem, hk⟩ := of_mem_methodsIn hm
  have hv := (h.of_child (of_topClass? hc).1).of_mem hmem
  obtain ⟨method, hmethod⟩ := methodOf?_isSome source (method_name_isSome hv.licenses hk)
  exact ⟨method, hmethod, isSummaryOf_summaryOf hv hmethod⟩

/-! ## Edits -/

/-- Some parts stay, and free ones are added and taken away between them. -/
inductive Edited (free : Tree → Prop) (same : Tree → Tree → Prop) : List Tree → List Tree → Prop
  | nil : Edited free same [] []
  | keep {c c' : Tree} {cs cs' : List Tree} (h : same c c') (hs : Edited free same cs cs') :
      Edited free same (c :: cs) (c' :: cs')
  | remove {c : Tree} {cs cs' : List Tree} (h : free c) (hs : Edited free same cs cs') :
      Edited free same (c :: cs) cs'
  | add {c' : Tree} {cs cs' : List Tree} (h : free c') (hs : Edited free same cs cs') :
      Edited free same cs (c' :: cs')

/-- What is not free stays. -/
theorem Edited.filter {free : Tree → Prop} {same : Tree → Tree → Prop} {cs cs' : List Tree}
    (h : Edited free same cs cs') {p : Tree → Bool} (hfree : ∀ c, free c → p c = false)
    (hsame : ∀ c c', same c c' → p c = p c') :
    List.Forall₂ same (cs.filter p) (cs'.filter p) := by
  induction h with
  | nil => exact .nil
  | keep h _ ih =>
    rw [List.filter_cons, List.filter_cons, hsame _ _ h]
    split
    · exact .cons h ih
    · exact ih
  | remove h _ ih =>
    rw [List.filter_cons, hfree _ h]
    exact ih
  | add h _ ih =>
    rw [List.filter_cons, hfree _ h]
    exact ih

/-- A class of the same name with the same methods in its body; everything else there may be added,
changed or taken away. -/
structure EditedClass (source source' : List Char) (c c' : Tree) : Prop where
  kind : c.kind = "class_declaration"
  kind' : c'.kind = "class_declaration"
  name : (c.childIn "name").map (nodeText source) = (c'.childIn "name").map (nodeText source')
  body : Option.Rel (fun b b' => Edited (fun m => m.kind ≠ "method_declaration")
    (Kept source source') b.children b'.children) (c.childIn "body") (c'.childIn "body")

/-- The declarations of a file of which the imports stay and the first class keeps its name and its
methods; everything else may be added, changed or taken away. -/
inductive EditedUnit (source source' : List Char) : List Tree → List Tree → Prop
  | nil : EditedUnit source source' [] []
  | keep {c c' : Tree} {cs cs' : List Tree} (hk : c.kind ≠ "class_declaration")
      (h : Kept source source' c c') (hs : EditedUnit source source' cs cs') :
      EditedUnit source source' (c :: cs) (c' :: cs')
  | remove {c : Tree} {cs cs' : List Tree} (hk : c.kind ≠ "class_declaration")
      (hi : c.kind ≠ "import_declaration") (hs : EditedUnit source source' cs cs') :
      EditedUnit source source' (c :: cs) cs'
  | add {c' : Tree} {cs cs' : List Tree} (hk : c'.kind ≠ "class_declaration")
      (hi : c'.kind ≠ "import_declaration") (hs : EditedUnit source source' cs cs') :
      EditedUnit source source' cs (c' :: cs')
  | first {c c' : Tree} {cs cs' : List Tree} (h : EditedClass source source' c c')
      (hs : Edited (fun d => d.kind ≠ "import_declaration") (Kept source source') cs cs') :
      EditedUnit source source' (c :: cs) (c' :: cs')

namespace EditedUnit

variable {cs cs' : List Tree}

theorem imports (h : EditedUnit source source' cs cs') :
    List.Forall₂ (Kept source source') (cs.filter fun c => c.kind == "import_declaration")
      (cs'.filter fun c => c.kind == "import_declaration") := by
  induction h with
  | nil => exact .nil
  | keep _ h _ ih =>
    rw [List.filter_cons, List.filter_cons, h.alike.kind]
    split
    · exact .cons h ih
    · exact ih
  | remove _ hi _ ih =>
    rw [List.filter_cons, beq_eq_false_iff_ne.mpr hi]
    exact ih
  | add _ hi _ ih =>
    rw [List.filter_cons, beq_eq_false_iff_ne.mpr hi]
    exact ih
  | first h hs =>
    rw [List.filter_cons, List.filter_cons, h.kind, h.kind']
    exact hs.filter (fun _ hi => beq_eq_false_iff_ne.mpr hi) fun _ _ hcc => by rw [hcc.alike.kind]

theorem topClass (h : EditedUnit source source' cs cs') :
    Option.Rel (EditedClass source source') (cs.find? fun c => c.kind == "class_declaration")
      (cs'.find? fun c => c.kind == "class_declaration") := by
  induction h with
  | nil => exact .none
  | keep hk h _ ih =>
    rw [List.find?_cons, List.find?_cons, ← h.alike.kind, beq_eq_false_iff_ne.mpr hk]
    exact ih
  | remove hk _ _ ih =>
    rw [List.find?_cons, beq_eq_false_iff_ne.mpr hk]
    exact ih
  | add hk _ _ ih =>
    rw [List.find?_cons, beq_eq_false_iff_ne.mpr hk]
    exact ih
  | first h _ =>
    rw [List.find?_cons, List.find?_cons, h.kind, h.kind']
    exact .some h

end EditedUnit

theorem EditedClass.methodsIn {c c' : Tree} (h : EditedClass source source' c c') :
    List.Forall₂ (Kept source source') (methodsIn c) (methodsIn c') :=
  forall₂_getD_of_rel h.body fun _ _ hb =>
    hb.filter (fun _ hk => beq_eq_false_iff_ne.mpr hk) fun _ _ hcc => by rw [hcc.alike.kind]

theorem EditedClass.summariesOf_eq {c c' : Tree} (h : EditedClass source source' c c') :
    summariesOf source c = summariesOf source' c' := by
  have hmethods := forall₂_of_mem h.methodsIn (S := fun m m' =>
    Kept source source' m m' ∧ m.kind = "method_declaration")
    fun m hm _ _ hmm => ⟨hmm, (of_mem_methodsIn hm).2⟩
  rw [summariesOf, summariesOf, List.map_filterMap, List.map_filterMap,
    List.filterMap_eq_flatMap_toList, List.filterMap_eq_flatMap_toList]
  refine flatMap_eq_of_forall₂ hmethods ?_
  rintro m m' ⟨hmm, hk⟩
  obtain ⟨method, method', hm, hm', heq⟩ := hmm.exists_method hk
  rw [hm, hm', Option.map_some, Option.map_some, heq]

theorem EditedUnit.imports_eq (h : EditedUnit source source' root.children root'.children)
    (hv : grammar.Valid root) (hv' : grammar.Valid root') :
    (unitOf source root).imports = (unitOf source' root').imports := by
  obtain ⟨r, hr⟩ : ∃ r, grammar.rule? "import_declaration" = some r := ⟨_, rfl⟩
  have hb : grammar.isBranch "import_declaration" = true := by decide +kernel
  rw [unitOf, unitOf, filter_namedChildren_eq hv hb hr, filter_namedChildren_eq hv' hb hr]
  exact map_eq_of_forall₂ h.imports fun _ _ hcc => hcc.alike.importOf

/-- An edit that keeps the imports, and the name and the methods of the first class, keeps all
metadata. -/
theorem EditedUnit.extract_eq (h : EditedUnit source source' root.children root'.children)
    (hv : grammar.Valid root) (hv' : grammar.Valid root') (fileName : String) :
    extract (unitOf source root) fileName = extract (unitOf source' root') fileName := by
  have hpaths : (unitOf source root).imports.map (·.path) =
      (unitOf source' root').imports.map (·.path) := by rw [h.imports_eq hv hv']
  have hname : (topClass? root).map (classNameOf source) =
      (topClass? root').map (classNameOf source') :=
    map_eq_of_rel h.topClass fun _ _ _ hcc => congrArg (·.getD "") hcc.name
  have hmethods : (topClass? root).map (summariesOf source) =
      (topClass? root').map (summariesOf source') :=
    map_eq_of_rel h.topClass fun _ _ _ hcc => hcc.summariesOf_eq
  have hclass : (extract (unitOf source root) fileName).className =
      (extract (unitOf source' root') fileName).className := by
    rw [(Java.extract_eq hv source fileName).1, hname, (Java.extract_eq hv' source' fileName).1]
  have hsummaries : (extract (unitOf source root) fileName).methods =
      (extract (unitOf source' root') fileName).methods := by
    rw [(Java.extract_eq hv source fileName).2, hmethods, (Java.extract_eq hv' source' fileName).2]
  exact Metadata.mk.injEq .. ▸ ⟨rfl, hclass, hpaths,
    congrArg (List.filter isAutomationImport) hpaths,
    congrArg (List.any · isTestFrameworkImport) hpaths, hsummaries⟩

/-- For every admitted text, the methods in the metadata are those that stand directly in the body of
the first class at the top, each of them once and in order, under its name, with the names of its
annotations and with calls in its own body. Every edit that leaves the text admitted and keeps the
imports, and the name and the methods of that class, keeps all metadata: other members of the class,
classes behind it, and all other declarations at the top may be added, changed and taken away. -/
theorem metadata_of_first_class {reading reading' : List Char → Tree} {source label : String}
    {unit : CompilationUnit} (hparse : parseWith reading source label = .ok unit)
    (h : grammar.Valid (reading source.toList)) (fileName : String) :
    let text := source.toList
    let root := reading text
    (topClass? root = none →
      (extract unit fileName).className = "" ∧ (extract unit fileName).methods = []) ∧
    (∀ c, topClass? root = some c →
      (c.childIn "name").map (nodeText text) = some (extract unit fileName).className ∧
      List.Forall₂ (IsSummaryOf text) (methodsIn c) (extract unit fileName).methods) ∧
    ∀ (source' label' : String) (unit' : CompilationUnit),
      parseWith reading' source' label' = .ok unit' → grammar.Valid (reading' source'.toList) →
      EditedUnit text source'.toList root.children (reading' source'.toList).children →
      extract unit' fileName = extract unit fileName := by
  intro text root
  obtain ⟨-, rfl⟩ := (parseWith_eq_ok_iff h).mp hparse
  obtain ⟨hname, hmethods⟩ := extract_eq h text fileName
  refine ⟨fun hnone => ?_, fun c hc => ⟨?_, methods_described h hc text fileName⟩, ?_⟩
  · rw [hname, hmethods, hnone]
    exact ⟨rfl, rfl⟩
  · obtain ⟨hmem, hk⟩ := of_topClass? hc
    obtain ⟨name, hchild⟩ :=
      Option.isSome_iff_exists.mp (class_name_isSome (h.of_child hmem).licenses hk)
    rw [hname, hc, Option.map_some, Option.getD_some, classNameOf, hchild]
    rfl
  · intro source' label' unit' hparse' h' hedited
    obtain ⟨-, rfl⟩ := (parseWith_eq_ok_iff h').mp hparse'
    exact (hedited.extract_eq h h' fileName).symm

/-! ## A sample -/

mutual

/-- A tree whose text stands some bytes further back. -/
def moved (n : Nat) : Tree → Tree
  | .node l cs => .node { l with span := ⟨l.span.start + n, l.span.stop + n⟩ } (movedList n cs)

def movedList (n : Nat) : List Tree → List Tree
  | [] => []
  | c :: cs => moved n c :: movedList n cs

end

def editedSource : String :=
  "interface I \x7b \x7d class A \x7b int x; void m() \x7b f(x -> g()).h(i()); \x7d \x7d class B \x7b \x7d"

def addedField : Tree :=
  branchAt "field_declaration" none 26 32 [
    branchAt "integral_type" (some "type") 26 29 [textAt "int" 26],
    branchAt "variable_declarator" (some "declarator") 30 31 [nameAt (some "name") 30],
    textAt ";" 31]

def editedClassBody : Tree :=
  branchAt "class_body" (some "body") 24 67 [
    textAt "\x7b" 24, addedField, moved 23 sampleMethod, textAt "\x7d" 66]

/-- The sample with an interface in front of the class, a field in it and a class behind it. -/
def edited : Tree :=
  branchAt "program" none 0 79 [
    branchAt "interface_declaration" none 0 15 [
      textAt "interface" 0, nameAt (some "name") 10,
      branchAt "interface_body" (some "body") 12 15 [textAt "\x7b" 12, textAt "\x7d" 14]],
    branchAt "class_declaration" none 16 67 [
      textAt "class" 16, nameAt (some "name") 22, editedClassBody],
    branchAt "class_declaration" none 68 79 [
      textAt "class" 68, nameAt (some "name") 74,
      branchAt "class_body" (some "body") 76 79 [textAt "\x7b" 76, textAt "\x7d" 78]]]

theorem valid_edited : grammar.Valid edited := Grammar.valid_of_recognises 8 (by decide +kernel)

theorem kept_sampleMethod :
    Kept sampleSource editedSource.toList sampleMethod (moved 23 sampleMethod) where
  valid := valid_sample.of_mem sampleMethod_mem
  valid' := Grammar.valid_of_recognises 8 (by decide +kernel)
  transcript_eq := by decide +kernel

theorem editedUnit_edited :
    EditedUnit sampleSource editedSource.toList sample.children edited.children := by
  have hbody : Edited (fun m => m.kind ≠ "method_declaration")
      (Kept sampleSource editedSource.toList) sampleClassBody.children editedClassBody.children :=
    .remove (by decide) <| .add (by decide) <| .add (by decide) <| .keep kept_sampleMethod <|
      .remove (by decide) <| .add (by decide) .nil
  exact .add (by decide) (by decide) <|
    .first ⟨by decide, by decide, by decide +kernel, .some hbody⟩ <| .add (by decide) .nil

theorem metadata_of_first_class_sample :
    let source := "class A \x7b void m() \x7b f(x -> g()).h(i()); \x7d \x7d"
    ∃ unit unit', parseWith (fun _ => sample) source "" = .ok unit ∧
      parseWith (fun _ => edited) editedSource "" = .ok unit' ∧
      grammar.Valid sample ∧ grammar.Valid edited ∧
      EditedUnit source.toList editedSource.toList sample.children edited.children ∧
      List.Forall₂ (IsSummaryOf source.toList) [sampleMethod] (extract unit "A.java").methods ∧
      extract unit' "A.java" = extract unit "A.java" := by
  intro source
  have hparse : parseWith (fun _ => sample) source "" = .ok (unitOf source.toList sample) :=
    (parseWith_eq_ok_iff valid_sample).mpr ⟨by decide +kernel, rfl⟩
  have hparse' : parseWith (fun _ => edited) editedSource "" =
      .ok (unitOf editedSource.toList edited) :=
    (parseWith_eq_ok_iff valid_edited).mpr ⟨by decide +kernel, rfl⟩
  obtain ⟨-, hmethods, hedits⟩ := @metadata_of_first_class (fun _ => sample) (fun _ => edited)
    source "" _ hparse valid_sample "A.java"
  exact ⟨_, _, hparse, hparse', valid_sample, valid_edited, editedUnit_edited,
    (hmethods sampleClass rfl).2, hedits editedSource "" _ hparse' valid_edited editedUnit_edited⟩

end TestConversion.Java
