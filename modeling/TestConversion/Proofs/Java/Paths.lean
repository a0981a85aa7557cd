import TestConversion.Proofs.Java.Arguments
import TestConversion.Proofs.Java.Listing
import Mathlib.Data.List.Flatten

/-!
# Paths of names

Names with dots between them are lowered to one reference. It reads as the names that fill a field,
so a `super` that is qualified, and fills none, is left out.

* `IsPath`: the paths; `namesIn` and `namesShown`: the names in them and those that fill a field.
* `FieldShape`: the children of a field access.
* `lower_path`: what a path is lowered to.
* `namesShown_eq_iff`: all names are shown exactly if no `super` in the path is qualified.
-/

namespace TestConversion.Java

open Text Syntax Code

/-! ## Names in paths -/

def isName (t : Tree) : Bool := t.named && nameKinds.contains t.kind

/-- A name, or a field access in which all named children are paths. -/
inductive IsPath : Tree → Prop
  | name {t : Tree} (h : isName t = true) : IsPath t
  | access {t : Tree} (hk : t.kind = "field_access")
      (h : ∀ c ∈ keptChildren t, c.named = true → IsPath c) : IsPath t

/-- The texts of the nodes with some property, in order and without comments. -/
def textsWhere (p : Tree → Bool) (source : List Char) (t : Tree) : List String :=
  ((keptPreorder t).filter p).map (nodeText source)

/-- All names in a tree. -/
def namesIn (source : List Char) (t : Tree) : List String := textsWhere isName source t

/-- The names in a tree that fill a field. -/
def namesFilling (source : List Char) (t : Tree) : List String :=
  textsWhere (fun n => isName n && n.field.isSome) source t

/-- The names that a path is shown with: itself, or those below it that fill a field. -/
def namesShown (source : List Char) (t : Tree) : List String :=
  if isName t then [nodeText source t] else namesFilling source t

/-- No `super` among the children lacks a field. -/
def NoLooseSuper (t : Tree) : Prop := ∀ c ∈ t.children, c.kind = "super" → c.field ≠ none

/-- No `super` in a field access stands behind what qualifies it. -/
def NoQualifiedSuper (t : Tree) : Prop :=
  ∀ n ∈ t.preorder, n.kind = "field_access" → NoLooseSuper n

instance (t : Tree) : Decidable (NoLooseSuper t) :=
  inferInstanceAs (Decidable (∀ c ∈ t.children, c.kind = "super" → c.field ≠ none))

instance (t : Tree) : Decidable (NoQualifiedSuper t) :=
  inferInstanceAs (Decidable (∀ n ∈ t.preorder, n.kind = "field_access" → NoLooseSuper n))

variable {source : List Char} {t : Tree}

theorem textsWhere_eq (p : Tree → Bool) (source : List Char) (t : Tree) : textsWhere p source t =
    (if p t then [nodeText source t] else []) ++
      (keptChildren t).flatMap (textsWhere p source) := by
  have hbelow : ((keptChildren t).flatMap fun c => ((keptPreorder c).filter p).map
      (nodeText source)) = (keptChildren t).flatMap (textsWhere p source) := rfl
  rw [textsWhere, keptPreorder_eq, List.filter_cons, List.filter_flatMap, ← hbelow]
  split <;> simp [List.map_flatMap]

theorem textsWhere_of_leaf (p : Tree → Bool) (source : List Char) (h : t.children = []) :
    textsWhere p source t = if p t then [nodeText source t] else [] := by
  have hkept : keptChildren t = [] := by
    rw [keptChildren, h]
    rfl
  rw [textsWhere_eq, hkept, List.flatMap_nil, List.append_nil]

theorem children_of_isName (h : grammar.Licenses t) (hn : isName t = true) : t.children = [] := by
  rw [isName, Bool.and_eq_true] at hn
  exact (h.of_isLeaf (isLeaf_of_nameKinds hn.2)).1

theorem namesFilling_sublist (source : List Char) (t : Tree) :
    (namesFilling source t).Sublist (namesIn source t) := by
  have h : (keptPreorder t).filter (fun n => isName n && n.field.isSome) =
      ((keptPreorder t).filter isName).filter fun n => n.field.isSome := by
    rw [List.filter_filter]
    congr 1
    funext n
    exact Bool.and_comm _ _
  rw [namesFilling, textsWhere, h, namesIn, textsWhere]
  exact List.filter_sublist.map _

theorem namesShown_sublist (h : grammar.Licenses t) (source : List Char) :
    (namesShown source t).Sublist (namesIn source t) := by
  rw [namesShown]
  split
  · rename_i hn
    rw [namesIn, textsWhere_of_leaf isName source (children_of_isName h hn), if_pos hn]
  · exact namesFilling_sublist source t

/-- The names of a path that fills a field. -/
theorem namesFilling_of_field (h : grammar.Licenses t) (hf : t.field.isSome = true)
    (source : List Char) : namesFilling source t = namesShown source t := by
  rw [namesShown]
  split
  · rename_i hn
    rw [namesFilling, textsWhere_of_leaf _ source (children_of_isName h hn), hn, hf]
    rfl
  · rfl

/-! ## Names with dots between them -/

theorem cons_toList_intercalate {xs : List String} (h : xs ≠ []) :
    '.' :: (".".intercalate xs).toList = xs.flatMap fun x => '.' :: x.toList := by
  induction xs with
  | nil => exact absurd rfl h
  | cons x xs ih =>
    cases xs with
    | nil => simp
    | cons y ys =>
      have happend : ".".intercalate (x :: y :: ys) = x ++ "." ++ ".".intercalate (y :: ys) := by
        have h := String.intercalate_append_of_ne_nil (l := [x]) (m := y :: ys) (s := ".")
          (List.cons_ne_nil x []) (List.cons_ne_nil y ys)
        rwa [String.intercalate_singleton] at h
      rw [happend, List.flatMap_cons, ← ih (List.cons_ne_nil y ys)]
      simp

theorem eq_of_sublist_of_flatMap {xs ys : List String} (h : xs.Sublist ys)
    (heq : (xs.flatMap fun x => '.' :: x.toList) = ys.flatMap fun y => '.' :: y.toList) :
    xs = ys := by
  induction h with
  | slnil => rfl
  | @cons xs ys y h ih =>
    have hle := (h.flatMap fun x => '.' :: x.toList).length_le
    rw [heq, List.flatMap_cons, List.length_append, List.length_cons] at hle
    omega
  | cons_cons x h ih =>
    rw [List.flatMap_cons, List.flatMap_cons, List.append_cancel_left_eq] at heq
    rw [ih heq]

/-- Leaving out a name makes a difference. -/
theorem intercalate_eq_iff {xs ys : List String} (h : xs.Sublist ys) (hne : xs ≠ []) :
    ".".intercalate xs = ".".intercalate ys ↔ xs = ys := by
  constructor
  · intro heq
    have hne' : ys ≠ [] := by
      rintro rfl
      exact hne (List.sublist_nil.mp h)
    apply eq_of_sublist_of_flatMap h
    rw [← cons_toList_intercalate hne, ← cons_toList_intercalate hne', heq]
  · rintro rfl
    rfl

/-! ## Dots -/

/-- A dot, or a dot on both sides of a `super`. -/
inductive IsDotted : List Tree → Prop
  | plain {d : Tree} (hd : d.IsNode "." false none) : IsDotted [d]
  | qualified {d s d' : Tree} (hd : d.IsNode "." false none) (hs : s.IsNode "super" true none)
      (hd' : d'.IsNode "." false none) : IsDotted [d, s, d']

/-- Where there is no loose `super` between two names there is only a dot. -/
theorem IsDotted.eq_plain {ds : List Tree} (h : IsDotted ds)
    (hs : ∀ c ∈ ds, c.kind = "super" → c.field ≠ none) :
    ∃ d, ds = [d] ∧ d.IsNode "." false none := by
  cases h with
  | plain hd => exact ⟨_, rfl, hd⟩
  | qualified _ h _ => exact absurd h.field (hs _ (by simp) h.kind)

theorem IsDotted.isNode {ds : List Tree} (h : IsDotted ds) {c : Tree} (hc : c ∈ ds) :
    c.IsNode "." false none ∨ c.IsNode "super" true none := by
  cases h with
  | plain hd => exact Or.inl (List.mem_singleton.mp hc ▸ hd)
  | qualified hd hs hd' =>
    simp only [List.mem_cons, List.not_mem_nil, or_false] at hc
    rcases hc with rfl | rfl | rfl
    · exact Or.inl hd
    · exact Or.inr hs
    · exact Or.inl hd'

theorem IsDotted.field_eq_none {ds : List Tree} (h : IsDotted ds) {c : Tree} (hc : c ∈ ds) :
    c.field = none :=
  (h.isNode hc).elim (·.field) (·.field)

theorem isName_of_isNode {kind : String} {named : Bool} {field : Option String}
    (h : t.IsNode kind named field) : isName t = (named && nameKinds.contains kind) := by
  rw [isName, h.named, h.kind]

theorem isName_super (h : t.IsNode "super" true none) : isName t = true := by
  rw [isName_of_isNode h]
  decide +kernel

theorem IsDotted.children_eq_nil {ds : List Tree} (h : IsDotted ds) {c : Tree} (hc : c ∈ ds)
    (hl : grammar.Licenses c) : c.children = [] := by
  rcases h.isNode hc with hd | hs
  · exact (hl.children_of_not_named hd.named).1
  · exact children_of_isName hl (isName_super hs)

/-- Nothing between dots fills a field. -/
theorem IsDotted.namesFilling_eq_nil {ds : List Tree} (h : IsDotted ds)
    (hl : ∀ c ∈ ds, grammar.Licenses c) (source : List Char) :
    ds.flatMap (namesFilling source) = [] := by
  rw [List.flatMap_eq_nil_iff]
  intro c hc
  rw [namesFilling, textsWhere_of_leaf _ source (h.children_eq_nil hc (hl c hc)),
    h.field_eq_none hc, Option.isSome_none, Bool.and_false, if_neg Bool.false_ne_true]

/-- The only name between dots is a `super`. -/
theorem IsDotted.namesIn_eq_nil_iff {ds : List Tree} (h : IsDotted ds)
    (hl : ∀ c ∈ ds, grammar.Licenses c) (source : List Char) :
    ds.flatMap (namesIn source) = [] ↔ ∀ c ∈ ds, c.kind = "super" → c.field ≠ none := by
  rw [List.flatMap_eq_nil_iff]
  refine forall₂_congr fun c hc => ?_
  rw [namesIn, textsWhere_of_leaf isName source (h.children_eq_nil hc (hl c hc))]
  rcases h.isNode hc with hd | hs
  · rw [isName_of_isNode hd, hd.kind]
    simp
  · rw [isName_super hs, hs.kind, hs.field]
    simp

/-- Where all children but those between dots fill a field, only there a `super` can be loose. -/
theorem noLooseSuper_iff (h : grammar.Valid t) {front dots back : List Tree}
    (hkept : keptChildren t = front ++ (dots ++ back))
    (hfields : ∀ c ∈ front ++ back, c.field ≠ none) :
    NoLooseSuper t ↔ ∀ c ∈ dots, c.kind = "super" → c.field ≠ none := by
  constructor
  · intro hloose c hc
    exact hloose c (mem_children_of_kept hkept (by simp [hc]))
  · intro hdots c hc hk
    cases hx : c.extra with
    | true =>
      have hextra := ((h.of_child hc).licenses.named_of_extra hx).2.2.1
      rw [hk] at hextra
      exact absurd hextra (by decide +kernel)
    | false =>
      have hmem : c ∈ keptChildren t := List.mem_filter.mpr ⟨hc, by rw [hx]; rfl⟩
      rw [hkept] at hmem
      rcases List.mem_append.mp hmem with hf | hmem
      · exact hfields c (List.mem_append_left _ hf)
      · rcases List.mem_append.mp hmem with hd | hb
        · exact hdots c hd hk
        · exact hfields c (List.mem_append_right _ hb)

theorem gives_dot {f : Option String} {ts : List Tree} (h : grammar.Gives (.token ".") none f ts) :
    ∃ d, ts = [d] ∧ d.IsNode "." false f :=
  Grammar.gives_token.mp h

/-! ## Field accesses -/

/-- The children of a field access. -/
structure FieldShape (t object : Tree) (dots : List Tree) (field : Tree) : Prop where
  kept : keptChildren t = object :: (dots ++ [field])
  object_field : object.field = some "object"
  object_named : object.named = true
  dots : IsDotted dots
  field_name : isName field = true
  field_field : field.field = some "field"

theorem exists_fieldShape (h : grammar.Licenses t) (hk : t.kind = "field_access") :
    t.named = true ∧ ∃ object dots field, FieldShape t object dots field := by
  obtain ⟨-, hn, hg⟩ := h.gives (by rw [hk]; decide +kernel)
    (by rw [hk]; exact rule_field_access)
  obtain ⟨as, _, hkept, hobject, hg⟩ := Grammar.gives_seq.mp hg
  obtain ⟨bs, _, rfl, hsuper, hg⟩ := Grammar.gives_seq.mp hg
  obtain ⟨cs, ds, rfl, hdot, hfield⟩ := Grammar.gives_seq.mp hg
  obtain ⟨object, rfl, hobject, hof⟩ := gives_object (Grammar.gives_field.mp hobject)
  obtain ⟨dot, rfl, hd⟩ := gives_dot hdot
  obtain ⟨field, kind, rfl, hkind, hf⟩ := (Grammar.gives_field.mp hfield).of_soleKinds_all 2
    (p := fun kind => nameKinds.contains kind) (by decide +kernel)
  have hdots : IsDotted (bs ++ [dot]) := by
    rcases Grammar.gives_choice.mp hsuper with h | h
    · obtain ⟨us, vs, rfl, hu, hv⟩ := Grammar.gives_seq.mp h
      obtain ⟨u, rfl, hud⟩ := gives_dot hu
      obtain ⟨v, rfl, hvs⟩ := gives_symbol hv (by decide +kernel)
      exact .qualified hud hvs hd
    · cases Grammar.gives_blank.mp h
      exact .plain hd
  refine ⟨hn, object, bs ++ [dot], field, {
    kept := by simpa [keptChildren] using hkept
    object_field := hof
    object_named := hobject.named
    dots := hdots
    field_name := by rw [isName_of_isNode hf, hkind]; rfl
    field_field := hf.field }⟩

theorem isName_of_field_access (hk : t.kind = "field_access") : isName t = false := by
  rw [isName, hk, Bool.and_eq_false_iff]
  exact Or.inr (by decide +kernel)

theorem NoQualifiedSuper.of_mem {n : Tree} (h : NoQualifiedSuper t) (hn : n ∈ t.preorder) :
    NoQualifiedSuper n :=
  fun d hd => h d (Tree.mem_preorder_trans hn hd)

/-- Neither a word nor a comment is a field access. -/
theorem noQualifiedSuper_of_leaf (hc : t.children = []) (hk : t.kind ≠ "field_access") :
    NoQualifiedSuper t := by
  intro n hn hf
  rcases Tree.mem_preorder_iff.mp hn with rfl | ⟨d, hd, -⟩
  · exact absurd hf hk
  · rw [hc] at hd
    cases hd

theorem noQualifiedSuper_of_isName (h : grammar.Licenses t) (hn : isName t = true) :
    NoQualifiedSuper t := by
  apply noQualifiedSuper_of_leaf (children_of_isName h hn)
  intro hk
  rw [isName_of_field_access hk] at hn
  cases hn

namespace FieldShape

variable {object field : Tree} {dots : List Tree}

theorem namesIn_eq (s : FieldShape t object dots field) (h : grammar.Valid t)
    (hk : t.kind = "field_access") (source : List Char) : namesIn source t =
      namesIn source object ++ (dots.flatMap (namesIn source) ++ [nodeText source field]) := by
  have hfield := (h.of_child (mem_children_of_kept s.kept (by simp))).licenses (t := field)
  have hf : namesIn source field = [nodeText source field] := by
    rw [namesIn, textsWhere_of_leaf isName source (children_of_isName hfield s.field_name),
      if_pos s.field_name]
  rw [namesIn, textsWhere_eq, isName_of_field_access hk, if_neg Bool.false_ne_true, s.kept,
    List.flatMap_cons, List.flatMap_append, List.flatMap_singleton, List.nil_append]
  exact congrArg₂ _ rfl (congrArg₂ _ rfl hf)

theorem namesShown_eq (s : FieldShape t object dots field) (h : grammar.Valid t)
    (hk : t.kind = "field_access") (source : List Char) :
    namesShown source t = namesShown source object ++ [nodeText source field] := by
  have hlic : ∀ {c : Tree}, c ∈ object :: (dots ++ [field]) → grammar.Licenses c := fun hc =>
    (h.of_child (mem_children_of_kept s.kept hc)).licenses
  have hf : namesFilling source field = [nodeText source field] := by
    rw [namesFilling_of_field (hlic (by simp)) (by rw [s.field_field]; rfl), namesShown,
      if_pos s.field_name]
  have ho : namesFilling source object = namesShown source object :=
    namesFilling_of_field (hlic (by simp)) (by rw [s.object_field]; rfl) source
  have hd := s.dots.namesFilling_eq_nil (fun c hc => hlic (by simp [hc])) source
  rw [namesShown, isName_of_field_access hk, if_neg Bool.false_ne_true, namesFilling, textsWhere_eq,
    isName_of_field_access hk, Bool.false_and, if_neg Bool.false_ne_true, s.kept, List.flatMap_cons,
    List.flatMap_append, List.flatMap_singleton, List.nil_append]
  rw [← ho, ← hf]
  exact congrArg _ (congrArg₂ _ hd rfl)

theorem childIn_field (s : FieldShape t object dots field) (h : grammar.Valid t) :
    t.childIn "field" = some field := by
  have hfillers : dots.filter (fun c => c.field == some "field") = [] := by
    rw [List.filter_eq_nil_iff]
    intro c hc
    simp [s.dots.field_eq_none hc]
  rw [childIn_eq h, fillers, s.kept, List.filter_cons, List.filter_append, hfillers]
  simp [s.object_field, s.field_field]

/-- A field access is lowered to a reference if what it is made on is. -/
theorem reference?_lower (s : FieldShape t object dots field) (h : grammar.Valid t)
    (hn : t.named = true) (hk : t.kind = "field_access") (source : List Char) :
    reference? (lower source t) =
      (reference? (lower source object)).map fun r => (some (dotted r), nodeText source field) := by
  have hl : literalKinds.contains t.kind = false := by
    rw [hk]
    decide +kernel
  have hnames : nameKinds.contains t.kind = false := by
    rw [hk]
    decide +kernel
  have hobject : (base? ∘ lowered source) object = reference? (lower source object) := by
    rw [Function.comp_apply, base?_eq, lowered, s.object_field, beq_self_eq_true, if_pos rfl]
  have hothers : (dots ++ [field]).findSome? (base? ∘ lowered source) = none := by
    rw [List.findSome?_eq_none_iff]
    intro c hc
    rw [Function.comp_apply, base?_eq, lowered, if_neg]
    rcases List.mem_append.mp hc with hc | hc
    · simp [s.dots.field_eq_none hc]
    · simp [List.mem_singleton.mp hc, s.field_field]
  rw [Java.reference?_lower, hn, hl, hnames, hk, s.childIn_field h, s.kept, List.findSome?_cons,
    hobject, hothers]
  cases reference? (lower source object) <;> rfl

theorem noLooseSuper_iff (s : FieldShape t object dots field) (h : grammar.Valid t) :
    NoLooseSuper t ↔ ∀ c ∈ dots, c.kind = "super" → c.field ≠ none := by
  have hkept : keptChildren t = [object] ++ (dots ++ [field]) := s.kept
  apply Java.noLooseSuper_iff h hkept
  intro c hc
  rcases List.mem_append.mp hc with hc | hc
  · simp [List.mem_singleton.mp hc, s.object_field]
  · simp [List.mem_singleton.mp hc, s.field_field]

/-- The children of a field access behind the first one. -/
theorem noQualifiedSuper_of_ne_object (s : FieldShape t object dots field) (h : grammar.Valid t)
    {c : Tree} (hc : c ∈ t.children) (hne : c ≠ object) : NoQualifiedSuper c := by
  have hl := (h.of_child hc).licenses
  cases hx : c.extra with
  | true =>
    obtain ⟨-, -, hk, hleaf⟩ := hl.named_of_extra hx
    apply noQualifiedSuper_of_leaf hleaf
    intro hf
    rw [hf] at hk
    exact absurd hk (by decide +kernel)
  | false =>
    have hkept : c ∈ keptChildren t := List.mem_filter.mpr ⟨hc, by rw [hx]; rfl⟩
    rw [s.kept] at hkept
    rcases List.mem_append.mp ((List.mem_cons.mp hkept).resolve_left hne) with hd | hf
    · apply noQualifiedSuper_of_leaf (s.dots.children_eq_nil hd hl)
      rcases s.dots.isNode hd with hd | hs
      · rw [hd.kind]
        decide
      · rw [hs.kind]
        decide
    · cases List.mem_singleton.mp hf
      exact noQualifiedSuper_of_isName hl s.field_name

theorem noQualifiedSuper_iff (s : FieldShape t object dots field) (h : grammar.Valid t)
    (hk : t.kind = "field_access") :
    NoQualifiedSuper t ↔ NoQualifiedSuper object ∧ NoLooseSuper t := by
  have ho : object ∈ t.children := mem_children_of_kept s.kept List.mem_cons_self
  constructor
  · intro hq
    refine ⟨fun n hn => hq n ?_, hq t t.mem_preorder_self hk⟩
    exact Tree.mem_preorder_trans (Tree.mem_preorder_of_child ho) hn
  · rintro ⟨hobject, hloose⟩ n hn hf
    rcases Tree.mem_preorder_iff.mp hn with rfl | ⟨c, hc, hn⟩
    · exact hloose
    · by_cases hc' : c = object
      · exact hobject n (hc' ▸ hn) hf
      · exact s.noQualifiedSuper_of_ne_object h hc hc' n hn hf

end FieldShape

/-! ## Lowered paths -/

/-- A path is lowered to a reference, which reads as the names that are shown with dots between
them. -/
theorem lower_path (h : grammar.Valid t) (hp : IsPath t) (source : List Char) :
    namesShown source t ≠ [] ∧ ∃ r, reference? (lower source t) = some r ∧
      dotted r = ".".intercalate (namesShown source t) := by
  induction hp with
  | @name t hn =>
    have hnames : namesShown source t = [nodeText source t] := if_pos hn
    rw [isName, Bool.and_eq_true] at hn
    rw [reference?_lower, hn.1, literalKinds_of_nameKinds hn.2, hn.2, hnames]
    exact ⟨List.cons_ne_nil _ _, _, rfl, String.intercalate_singleton.symm⟩
  | @access t hk _ ih =>
    obtain ⟨hn, object, dots, field, s⟩ := exists_fieldShape h.licenses hk
    have ho : object ∈ keptChildren t := by
      rw [s.kept]
      exact List.mem_cons_self
    have hov := h.of_child (List.mem_of_mem_filter ho)
    obtain ⟨hne, r, hr, hdotted⟩ := ih object ho s.object_named hov
    rw [s.namesShown_eq h hk, s.reference?_lower h hn hk, hr]
    refine ⟨by simp, _, rfl, ?_⟩
    rw [String.intercalate_append_of_ne_nil hne (List.cons_ne_nil _ _), ← hdotted,
      String.intercalate_singleton]
    rfl

/-- Some of the names at the beginning are all names only if they are those at the beginning. -/
theorem eq_append_iff_of_sublist {xs ys : List String} (h : xs.Sublist ys) (zs : List String) :
    xs = ys ++ zs ↔ xs = ys ∧ zs = [] := by
  constructor
  · intro heq
    have hlength := congrArg List.length heq
    have hle := h.length_le
    rw [List.length_append] at hlength
    have hzs : zs = [] := List.eq_nil_of_length_eq_zero (by omega)
    exact ⟨by rw [heq, hzs, List.append_nil], hzs⟩
  · rintro ⟨rfl, rfl⟩
    rw [List.append_nil]

/-- A path shows all its names unless a `super` in it is qualified. -/
theorem namesShown_eq_iff (h : grammar.Valid t) (hp : IsPath t) (source : List Char) :
    namesShown source t = namesIn source t ↔ NoQualifiedSuper t := by
  induction hp with
  | @name t hn =>
    refine iff_of_true ?_ (noQualifiedSuper_of_isName h.licenses hn)
    rw [namesShown, if_pos hn, namesIn,
      textsWhere_of_leaf isName source (children_of_isName h.licenses hn), if_pos hn]
  | @access t hk _ ih =>
    obtain ⟨hn, object, dots, field, s⟩ := exists_fieldShape h.licenses hk
    have ho : object ∈ keptChildren t := by
      rw [s.kept]
      exact List.mem_cons_self
    have hov := h.of_child (List.mem_of_mem_filter ho)
    have hdots := s.dots.namesIn_eq_nil_iff (fun c hc =>
      (h.of_child (mem_children_of_kept s.kept (by simp [hc]))).licenses) source
    rw [s.namesShown_eq h hk, s.namesIn_eq h hk, ← List.append_assoc, List.append_cancel_right_eq,
      eq_append_iff_of_sublist (namesShown_sublist hov.licenses source),
      ih object ho s.object_named hov, hdots, s.noQualifiedSuper_iff h hk, s.noLooseSuper_iff h]

/-- A text that shows a path, and when it shows all of it. -/
def Shows (source : List Char) (p : Tree) (text : String) : Prop :=
  text = ".".intercalate (namesShown source p) ∧
    (text = ".".intercalate (namesIn source p) ↔ NoQualifiedSuper p)

theorem shows_dotted (h : grammar.Valid t) (hp : IsPath t) (source : List Char) :
    ∃ r, reference? (lower source t) = some r ∧ Shows source t (dotted r) := by
  obtain ⟨hne, r, hr, hdotted⟩ := lower_path h hp source
  refine ⟨r, hr, hdotted, ?_⟩
  rw [hdotted, intercalate_eq_iff (namesShown_sublist h.licenses source) hne,
    namesShown_eq_iff h hp]

end TestConversion.Java
