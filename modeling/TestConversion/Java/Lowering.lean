import TestConversion.Java.Admission
import TestConversion.Code.Unit

/-!
# From syntax trees to code

Comments are dropped, names, literals, field paths, binary operations and calls get their own forms,
and everything else keeps its kind and its children. The nodes are numbered parents first and
assembled from the last number on, so that the children of a node are ready when their parent takes
them.
-/

namespace TestConversion.Java

open Text Syntax Code

def literalKinds : List String := [
  "string_literal", "character_literal", "text_block", "decimal_integer_literal",
  "hex_integer_literal", "octal_integer_literal", "binary_integer_literal",
  "decimal_floating_point_literal", "hex_floating_point_literal", "true", "false",
  "null_literal"]

/-- Kinds that become the sequence of the nodes in them. -/
def sequenceKinds : List String := ["argument_list", "block", "array_initializer"]

/-- Kinds that read as a name. -/
def nameKinds : List String := ["identifier", "this", "super"]

/-- A lowered child with the field that it fills. -/
abbrev Lowered := Option String × Child

/-- The text of a node. -/
def nodeText (source : List Char) (t : Tree) : String := String.ofList (textOf source t)

def sourceTextOf (source : List Char) (t : Tree) : SourceText :=
  ⟨source, t.span.start, t.span.stop⟩

/-! ## Forms -/

/-- The nodes of a child. -/
def nodesOf : Child → List Node
  | .node n => [n]
  | .sequence ns => ns
  | .token _ => []

/-- A field of a name or of a dotted path; no form for a field of anything else. -/
def fieldAccess? (source : List Char) (t : Tree) (children : List Lowered) : Option Node := do
  let field ← t.childIn "field"
  let (qualifier, last) ← children.findSome? fun c =>
    match c with
    | (some "object", .node (.reference q m)) => some (q, m)
    | _ => none
  let path := match qualifier with
    | some q => q ++ "." ++ last
    | none => last
  return .reference (some path) (nodeText source field)

/-- The last node that fills a field. -/
def nodeIn (field : String) (children : List Lowered) : Option Node :=
  children.reverse.findSome? fun c =>
    match c with
    | (f, .node n) => if f == some field then some n else none
    | _ => none

/-- The last token that fills a field. -/
def tokenIn (field : String) (children : List Lowered) : Option String :=
  children.reverse.findSome? fun c =>
    match c with
    | (f, .token t) => if f == some field then some t else none
    | _ => none

def binary? (children : List Lowered) : Option Node := do
  let left ← nodeIn "left" children
  let operator ← tokenIn "operator" children
  let right ← nodeIn "right" children
  return .binary left operator right

/-- The last child that fills a field. -/
def childIn (field : String) (children : List Lowered) : Option Child :=
  children.reverse.findSome? fun c => if c.1 == some field then some c.2 else none

/-- The argument list of a call. -/
def argumentsOf (children : List Lowered) : List Node :=
  (children.reverse.findSome? fun c =>
    match c with
    | (some "arguments", .sequence ns) => some ns
    | _ => none).getD []

/-- A call. One on the result of another call joins the calls chained onto that one, and one on a
name or dotted path has it as its qualifier. -/
def invocation? (source : List Char) (t : Tree) (children : List Lowered) : Option Node := do
  let name ← t.childIn "name"
  let member := nodeText source name
  let arguments := argumentsOf children
  let text := sourceTextOf source t
  return .invocation <|
    match childIn "object" children with
    | some (.node (.invocation base)) =>
      base.chain (.mk member none arguments [] none ⟨source, name.span.start, t.span.stop⟩) text
    | some (.node (.reference (some q) last)) =>
      .mk member (some (q ++ "." ++ last)) arguments [] none text
    | some (.node (.reference none last)) => .mk member (some last) arguments [] none text
    | some (.node receiver) => .mk member none arguments [] (some receiver) text
    | _ => .mk member none arguments [] none text

/-- The form of a node whose children are lowered. -/
def assemble (source : List Char) (t : Tree) (children : List Lowered) : Child :=
  if !t.named then .token (nodeText source t)
  else if literalKinds.contains t.kind then .node (.literal (nodeText source t))
  else if nameKinds.contains t.kind then .node (.name (nodeText source t))
  else if sequenceKinds.contains t.kind then .sequence (children.flatMap fun c => nodesOf c.2)
  else
    let form :=
      if t.kind == "field_access" then fieldAccess? source t children
      else if t.kind == "binary_expression" then binary? children
      else if t.kind == "method_invocation" then invocation? source t children
      else none
    .node (form.getD (.other t.kind (sourceTextOf source t) (children.map (·.2))))

/-! ## Lowering -/

/-- The children that are not comments. -/
def keptChildren (t : Tree) : List Tree := t.children.filter fun c => !c.extra

theorem forestSize_filter (p : Tree → Bool) (ts : List Tree) :
    forestSize (ts.filter p) ≤ forestSize ts := by
  induction ts with
  | nil => simp
  | cons t ts ih =>
    rw [List.filter_cons]
    split <;> simp only [forestSize] <;> omega

/-- The field that a child fills and its number. -/
abbrev Link := Option String × Nat

/-- Nodes by number, and for each of them the links to its children. -/
structure Listing where
  nodes : Array Tree
  links : Array (Array Link)

/-- A node still to be listed, with the number of its parent. -/
structure Pending where
  parent : Option Nat
  node : Tree

namespace Listing

def empty : Listing := ⟨#[], #[]⟩

/-- Gives a node the next number and links its parent to it. -/
def add (l : Listing) (p : Pending) : Listing where
  nodes := l.nodes.push p.node
  links :=
    let links := l.links.push #[]
    match p.parent with
    | some parent => links.modify parent (·.push (p.node.field, l.nodes.size))
    | none => links

/-- Lists pending nodes and what is below them without comments, parents before children. -/
def extend (l : Listing) : List Pending → Listing
  | [] => l
  | p :: ps =>
    -- the last child is pushed first, so that the first one is listed next
    (l.add p).extend ((keptChildren p.node).foldr (⟨some l.nodes.size, ·⟩ :: ·) ps)
termination_by ps => forestSize (ps.map (·.node))
decreasing_by
  have := forestSize_filter (fun c => !c.extra) p.node.children
  simp only [List.foldr_cons_eq_append, List.map_append, List.map_map, Function.comp_def,
    List.map_id', List.map_cons, forestSize, forestSize_append, treeSize_eq, keptChildren]
  omega

end Listing

/-- The listing of a tree. -/
def listing (t : Tree) : Listing := Listing.empty.extend [⟨none, t⟩]

/-- What nodes are lowered to, by number, until their parents take it. -/
abbrev Slots := Array (Option Child)

/-- Takes what some links lead to. -/
def takeAll : List Link → Slots → List Lowered × Slots
  | [], slots => ([], slots)
  | (field, number) :: links, slots =>
    let taken := slots[number]?.join
    let (others, slots) := takeAll links (slots.setIfInBounds number none)
    ((taken.map fun c => (field, c)).toList ++ others, slots)

/-- Assembles the node with a number from what its children are lowered to. -/
def assembleAt (source : List Char) (l : Listing) (number : Nat) (slots : Slots) : Slots :=
  match l.nodes[number]? with
  | some t =>
    let (children, slots) := takeAll (l.links.getD number #[]).toList slots
    slots.setIfInBounds number (some (assemble source t children))
  | none => slots

/-- The slots after all nodes from a number on are assembled, the last one first. -/
def slotsFrom (source : List Char) (l : Listing) (number : Nat) : Slots :=
  (List.range' number (l.nodes.size - number)).foldr (assembleAt source l)
    (Array.replicate l.nodes.size none)

/-- The lowered form of a tree. -/
def lower (source : List Char) (t : Tree) : Child :=
  ((slotsFrom source (listing t) 0)[0]?.join).getD (.sequence [])

/-! ## Declarations -/

/-- The identifiers of a name in order. -/
def segmentsFrom (source : List Char) (found : List String) : List Tree → List String
  | [] => found.reverse
  | t :: ts =>
    if t.kind == "identifier" then segmentsFrom source (nodeText source t :: found) ts
    else segmentsFrom source found (t.namedChildren ++ ts)
termination_by ts => forestSize ts
decreasing_by
  · simp only [forestSize, treeSize_eq]; omega
  · have := forestSize_filter (·.named) t.children
    simp only [forestSize, forestSize_append, treeSize_eq, Tree.namedChildren]
    omega

def segmentsOf (source : List Char) (t : Tree) : List String := segmentsFrom source [] [t]

def importOf (source : List Char) (t : Tree) : Import :=
  t.children.foldl
    (fun decl c =>
      if c.kind == "static" then { decl with isStatic := true }
      else if c.kind == "asterisk" then { decl with isWildcard := true }
      else if c.kind == "identifier" || c.kind == "scoped_identifier" then
        { decl with path := ".".intercalate (segmentsOf source c) }
      else decl)
    ⟨"", false, false⟩

def annotationsOf (source : List Char) (t : Tree) : List Annotation :=
  (t.children.filter fun c => c.kind == "modifiers").flatMap fun modifiers =>
    modifiers.children.filterMap fun m =>
      if m.kind == "marker_annotation" || m.kind == "annotation" then
        (m.childIn "name").map fun name => ⟨segmentsOf source name⟩
      else none

def methodOf? (source : List Char) (t : Tree) : Option Method := do
  let name ← t.childIn "name"
  let body := (t.childIn "body").map fun b => nodesOf (lower source b)
  return ⟨nodeText source name, annotationsOf source t, body⟩

def classOf? (source : List Char) (t : Tree) : Option TestClass := do
  let name ← t.childIn "name"
  let members := ((t.childIn "body").map (·.namedChildren)).getD []
  return ⟨nodeText source name,
    (members.filter fun m => m.kind == "method_declaration").filterMap (methodOf? source)⟩

/-- The declarations of an admitted tree. -/
def unitOf (source : List Char) (root : Tree) : CompilationUnit where
  imports := (root.namedChildren.filter fun c => c.kind == "import_declaration").map
    (importOf source)
  classes := (root.namedChildren.filter fun c => c.kind == "class_declaration").filterMap
    (classOf? source)

end TestConversion.Java
