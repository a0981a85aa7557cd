import TestConversion.Toml.Scalar

/-!
# Reading documents

A document consists of lines with a header or with a key and its value. One that breaks a rule
anywhere has no meaning at all.
-/

namespace TestConversion.Toml

/-! ## Values -/

/-- The items of a list up to its bracket, each read by `item`. -/
def itemsFrom (item : List Char → Scan Value) : Nat → List Char → Scan (List Value)
  | 0, _ => none
  | fuel + 1, cs =>
    match skipAllLines cs with
    | none => none
    | some (']' :: cs) => some ([], cs)
    | some cs =>
      match item cs with
      | none => none
      | some (v, cs) =>
        match skipAllLines cs with
        | some (']' :: cs) => some ([v], cs)
        | some (',' :: cs) =>
          match itemsFrom item fuel cs with
          | some (vs, cs) => some (v :: vs, cs)
          | none => none
        | _ => none

/-- A dotted key, an equals sign and a value, with blanks between them. -/
def entry (value : List Char → Scan Value) (cs : List Char) : Scan (List String × Value) :=
  match key cs with
  | some (k, '=' :: cs) =>
    match value (skipBlanks cs) with
    | some (v, cs) => some ((k, v), cs)
    | none => none
  | _ => none

/-- Adds a value under a key of one or more parts to a table. -/
def insertEntry (ms : Members) (key : List String) (v : Value) : Option Members :=
  match key.getLast? with
  | some last => insert true last v key.dropLast ms
  | none => none

/-- The entries of a table between braces up to its end; none may follow the last comma. -/
def entriesFrom (value : List Char → Scan Value) : Nat → Members → List Char → Scan Members
  | 0, _, _ => none
  | fuel + 1, ms, cs =>
    match entry value cs with
    | none => none
    | some ((k, v), cs) =>
      match insertEntry ms k v with
      | none => none
      | some ms =>
        match skipBlanks cs with
        | '\x7d' :: cs => some (ms, cs)
        | ',' :: cs => entriesFrom value fuel ms cs
        | _ => none

/-- A value in which lists and tables lie at most `depth` deep. -/
def value (depth : Nat) (cs : List Char) : Scan Value :=
  match depth, cs with
  | 0, '[' :: _ => none
  | 0, '\x7b' :: _ => none
  | depth + 1, '[' :: cs =>
    (itemsFrom (value depth) (cs.length + 1) cs).map fun r => (.list r.1, r.2)
  | depth + 1, '\x7b' :: cs =>
    match skipBlanks cs with
    | '\x7d' :: cs => some (.closed [], cs)
    | cs => (entriesFrom (value depth) (cs.length + 1) [] cs).map fun r => (.closed r.1, r.2)
  | _, '"' :: cs => (text ('"' :: cs)).map fun r => (.text r.1, r.2)
  | _, '\'' :: cs => (text ('\'' :: cs)).map fun r => (.text r.1, r.2)
  | _, cs => word cs

/-! ## Documents -/

/-- What a document has come to, and the header that the next lines belong to. -/
structure Progress where
  root : Members
  header : Path

/-- The table of the last header, changed. -/
def Progress.inHeader (p : Progress) (change : Members → Option Members) : Option Progress :=
  (alter change p.header p.root).map fun root => { p with root }

/-- Opens the table of a header. -/
def Progress.opened (p : Progress) (path : Path) (change : String → Members → Option Members) :
    Option Progress :=
  match path.getLast? with
  | none => none
  | some last => (alter (change last) path.dropLast p.root).map fun root => ⟨root, path⟩

/-- A line that is not blank, up to its end. -/
def line (p : Progress) (cs : List Char) : Scan Progress :=
  match cs with
  | '[' :: '[' :: cs =>
    match key cs with
    | some (path, ']' :: ']' :: cs) => (p.opened path openElement).map fun p => (p, cs)
    | _ => none
  | '[' :: cs =>
    match key cs with
    | some (path, ']' :: cs) => (p.opened path openTable).map fun p => (p, cs)
    | _ => none
  | cs =>
    match entry (value depthLimit) cs with
    | some ((k, v), cs) => (p.inHeader fun ms => insertEntry ms k v).map fun p => (p, cs)
    | none => none

def linesOf : Nat → Progress → List Char → Option Members
  | 0, _, _ => none
  | fuel + 1, p, cs =>
    match finishLine cs with
    | some [] => some p.root
    | some cs => linesOf fuel p cs
    | none =>
      match line p (skipBlanks cs) with
      | none => none
      | some (p, cs) =>
        match finishLine cs with
        | some [] => some p.root
        | some cs => linesOf fuel p cs
        | none => none

/-- The table of a document. -/
def parse (document : String) : Option Members :=
  let cs :=
    match document.toList with
    | c :: cs => if c == '\uFEFF' then cs else c :: cs
    | [] => []
  linesOf (cs.length + 1) ⟨[], []⟩ cs

end TestConversion.Toml
