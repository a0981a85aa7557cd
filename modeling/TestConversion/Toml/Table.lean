import TestConversion.Number.Binary

/-!
# Tables of settings

A document is a table of keys and values. Tables come about in several ways, and how a table came
about decides what may still be added to it: a table is opened once by a header, tables on the way
to it are implied until then, and tables made by dotted keys are only extended by dotted keys.
-/

namespace TestConversion.Toml

/-- How a table came about. -/
inductive Origin where
  /-- It has a header of its own. -/
  | header
  /-- It lies on the way to a header. -/
  | implied
  /-- It lies on the way to a dotted key. -/
  | dotted
  deriving DecidableEq

inductive Value where
  | text (s : String)
  | integer (n : Int)
  /-- A double number. -/
  | number (x : Number.Binary)
  | truth (b : Bool)
  /-- A date or a time. -/
  | moment
  | list (items : List Value)
  /-- A table between braces, which is never extended. -/
  | closed (members : List (String × Value))
  | table (origin : Origin) (members : List (String × Value))
  /-- Tables with headers in double brackets. -/
  | tables (elements : List (List (String × Value)))

abbrev Members := List (String × Value)

namespace Members

def get? (ms : Members) (key : String) : Option Value := (ms.find? (·.1 == key)).map (·.2)

/-- Replaces the value of a key, or adds the key at the end. -/
def put (ms : Members) (key : String) (v : Value) : Members :=
  match ms with
  | [] => [(key, v)]
  | m :: ms => if m.1 == key then (key, v) :: ms else m :: put ms key v

end Members

/-- A path through tables. -/
abbrev Path := List String

/-- Changes the table that the headers on a path lead to; of several tables of one header the last
one is meant. -/
def alter (change : Members → Option Members) : Path → Members → Option Members
  | [], ms => change ms
  | key :: path, ms =>
    match ms.get? key with
    | none => (alter change path []).map fun inner => ms.put key (.table .implied inner)
    | some (.table origin inner) =>
      (alter change path inner).map fun inner => ms.put key (.table origin inner)
    | some (.tables elements) =>
      match elements.getLast? with
      | none => none
      | some last =>
        (alter change path last).map fun last => ms.put key (.tables (elements.dropLast ++ [last]))
    | some _ => none

/-- Opens the table of a header; only an implied table can be there already. -/
def openTable (key : String) (ms : Members) : Option Members :=
  match ms.get? key with
  | none => some (ms.put key (.table .header []))
  | some (.table .implied inner) => some (ms.put key (.table .header inner))
  | some _ => none

/-- Opens one more table of a header in double brackets. -/
def openElement (key : String) (ms : Members) : Option Members :=
  match ms.get? key with
  | none => some (ms.put key (.tables [[]]))
  | some (.tables elements) => some (ms.put key (.tables (elements ++ [[]])))
  | some _ => none

/-- Adds a value under a dotted key. `isOpen` says that values may be added to this very table. -/
def insert (isOpen : Bool) (key : String) (v : Value) : Path → Members → Option Members
  | [], ms => if isOpen && (ms.get? key).isNone then some (ms.put key v) else none
  | k :: path, ms =>
    match ms.get? k with
    | none => (insert true key v path []).map fun inner => ms.put k (.table .dotted inner)
    | some (.table .header _) => none
    | some (.table origin inner) =>
      (insert (origin = .dotted) key v path inner).map fun inner => ms.put k (.table origin inner)
    | some (.tables elements) =>
      match elements.getLast? with
      | none => none
      | some last =>
        (insert false key v path last).map fun last =>
          ms.put k (.tables (elements.dropLast ++ [last]))
    | some _ => none

end TestConversion.Toml
