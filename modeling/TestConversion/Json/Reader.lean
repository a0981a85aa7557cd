import TestConversion.Json.Basic
import TestConversion.Number.Decimal

/-!
# Reading JSON

A text is read against a shape: what the shape does not ask for is checked and dropped, and the
first thing that is wrong, from left to right, decides the failure. A text can end too early, be no
JSON, or be JSON of another shape.
-/

namespace TestConversion.Json

inductive Failure where
  /-- The text ends inside a value. -/
  | ended
  /-- The text is not JSON. -/
  | malformed
  /-- A value is not of the shape. -/
  | mismatched
  deriving DecidableEq

inductive Shape where
  | text
  | truth
  | list (item : Shape)
  /-- The value or `null`; as a field it may be missing. -/
  | optional (s : Shape)
  /-- Fields by name; an array with the fields in order is read as well. -/
  | record (fields : List (String × Shape))
  /-- Any value. -/
  | any

/-- A value that was read, with the text after it. -/
abbrev Reading (α : Type) := Except Failure (α × List Char)

def isSpace (c : Char) : Bool := c == ' ' || c == '\n' || c == '\t' || c == '\r'

def skipSpace (cs : List Char) : List Char := cs.dropWhile isSpace

/-! ## Words and numbers -/

/-- The rest of a word whose first letter has been read. -/
def expectWord : List Char → List Char → Except Failure (List Char)
  | [], cs => .ok cs
  | _ :: _, [] => .error .ended
  | w :: ws, c :: cs => if w == c then expectWord ws cs else .error .malformed

def digitsOf (cs : List Char) : List Char := cs.takeWhile Char.isDigit

/-- The part of a number from its exponent on; `early` is the failure where the text ends. -/
def exponentPart (early : Failure) (cs : List Char) : Reading (List Char) :=
  match cs with
  | e :: rest =>
    if e == 'e' || e == 'E' then
      let (sign, rest) :=
        match rest with
        | '+' :: r => (['+'], r)
        | '-' :: r => (['-'], r)
        | r => ([], r)
      match rest with
      | [] => .error early
      | _ =>
        let digits := digitsOf rest
        if digits.isEmpty then .error .malformed
        else .ok (e :: sign ++ digits, rest.drop digits.length)
    else .ok ([], cs)
  | [] => .ok ([], cs)

/-- A number without its sign. -/
def unsignedNumber (early : Failure) (cs : List Char) : Reading (List Char) :=
  let whole := digitsOf cs
  let rest := cs.drop whole.length
  match whole with
  | [] => .error (if cs.isEmpty then early else .malformed)
  | '0' :: _ :: _ => .error .malformed
  | _ =>
    match rest with
    | '.' :: after =>
      let digits := digitsOf after
      if digits.isEmpty then .error (if after.isEmpty then early else .malformed)
      else
        (exponentPart early (after.drop digits.length)).map fun r =>
          (whole ++ '.' :: digits ++ r.1, r.2)
    | _ => (exponentPart early rest).map fun r => (whole ++ r.1, r.2)

def readNumber (early : Failure) : List Char → Reading (List Char)
  | '-' :: cs => (unsignedNumber early cs).map fun r => ('-' :: r.1, r.2)
  | cs => unsignedNumber early cs

/-- A number beyond every binary64 number is no number. -/
def tooLarge (number : List Char) : Bool :=
  match (Number.Decimal.ofNumeral number).toBinary Number.double with
  | .infinite _ => true
  | _ => false

/-! ## Strings -/

def hexValue (c : Char) : Option Nat :=
  if c.isDigit then some (c.toNat - 48)
  else if 'a' ≤ c && c ≤ 'f' then some (c.toNat - 87)
  else if 'A' ≤ c && c ≤ 'F' then some (c.toNat - 55)
  else none

/-- Four hexadecimal digits. -/
def readUnit : List Char → Reading Nat
  | a :: b :: c :: d :: rest =>
    match hexValue a, hexValue b, hexValue c, hexValue d with
    | some a, some b, some c, some d => .ok (((a * 16 + b) * 16 + c) * 16 + d, rest)
    | _, _, _, _ => .error .malformed
  | _ => .error .ended

def isHighUnit (n : Nat) : Bool := 0xD800 ≤ n && n < 0xDC00

def isLowUnit (n : Nat) : Bool := 0xDC00 ≤ n && n < 0xE000

/-- A character written as one or two UTF-16 units, the `u` being read. -/
def readUnicode (strict : Bool) (cs : List Char) : Reading Char :=
  match readUnit cs with
  | .error e => .error e
  | .ok (n, rest) =>
    if !strict then .ok (Char.ofNat n, rest)
    else if isLowUnit n then .error .malformed
    else if isHighUnit n then
      match rest with
      | [] => .error .ended
      | '\\' :: [] => .error .ended
      | '\\' :: 'u' :: rest =>
        match readUnit rest with
        | .error e => .error e
        | .ok (m, rest) =>
          if isLowUnit m then
            .ok (Char.ofNat (0x10000 + (n - 0xD800) * 0x400 + (m - 0xDC00)), rest)
          else .error .malformed
      | _ => .error .malformed
    else .ok (Char.ofNat n, rest)

/-- The character that an escape stands for, the backslash being read. -/
def readEscape (strict : Bool) : List Char → Reading Char
  | [] => .error .ended
  | '"' :: cs => .ok ('"', cs)
  | '\\' :: cs => .ok ('\\', cs)
  | '/' :: cs => .ok ('/', cs)
  | 'b' :: cs => .ok ('\x08', cs)
  | 'f' :: cs => .ok ('\x0c', cs)
  | 'n' :: cs => .ok ('\n', cs)
  | 'r' :: cs => .ok ('\r', cs)
  | 't' :: cs => .ok ('\t', cs)
  | 'u' :: cs => readUnicode strict cs
  | _ :: _ => .error .malformed

/-- The rest of a string after its quote; `done` is what was read of it, reversed. Only a strict
reading needs the units of a pair to fit together. -/
def readStringFrom (strict : Bool) : Nat → List Char → List Char → Reading String
  | 0, _, _ => .error .ended
  | _ + 1, _, [] => .error .ended
  | fuel + 1, done, c :: cs =>
    if c == '"' then .ok (String.ofList done.reverse, cs)
    else if c == '\\' then
      match readEscape strict cs with
      | .error e => .error e
      | .ok (d, rest) => readStringFrom strict fuel (d :: done) rest
    else if c.toNat < 0x20 then .error .malformed
    else readStringFrom strict fuel (c :: done) cs

def readString (strict : Bool) (cs : List Char) : Reading String :=
  readStringFrom strict (cs.length + 1) [] cs

/-! ## Arrays and objects -/

/-- Whether another item follows; `first` says that none was read yet. -/
def nextItem (first : Bool) (cs : List Char) : Except Failure (Option (List Char)) :=
  match skipSpace cs with
  | [] => .error .ended
  | c :: rest =>
    if c == ']' then .ok none
    else if first then .ok (some (c :: rest))
    else if c == ',' then
      match skipSpace rest with
      | [] => .error .ended
      | ']' :: _ => .error .malformed
      | rest => .ok (some rest)
    else .error .malformed

/-- The key of the next member with the text after its colon. -/
def nextKey (strict first : Bool) (cs : List Char) : Except Failure (Option (String × List Char)) :=
  let key := fun (rest : List Char) =>
    match rest with
    | [] => .error .ended
    | '"' :: rest => do
      let (k, rest) ← readString strict rest
      return some (k, rest)
    | _ => .error .malformed
  match skipSpace cs with
  | [] => .error .ended
  | c :: rest =>
    if c == '\x7d' then .ok none
    else if first then key (c :: rest)
    else if c == ',' then key (skipSpace rest)
    else .error .malformed

def expectColon (cs : List Char) : Except Failure (List Char) :=
  match skipSpace cs with
  | [] => .error .ended
  | ':' :: rest => .ok rest
  | _ => .error .malformed

/-- Closes an array or object; anything else before the end is malformed. -/
def expectClose (close : Char) (cs : List Char) : Except Failure (List Char) :=
  match skipSpace cs with
  | [] => .error .ended
  | c :: rest => if c == close then .ok rest else .error .malformed

/-- The items of an array up to its end, each read by `item`. -/
def readItems (item : List Char → Reading Json) : Nat → Bool → List Json → List Char →
    Reading (List Json)
  | 0, _, _, _ => .error .ended
  | fuel + 1, first, done, cs =>
    match nextItem first cs with
    | .error e => .error e
    | .ok none => .ok (done.reverse, cs)
    | .ok (some rest) =>
      match item rest with
      | .error e => .error e
      | .ok (v, rest) => readItems item fuel false (v :: done) rest

/-- The members of an object up to its end, each value read by `value`. -/
def readMembers (strict : Bool) (value : List Char → Reading Json) : Nat → Bool →
    List (String × Json) → List Char → Reading (List (String × Json))
  | 0, _, _, _ => .error .ended
  | fuel + 1, first, done, cs =>
    match nextKey strict first cs with
    | .error e => .error e
    | .ok none => .ok (done.reverse, cs)
    | .ok (some (k, rest)) =>
      match (expectColon rest).bind value with
      | .error e => .error e
      | .ok (v, rest) => readMembers strict value fuel false ((k, v) :: done) rest

/-- What was read, once the closing character after it is read too. -/
def closed {α : Type} (close : Char) (reading : Reading α) : Reading α :=
  match reading with
  | .error e => .error e
  | .ok (v, rest) => (expectClose close rest).map fun rest => (v, rest)

/-- Any value; strings need not be well-formed UTF-16 unless `strict`. -/
def readAny (strict : Bool) : Nat → List Char → Reading Json
  | 0, _ => .error .ended
  | fuel + 1, cs =>
    match skipSpace cs with
    | [] => .error .ended
    | c :: rest =>
      if c == 'n' then (expectWord "ull".toList rest).map fun r => (.null, r)
      else if c == 't' then (expectWord "rue".toList rest).map fun r => (.bool true, r)
      else if c == 'f' then (expectWord "alse".toList rest).map fun r => (.bool false, r)
      else if c == '"' then (readString strict rest).map fun r => (.string r.1, r.2)
      else if c == '-' || c.isDigit then
        (readNumber .malformed (c :: rest)).map fun r => (.number (String.ofList r.1), r.2)
      else if c == '[' then
        (closed ']' (readItems (readAny strict fuel) (rest.length + 1) true [] rest)).map fun r =>
          (.array r.1, r.2)
      else if c == '\x7b' then
        (closed '\x7d' (readMembers strict (readAny strict fuel) (rest.length + 1) true []
          rest)).map fun r => (.object r.1, r.2)
      else .error .malformed

def anyFuel (cs : List Char) : Nat := cs.length + 1

/-! ## Shapes -/

/-- A value where another one is needed: a mismatch, unless it is no value. -/
def mismatch (cs : List Char) : Failure :=
  match cs with
  | [] => .ended
  | c :: rest =>
    let after : Except Failure Unit :=
      if c == 'n' then (expectWord "ull".toList rest).map fun _ => ()
      else if c == 't' then (expectWord "rue".toList rest).map fun _ => ()
      else if c == 'f' then (expectWord "alse".toList rest).map fun _ => ()
      else if c == '"' then (readString true rest).map fun _ => ()
      else if c == '-' || c.isDigit then
        (readNumber .ended (c :: rest)).bind fun r =>
          if tooLarge r.1 then .error .malformed else .ok ()
      else if c == '[' || c == '\x7b' then .ok ()
      else .error .malformed
    match after with
    | .error e => e
    | .ok () => .mismatched

/-- A field that was found so far. -/
abbrev Found := List (String × Json)

/-- The fields of a record in order; only optional ones may be missing. -/
def completeFields (found : Found) : List (String × Shape) → Except Failure (List (String × Json))
  | [] => .ok []
  | (name, shape) :: rest =>
    match (found.find? fun f => f.1 == name).map (·.2), shape with
    | some v, _ => (completeFields found rest).map ((name, v) :: ·)
    | none, .optional _ => (completeFields found rest).map ((name, .null) :: ·)
    | none, _ => .error .mismatched

/-- The members of a record up to its end. `field` reads the value of a field, if there is one of
that name; other members are dropped. -/
def readFields (field : String → Option (List Char → Reading Json)) :
    Nat → Bool → Found → List Char → Reading Found
  | 0, _, _, _ => .error .ended
  | fuel + 1, first, found, cs =>
    match nextKey true first cs with
    | .error e => .error e
    | .ok none => .ok (found, cs)
    | .ok (some (k, rest)) =>
      match field k with
      | none =>
        match (expectColon rest).bind fun rest => readAny false (anyFuel rest) rest with
        | .error e => .error e
        | .ok (_, rest) => readFields field fuel false found rest
      | some read =>
        if found.any (·.1 == k) then .error .mismatched
        else
          match (expectColon rest).bind read with
          | .error e => .error e
          | .ok (v, rest) => readFields field fuel false (found ++ [(k, v)]) rest

mutual

/-- Reads a value of a shape. -/
def read (s : Shape) (cs : List Char) : Reading Json :=
  match s with
  | .any => readAny true (anyFuel cs) cs
  | .text =>
    match skipSpace cs with
    | '"' :: rest => (readString true rest).map fun r => (.string r.1, r.2)
    | cs => .error (mismatch cs)
  | .truth =>
    match skipSpace cs with
    | 't' :: rest => (expectWord "rue".toList rest).map fun r => (.bool true, r)
    | 'f' :: rest => (expectWord "alse".toList rest).map fun r => (.bool false, r)
    | cs => .error (mismatch cs)
  | .optional s =>
    match skipSpace cs with
    | 'n' :: rest => (expectWord "ull".toList rest).map fun r => (.null, r)
    | cs => read s cs
  | .list item =>
    match skipSpace cs with
    | '[' :: rest =>
      (closed ']' (readItems (read item) (rest.length + 1) true [] rest)).map fun r =>
        (.array r.1, r.2)
    | cs => .error (mismatch cs)
  | .record fields =>
    match skipSpace cs with
    | '\x7b' :: rest =>
      match readFields (fieldReader fields) (rest.length + 1) true [] rest with
      | .error e => .error e
      | .ok (found, rest) =>
        match completeFields found fields with
        | .error e => .error e
        | .ok all => (closed '\x7d' (.ok (all, rest))).map fun r => (.object r.1, r.2)
    | '[' :: rest => (closed ']' (readRow fields true rest)).map fun r => (.object r.1, r.2)
    | cs => .error (mismatch cs)

/-- The reader of a field's value. -/
def fieldReader (fields : List (String × Shape)) (name : String) :
    Option (List Char → Reading Json) :=
  match fields with
  | [] => none
  | (n, s) :: rest => if n == name then some (read s) else fieldReader rest name

/-- The fields of a record from the items of an array. -/
def readRow (fields : List (String × Shape)) (first : Bool) (cs : List Char) :
    Reading (List (String × Json)) :=
  match fields with
  | [] => .ok ([], cs)
  | (n, s) :: rest =>
    match nextItem first cs with
    | .error e => .error e
    | .ok none => .error .mismatched
    | .ok (some cs) =>
      match read s cs with
      | .error e => .error e
      | .ok (v, cs) =>
        match readRow rest false cs with
        | .error e => .error e
        | .ok (vs, cs) => .ok ((n, v) :: vs, cs)

end

/-- A whole text of a shape; nothing but blanks may follow. -/
def decode (s : Shape) (text : String) : Except Failure Json :=
  match read s text.toList with
  | .error e => .error e
  | .ok (v, rest) => if (skipSpace rest).isEmpty then .ok v else .error .malformed

/-- Any JSON text. -/
def parse? (text : String) : Option Json := (decode .any text).toOption

end TestConversion.Json
