import TestConversion.Syntax.Pattern

/-!
# Globs

Patterns for paths. A question mark stands for one byte and a star for any number of them, none a
slash; two stars between slashes stand for any number of directories; brackets hold a class of bytes
and braces hold alternatives. A glob is matched against the bytes of a path, each of which is held
as a character below 256.

* `classFrom_length`: what comes after a class is shorter than what it was read from.
-/

namespace TestConversion.Files

open Syntax

/-- The bytes of a character. -/
def bytesOf (c : Char) : List Char :=
  (String.singleton c).toUTF8.toList.map fun b => Char.ofNat b.toNat

def bytesOfString (s : String) : List Char := s.toList.flatMap bytesOf

inductive GlobToken where
  | literal (c : Char)
  /-- One byte. -/
  | one
  /-- Bytes within a name. -/
  | many
  /-- Two stars at the start. -/
  | leading
  /-- A slash and two stars at the end. -/
  | trailing
  /-- Two stars between slashes. -/
  | between
  | among (negated : Bool) (ranges : List (Char × Char))
  | either (branches : List (List GlobToken))

/-! ## Reading -/

/-- How the reading of a class ends. -/
inductive ClassReading where
  | unclosed
  /-- A range with its ends in the wrong order. -/
  | reversed
  | closed (ranges : List (Char × Char)) (rest : List Char)

/-- Reads a class up to its closing bracket. `pending` says that a dash waits for the end of a
range; `ranges` is reversed. -/
def classFrom (first pending : Bool) (ranges : List (Char × Char)) : List Char → ClassReading
  | [] => .unclosed
  | c :: cs =>
    if c == ']' && !first then
      .closed (if pending then (('-', '-') :: ranges).reverse else ranges.reverse) cs
    else if c == '-' && !first && !pending then classFrom false true ranges cs
    else
      match pending, ranges with
      | true, (low, _) :: rest =>
        if c < low then .reversed else classFrom false false ((low, c) :: rest) cs
      | _, _ => classFrom false false ((c, c) :: ranges) cs

theorem classFrom_length {first pending : Bool} {ranges out : List (Char × Char)}
    {cs rest : List Char} (h : classFrom first pending ranges cs = .closed out rest) :
    rest.length < cs.length := by
  induction cs generalizing first pending ranges with
  | nil => simp [classFrom] at h
  | cons c cs ih =>
    simp only [classFrom] at h
    split at h
    · simp only [ClassReading.closed.injEq] at h
      simp [← h.2]
    · split at h
      · have := ih h
        simp only [List.length_cons]; omega
      · split at h
        · split at h
          · simp at h
          · have := ih h
            simp only [List.length_cons]; omega
        · have := ih h
          simp only [List.length_cons]; omega

/-- The mark at the start of a class that turns it round. -/
def classMark : List Char → Bool × List Char
  | '!' :: cs => (true, cs)
  | '^' :: cs => (true, cs)
  | cs => (false, cs)

theorem classMark_length (cs : List Char) : (classMark cs).2.length ≤ cs.length := by
  unfold classMark
  split <;> simp

/-- Branches that are being read. -/
structure OpenBranch where
  /-- The tokens of the branch, reversed. -/
  tokens : List GlobToken
  /-- The branches before it, reversed. -/
  before : List (List GlobToken)

structure GlobState where
  current : OpenBranch
  /-- The branches around it, the innermost first. -/
  outer : List OpenBranch
  /-- An opening bracket without a closing one makes all brackets plain. -/
  plainBrackets : Bool

namespace GlobState

def start : GlobState := ⟨⟨[], []⟩, [], false⟩

def push (s : GlobState) (t : GlobToken) : GlobState :=
  { s with current := { s.current with tokens := t :: s.current.tokens } }

def openGroup (s : GlobState) : GlobState :=
  { s with current := ⟨[], []⟩, outer := s.current :: s.outer }

def closeGroup? (s : GlobState) : Option GlobState :=
  match s.outer with
  | [] => none
  | b :: outer =>
    let branches := (s.current.tokens.reverse :: s.current.before).reverse
    some { s with current := { b with tokens := .either branches :: b.tokens }, outer }

def comma (s : GlobState) : GlobState :=
  if s.outer.isEmpty then s.push (.literal ',')
  else { s with current := ⟨[], s.current.tokens.reverse :: s.current.before⟩ }

/-- Puts two stars in the place of the separator before them. -/
def replaceLast (s : GlobState) (new : GlobToken) : GlobState :=
  match s.current.tokens with
  | .leading :: _ => s
  | .trailing :: _ => s
  | _ :: ts => { s with current := { s.current with tokens := new :: ts } }
  | [] => s

/-- Two stars in front of `cs`; tells also whether a slash of it was read with them. -/
def twoStars (s : GlobState) (previous : Option Char) (cs : List Char) : GlobState × Bool :=
  let plain := ((s.push .many).push .many, false)
  if s.current.tokens.isEmpty then
    match cs with
    | [] => (s.push .leading, false)
    | '/' :: _ => (s.push .leading, true)
    | _ => plain
  else if previous != some '/' &&
      (s.outer.isEmpty || (previous != some ',' && previous != some '\x7b')) then plain
  else
    match cs with
    | [] => (s.replaceLast .trailing, false)
    | c :: _ =>
      if (c == ',' || c == '\x7d') && !s.outer.isEmpty then (s.replaceLast .trailing, false)
      else if c == '/' then (s.replaceLast .between, true)
      else plain

end GlobState

theorem closed_length_lt {cs rest : List Char} {ranges : List (Char × Char)}
    (h : classFrom true false [] (classMark cs).2 = .closed ranges rest) :
    rest.length < cs.length + 1 := by
  have := classFrom_length h
  have := classMark_length cs
  omega

/-- Reads the rest of a glob; `previous` is the character in front of it. -/
def globFrom (s : GlobState) (previous : Option Char) (cs : List Char) : Option GlobState :=
  match cs with
  | [] => some s
  | '?' :: cs => globFrom (s.push .one) (some '?') cs
  | '*' :: '*' :: cs =>
    match s.twoStars previous cs, cs with
    | (s, true), _ :: cs => globFrom s (some '/') cs
    | (s, _), cs => globFrom s (some '*') cs
  | '*' :: cs => globFrom (s.push .many) (some '*') cs
  | '\\' :: [] => none
  | '\\' :: c :: cs => globFrom (s.push (.literal c)) (some c) cs
  | c :: cs =>
    if c == '[' && !s.plainBrackets then
      match _reading : classFrom true false [] (classMark cs).2 with
      | .reversed => none
      | .unclosed => globFrom { s.push (.literal '[') with plainBrackets := true } (some '[') cs
      | .closed ranges rest => globFrom (s.push (.among (classMark cs).1 ranges)) (some ']') rest
    else if c == '\x7b' then globFrom s.openGroup (some c) cs
    else if c == '\x7d' then
      match s.closeGroup? with
      | none => none
      | some s => globFrom s (some c) cs
    else if c == ',' then globFrom s.comma (some c) cs
    else globFrom (s.push (.literal c)) (some c) cs
termination_by cs.length
decreasing_by
  all_goals simp only [List.length_cons]
  all_goals first
    | omega
    | exact closed_length_lt _reading

/-- The tokens of a glob; none if it is not well-formed. -/
def readGlob (cs : List Char) : Option (List GlobToken) :=
  match globFrom .start none cs with
  | some s => if s.outer.isEmpty then some s.current.tokens.reverse else none
  | none => none

/-! ## Patterns -/

def anyByte : Pattern := .one (.outside [])

def nameByte : Pattern := .one (.outside [('/', '/')])

def slash : Pattern := .text ['/']

/-- The bytes of a class: a range goes from the last byte of its first character to the first byte
of its last one. -/
def classRanges (ranges : List (Char × Char)) : List (Char × Char) :=
  ranges.flatMap fun (low, high) =>
    let single := fun c : Char => (c, c)
    if low = high then (bytesOf low).map single
    else
      match (bytesOf low).getLast?, bytesOf high with
      | some l, h :: hs => (bytesOf low).dropLast.map single ++ (l, h) :: hs.map single
      | _, _ => []

mutual

/-- The paths of a token; a group of empty branches has no pattern. -/
def GlobToken.pattern : GlobToken → Option Pattern
  | .literal c => some (.text (bytesOf c))
  | .one => some nameByte
  | .many => some (.star nameByte)
  | .leading => some (.alt (.optional slash) (.seq (.star anyByte) slash))
  | .trailing => some (.seq slash (.star anyByte))
  | .between => some (.alt slash (.seq slash (.seq (.star anyByte) slash)))
  | .among negated ranges =>
    some (.one (if negated then .outside (classRanges ranges) else .among (classRanges ranges)))
  | .either branches =>
    match branchPatterns branches with
    | [] => none
    | ps => some (.alts ps)

def tokensPattern : List GlobToken → Option Pattern
  | [] => none
  | t :: ts =>
    match t.pattern, tokensPattern ts with
    | some p, some q => some (.seq p q)
    | some p, none => some p
    | none, q => q

def branchPatterns : List (List GlobToken) → List Pattern
  | [] => []
  | b :: bs => (tokensPattern b).toList ++ branchPatterns bs

end

/-- The pattern of a glob; two stars alone stand for every path. -/
def globPattern (tokens : List GlobToken) : Pattern :=
  match tokens with
  | [.leading] => .star anyByte
  | ts => (tokensPattern ts).getD (.text [])

end TestConversion.Files
