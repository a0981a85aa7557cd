import TestConversion.Files.FileSystem

/-!
# Results of commands

A command changes files, prints texts, gives notices and may fail with a problem that other problems
caused.

* `status_eq_zero_iff`: the status is zero exactly if there is no problem.
-/

namespace TestConversion.Command

open Files

structure Result where
  files : FileSystem
  /-- What is printed; a line end follows each text. -/
  output : List String := []
  notices : List String := []
  /-- What the command failed with, and then what caused it. -/
  problem : Option (List String) := none

def lines (texts : List String) : String := String.join (texts.map (· ++ "\n"))

/-! ## Problems -/

/-- The lines of a text. -/
def textLines (text : String) : List String :=
  (go [] text.toList).map String.ofList
where
  go (line : List Char) : List Char → List (List Char)
    | [] => [line.reverse]
    | c :: cs => if c = '\n' then line.reverse :: go [] cs else go (c :: line) cs

/-- A text after a heading, with its further lines set as far in. -/
def indented (heading margin text : String) : String :=
  match textLines text with
  | [] => heading
  | first :: rest => "\n".intercalate ((heading ++ first) :: rest.map (margin ++ ·))

/-- A number at the end of five columns. -/
def causeHeading (n : Nat) : String :=
  let digits := toString n
  String.ofList (List.replicate (5 - digits.length) ' ') ++ digits ++ ": "

/-- One cause stands alone; several are numbered. -/
def causesText : List String → List String
  | [cause] => [indented "    " "    " cause]
  | causes => causes.mapIdx fun i cause => indented (causeHeading i) "       " cause

/-- A problem with its causes below it. -/
def problemText : List String → String
  | [] => ""
  | [message] => message
  | message :: causes => "\n".intercalate ((message ++ "\n\nCaused by:") :: causesText causes)

namespace Result

def succeeded (r : Result) : Bool := r.problem.isNone

/-- The status that a program ends with. -/
def status (r : Result) : Nat := if r.succeeded then 0 else 1

def outputText (r : Result) : String := lines r.output

/-- Notices, and then the problem. -/
def noticeText (r : Result) : String :=
  lines (r.notices ++ match r.problem with
    | none => []
    | some chain => ["Error: " ++ problemText chain])

theorem status_eq_zero_iff (r : Result) : r.status = 0 ↔ r.problem = none := by
  simp [status, succeeded]

end Result

end TestConversion.Command
