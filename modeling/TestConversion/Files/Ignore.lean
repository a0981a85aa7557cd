import TestConversion.Files.FileSystem
import TestConversion.Files.Glob
import TestConversion.Text.Blank

/-!
# Rules for what is ignored

A directory can hold files with rules for everything below it. Of the rules in a file the last one
that fits decides, and of the files of one kind the nearest one in which a rule fits. The kinds of
files are asked in a fixed order, and where no rule fits, names that start with a dot are ignored.
-/

namespace TestConversion.Files

open Syntax

structure Rule where
  glob : Pattern
  /-- What fits is let in again. -/
  readmits : Bool
  directoriesOnly : Bool

/-! ## Reading rules -/

def endsWith (cs end_ : List Char) : Bool := end_.reverse.isPrefixOf cs.reverse

/-- A glob without slashes fits at every depth, and one that ends in two stars only below. -/
def anywhere (isAnchored : Bool) (glob : List Char) : List Char :=
  let glob :=
    if !isAnchored && !glob.contains '/' && glob != ['*', '*'] then '*' :: '*' :: '/' :: glob
    else glob
  if endsWith glob ['/', '*', '*'] then glob ++ ['/', '*'] else glob

/-- The line without a slash at its end, which asks for directories. -/
def withoutLastSlash (line : List Char) : Bool × List Char :=
  match line.reverse with
  | '/' :: '\\' :: rest => (true, rest.reverse)
  | '/' :: rest => (true, rest.reverse)
  | _ => (false, line)

/-- The rule on a line whose marks at the start have been read. -/
def Rule.make? (readmits isAnchored : Bool) (line : List Char) : Option Rule :=
  let (directoriesOnly, glob) := withoutLastSlash line
  (readGlob (anywhere isAnchored glob)).map fun tokens =>
    ⟨globPattern tokens, readmits, directoriesOnly⟩

/-- The rule on a line that is not empty. -/
def Rule.ofText? : List Char → Option Rule
  | '\\' :: '!' :: line => make? false false ('!' :: line)
  | '\\' :: '#' :: line => make? false false ('#' :: line)
  | '!' :: '/' :: line => make? true true line
  | '!' :: line => make? true false line
  | '/' :: line => make? false true line
  | line => make? false false line

/-- The rule on a line; comments, blank lines and malformed globs have none. Blanks at the end do
not count unless a backslash stands before the last one. -/
def Rule.ofLine? (line : List Char) : Option Rule :=
  if line.head? == some '#' then none
  else
    let line := if endsWith line ['\\', ' '] then line else Text.trimEnd line
    if line.isEmpty then none else ofText? line

/-- The lines of a file, without what ends them; `line` is the one being read, reversed. -/
def byteLines (line : List UInt8) : List UInt8 → List (List UInt8)
  | [] => if line.isEmpty then [] else [line.reverse]
  | b :: bs =>
    if b = 10 then
      (match line with
        | 13 :: rest => rest.reverse
        | line => line.reverse) :: byteLines [] bs
    else byteLines (b :: line) bs

/-- The lines up to the first one that is not a text. -/
def textLines : List (List UInt8) → List (List Char)
  | [] => []
  | l :: ls =>
    match String.fromUTF8? ⟨l.toArray⟩ with
    | some s => s.toList :: textLines ls
    | none => []

/-- The mark at the beginning of a file means nothing. -/
def withoutMark : List (List Char) → List (List Char)
  | [] => []
  | l :: ls => l.dropWhile (· == '\uFEFF') :: ls

def rulesOf (content : ByteArray) : List Rule :=
  (withoutMark (textLines (byteLines [] content.toList))).filterMap Rule.ofLine?

/-! ## Applying rules -/

/-- Whether the bytes of a path fit the rule. -/
def Rule.fits (r : Rule) (path : List Char) (isDirectory : Bool) : Bool :=
  (isDirectory || !r.directoriesOnly) && r.glob.accepts path

/-- What the rules say of a path: whether it is ignored, if one of them fits. -/
def verdict (rules : List Rule) (path : List Char) (isDirectory : Bool) : Option Bool :=
  (rules.reverse.find? (·.fits path isDirectory)).map fun r => !r.readmits

/-- The files with rules that a directory can hold, the more important ones first. -/
def ruleFiles : List Location :=
  [[".seleniportignore"], [".ignore"], [".gitignore"], [".git", "info", "exclude"]]

def rulesAt (fs : FileSystem) (l : Location) : List Rule :=
  match fs.at? l with
  | some (.file content) => if content.isSealed then [] else rulesOf content
  | _ => []

/-- The verdict on a location by the rules in one of the directories above it. -/
def verdictIn (fs : FileSystem) (ruleFile l : Location) (isDirectory : Bool) (depth : Nat) :
    Option Bool :=
  verdict (rulesAt fs (l.take depth ++ ruleFile))
    (bytesOfString ("/".intercalate (l.drop depth))) isDirectory

/-- The verdict of the nearest directory that has one. -/
def nearestVerdict (fs : FileSystem) (ruleFile l : Location) (isDirectory : Bool) : Option Bool :=
  (List.range l.length).reverse.findSome? (verdictIn fs ruleFile l isDirectory)

def isHidden (l : Location) : Bool :=
  match l.getLast? with
  | some name => name.toList.head? == some '.'
  | none => false

def isIgnored (fs : FileSystem) (l : Location) (isDirectory : Bool) : Bool :=
  (ruleFiles.findSome? fun f => nearestVerdict fs f l isDirectory).getD (isHidden l)

end TestConversion.Files
