/-!
# Paths

A path is a text whose parts stand between slashes. Empty parts and parts of a single dot mean
nothing, apart from a dot at the beginning.
-/

namespace TestConversion.Files

/-! ## Parts -/

/-- The texts between the slashes; `part` is the one being read, reversed. -/
def splitSlashFrom (part : List Char) : List Char → List (List Char)
  | [] => [part.reverse]
  | c :: cs => if c = '/' then part.reverse :: splitSlashFrom [] cs else splitSlashFrom (c :: part) cs

def splitSlash (cs : List Char) : List (List Char) := splitSlashFrom [] cs

def parts (path : String) : List String := (splitSlash path.toList).map String.ofList

def isAbsolute (path : String) : Bool := path.toList.head? == some '/'

/-! ## Components -/

inductive Component where
  | root
  | here
  | up
  | name (s : String)
  deriving DecidableEq

def Component.ofPart? (part : String) : Option Component :=
  if part == "" || part == "." then none
  else if part == ".." then some .up
  else some (.name part)

def components (path : String) : List Component :=
  let ps := parts path
  let start :=
    if isAbsolute path then [Component.root] else if ps.head? == some "." then [.here] else []
  start ++ ps.filterMap Component.ofPart?

def Component.text : Component → String
  | root => ""
  | here => "."
  | up => ".."
  | name s => s

/-- A path with the given components. -/
def ofComponents : List Component → String
  | [.root] => "/"
  | cs => "/".intercalate (cs.map Component.text)

def Component.rank : Component → Nat
  | root => 0
  | here => 1
  | up => 2
  | name _ => 3

def Component.le (a b : Component) : Bool :=
  match a, b with
  | name s, name t => !(t < s)
  | a, b => a.rank ≤ b.rank

/-- Paths are in order by their components. -/
def componentsLe : List Component → List Component → Bool
  | [], _ => true
  | _ :: _, [] => false
  | a :: as, b :: bs => if a = b then componentsLe as bs else a.le b

def le (a b : String) : Bool := componentsLe (components a) (components b)

/-! ## Names -/

/-- The last component, if it is a name. -/
def fileName? (path : String) : Option String :=
  match (components path).getLast? with
  | some (.name s) => some s
  | _ => none

/-- The text before the last dot and the text after it. -/
def splitLastDot (cs : List Char) : Option (List Char × List Char) :=
  let after := (cs.reverse.takeWhile (· != '.')).reverse
  if after.length = cs.length then none
  else some (cs.take (cs.length - after.length - 1), after)

/-- A file name in front of its extension, and the extension. A name has no extension if its only
dot is the first character. -/
def splitName (name : String) : String × Option String :=
  match splitLastDot name.toList with
  | some (before, after) =>
    if before.isEmpty then (name, none) else (String.ofList before, some (String.ofList after))
  | none => (name, none)

/-- The file name without its extension. -/
def stem? (path : String) : Option String := (fileName? path).map fun n => (splitName n).1

def extension? (path : String) : Option String := (fileName? path).bind fun n => (splitName n).2

/-- The path of something in a directory; an absolute path stays as it is. -/
def join (directory path : String) : String :=
  if isAbsolute path then path
  else if directory == "" || directory.toList.getLast? == some '/' then directory ++ path
  else directory ++ "/" ++ path

/-- The paths of a component list and of all that lies above it, itself first. -/
def ancestors (cs : List Component) : List String :=
  (List.range cs.length).map fun n => ofComponents (cs.take (cs.length - n))

/-! ## Laws -/

theorem splitSlashFrom_ne_nil (part cs : List Char) : splitSlashFrom part cs ≠ [] := by
  induction cs generalizing part with
  | nil => simp [splitSlashFrom]
  | cons c cs ih =>
    simp only [splitSlashFrom]
    split
    · simp
    · exact ih _

end TestConversion.Files
