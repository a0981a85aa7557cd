import TestConversion.Files.Ignore

/-!
# Java files of a directory

The files below a directory whose names end as those of Java files do, apart from ignored ones and
from those in ignored directories, in the order of their paths.
-/

namespace TestConversion.Files

/-- The extension counts in any case. -/
def isJavaFile (path : String) : Bool :=
  match extension? path with
  | some e => e.toList.map Char.toLower == "java".toList
  | none => false

/-- Nothing on the way from a directory of some depth down to a file is ignored. -/
def isVisible (fs : FileSystem) (depth : Nat) (l : Location) : Bool :=
  (List.range (l.length - depth)).all fun n =>
    let size := depth + n + 1
    !isIgnored fs (l.take size) (size < l.length)

/-- The path of a location below a directory with a path. -/
def pathBelow (directory : String) (names : List String) : String := names.foldl join directory

def isFileEntry : Entry → Bool
  | .file _ => true
  | .directory => false

/-- The visible files below a location. -/
def filesBelow (fs : FileSystem) (l : Location) : List Location :=
  (fs.entries.filter fun e =>
    isFileEntry e.2 && l.isPrefixOf e.1 && l.length < e.1.length &&
      isVisible fs l.length e.1).map (·.1)

/-- The path of a directory that stands for the standard input. -/
def standardInput : String := "-"

/-- A path of a file whose name ends as that of a Java file does. -/
def leadsToJavaFile (fs : FileSystem) (path : String) : Bool := fs.isFile path && isJavaFile path

/-- The Java files that a path stands for: itself, if it is a file. -/
def javaFiles (fs : FileSystem) (path : String) : List String :=
  if fs.isFile path then [path]
  else if path == standardInput then []
  else
    match fs.locate path with
    | .error _ => []
    | .ok l =>
      (((filesBelow fs l).map fun f => pathBelow path (f.drop l.length)).filter
        (leadsToJavaFile fs)).mergeSort le

end TestConversion.Files
