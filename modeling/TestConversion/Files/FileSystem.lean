import TestConversion.Files.Path

/-!
# File systems

A file system maps locations to files and directories. A location is the list of names on the way
from the root, which is always a directory. Relative paths start at the working directory.

* `at?_set`, `at?_set_of_ne`: what is set at a location is found there, and nothing else changes.
-/

namespace TestConversion.Files

abbrev Location := List String

/-- What a file holds. A sealed file is there, but may be opened neither to read nor to write it. -/
structure Content where
  bytes : ByteArray
  isSealed : Bool := false
  deriving BEq

instance : Coe ByteArray Content := ⟨fun bytes => { bytes }⟩

instance : Coe Content ByteArray := ⟨Content.bytes⟩

inductive Entry where
  | file (content : Content)
  | directory

/-- Why an operation on files fails. -/
inductive Fault where
  | missing
  | exists_
  | notDirectory
  | isDirectory
  | denied
  | notText
  deriving DecidableEq

def Fault.message : Fault → String
  | missing => "No such file or directory (os error 2)"
  | exists_ => "File exists (os error 17)"
  | notDirectory => "Not a directory (os error 20)"
  | isDirectory => "Is a directory (os error 21)"
  | denied => "Permission denied (os error 13)"
  | notText => "stream did not contain valid UTF-8"

structure FileSystem where
  entries : List (Location × Entry)
  workingDirectory : Location

namespace FileSystem

def at? (fs : FileSystem) (l : Location) : Option Entry :=
  if l = [] then some .directory else (fs.entries.find? (·.1 == l)).map (·.2)

/-- Puts an entry at a location, in the place of the one that is there. -/
def set (fs : FileSystem) (l : Location) (e : Entry) : FileSystem :=
  { fs with entries := fs.entries.filter (·.1 != l) ++ [(l, e)] }

/-- The location that a part of a path leads to, if it starts at a directory. -/
def step (fs : FileSystem) (l : Location) (part : String) : Except Fault Location :=
  match fs.at? l with
  | some .directory =>
    if part == "" || part == "." then .ok l
    else if part == ".." then .ok l.dropLast
    else .ok (l ++ [part])
  | some (.file _) => .error .notDirectory
  | none => .error .missing

/-- The location of a path; all directories on the way have to be there. -/
def locate (fs : FileSystem) (path : String) : Except Fault Location :=
  if path == "" then .error .missing
  else (parts path).foldlM fs.step (if isAbsolute path then [] else fs.workingDirectory)

def entry? (fs : FileSystem) (path : String) : Option Entry :=
  match fs.locate path with
  | .ok l => fs.at? l
  | .error _ => none

def hasEntry (fs : FileSystem) (path : String) : Bool := (fs.entry? path).isSome

def isFile (fs : FileSystem) (path : String) : Bool :=
  match fs.entry? path with
  | some (.file _) => true
  | _ => false

def isDirectory (fs : FileSystem) (path : String) : Bool :=
  match fs.entry? path with
  | some .directory => true
  | _ => false

/-- The bytes of a file. -/
def read (fs : FileSystem) (path : String) : Except Fault ByteArray :=
  match fs.locate path with
  | .error e => .error e
  | .ok l =>
    match fs.at? l with
    | some (.file content) => if content.isSealed then .error .denied else .ok content
    | some .directory => .error .isDirectory
    | none => .error .missing

/-- The text of a file. -/
def readText (fs : FileSystem) (path : String) : Except Fault String :=
  match fs.read path with
  | .error e => .error e
  | .ok content =>
    match String.fromUTF8? content with
    | some text => .ok text
    | none => .error .notText

/-- The path without slashes at its end. -/
def withoutSlashes (path : String) : String :=
  String.ofList (path.toList.reverse.dropWhile (· == '/')).reverse

/-- Where a new file of a path would be. -/
def locateNew (fs : FileSystem) (path : String) : Except Fault Location :=
  match fs.locate path with
  | .ok l => .ok l
  | .error e =>
    match fs.locate (withoutSlashes path) with
    | .ok l => if (fs.at? l).isNone then .error .isDirectory else .error e
    | .error _ => .error e

/-- Creates a file or replaces its content. -/
def write (fs : FileSystem) (path : String) (content : ByteArray) : Except Fault FileSystem :=
  match fs.locateNew path with
  | .error e => .error e
  | .ok l =>
    match fs.at? l with
    | some .directory => .error .isDirectory
    | some (.file old) => if old.isSealed then .error .denied else .ok (fs.set l (.file content))
    | none => .ok (fs.set l (.file content))

/-- Creates a directory in a directory. -/
def createDirectory (fs : FileSystem) (path : String) : Except Fault FileSystem :=
  match fs.locate path with
  | .error e => .error e
  | .ok l =>
    match fs.at? l with
    | some _ => .error .exists_
    | none => .ok (fs.set l .directory)

/-- Creates the first directory of the list, after the ones further on if they are missing too. What
was created stays also if a later step fails. -/
def createAll (fs : FileSystem) : List String → FileSystem × Option Fault
  | [] => (fs, none)
  | path :: above =>
    if fs.isDirectory path then (fs, none)
    else
      match fs.createDirectory path with
      | .ok fs => (fs, none)
      | .error .missing =>
        match fs.createAll above with
        | (fs, some e) => (fs, some e)
        | (fs, none) =>
          match fs.createDirectory path with
          | .ok fs => (fs, none)
          | .error e => if fs.isDirectory path then (fs, none) else (fs, some e)
      | .error e => (fs, some e)

/-- Creates a directory with all directories above it. -/
def createDirectories (fs : FileSystem) (path : String) : FileSystem × Option Fault :=
  fs.createAll (ancestors (components path))

/-! ## Laws -/

theorem at?_set (fs : FileSystem) {l : Location} (e : Entry) (h : l ≠ []) :
    (fs.set l e).at? l = some e := by
  have : List.find? (fun x => x.1 == l) (List.filter (fun x => x.1 != l) fs.entries) = none := by
    simp [List.find?_eq_none]
  simp [at?, set, h, List.find?_append, this]

theorem at?_set_of_ne (fs : FileSystem) {l k : Location} (e : Entry) (h : k ≠ l) :
    (fs.set l e).at? k = fs.at? k := by
  have hf : ∀ es : List (Location × Entry),
      List.find? (fun x => x.1 == k) (List.filter (fun x => x.1 != l) es) =
        List.find? (fun x => x.1 == k) es := by
    intro es
    induction es with
    | nil => rfl
    | cons x es ih =>
      by_cases hx : x.1 = l
      · simp [hx, ih, Ne.symm h]
      · simp [List.find?_cons, hx, ih]
  simp [at?, set, List.find?_append, hf, Ne.symm h]

end FileSystem

end TestConversion.Files
