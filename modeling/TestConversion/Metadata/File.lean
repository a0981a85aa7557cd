import TestConversion.Files.FileSystem
import TestConversion.Java.Source
import TestConversion.Metadata.Extract
import TestConversion.Report.Format

/-!
# Metadata of files

A file has metadata if it can be read and if what it holds is Java.
-/

namespace TestConversion

open Files

/-- The metadata of a source text; the name of its file may be empty. -/
def metadataOf (source fileName : String) : Except Java.SyntaxError Metadata :=
  match Java.parse source fileName with
  | .ok unit => .ok (extract unit fileName)
  | .error e => .error e

/-- Why there is no metadata of a file. -/
inductive FileProblem where
  | unreadable (path : String) (fault : Fault)
  | invalid (error : Java.SyntaxError)

def unreadableFile (path : String) : String := "Failed to read file: " ++ path

/-- What is wrong, and then what causes it. -/
def FileProblem.chain : FileProblem → List String
  | unreadable path fault => [unreadableFile path, fault.message]
  | invalid e => [e.display]

def FileProblem.message (p : FileProblem) : String := ": ".intercalate p.chain

def metadataOfFile (fs : FileSystem) (path : String) : Except FileProblem Metadata :=
  match fs.readText path with
  | .error fault => .error (.unreadable path fault)
  | .ok source =>
    match metadataOf source path with
    | .ok m => .ok m
    | .error e => .error (.invalid e)

/-- What a report says of a file. -/
def parsedFile (fs : FileSystem) (path : String) : ParsedFile :=
  match metadataOfFile fs path with
  | .ok m => ⟨path, .ok m⟩
  | .error p => ⟨path, .error p.message⟩

end TestConversion
