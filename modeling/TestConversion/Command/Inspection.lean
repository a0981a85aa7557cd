import TestConversion.Command.Result
import TestConversion.Conversion.Converter
import TestConversion.Report.Basic
import TestConversion.Text.Escapes

/-!
# Looking through files

The report of a file or of all Java files in a directory is printed, or written to a file without
what only a terminal understands. A file that cannot be looked through fails the command; in a
directory it also stands in the report.

* `inspect_of_missing`: a path without anything at it is refused.
-/

namespace TestConversion.Command

open Files Report

/-- Prints a report or writes it to a file. -/
def emit (fs : FileSystem) (report : String) : Option String → Result
  | none => { files := fs, output := [report] }
  | some file =>
    match fs.write file (Text.withoutEscapes report).toUTF8 with
    | .ok fs => { files := fs, notices := ["✓ wrote " ++ file] }
    | .error fault => { files := fs, problem := some ["Failed to write " ++ file, fault.message] }

/-- What is reported of one file. -/
def fileReport (format : Format) (compact : Bool) (m : Metadata) : String :=
  if format = .json && compact then compactRecord m else report format m

def inspectFile (fs : FileSystem) (path : String) (format : Format) (compact : Bool)
    (output : Option String) : Result :=
  match metadataOfFile fs path with
  | .error p => { files := fs, problem := some p.chain }
  | .ok m => emit fs (fileReport format compact m) output

/-- The count of failures among all files, if there are any. -/
def failures (failed total : Nat) (what : String) : Option (List String) :=
  if failed = 0 then none
  else some [toString failed ++ " of " ++ toString total ++ " files failed to " ++ what]

def inspectDirectory (fs : FileSystem) (path : String) (format : Format)
    (output : Option String) : Result :=
  let files := (javaFiles fs path).map (parsedFile fs)
  let r := emit fs (reportBatch format files) output
  { r with
    notices := (if files.isEmpty then ["! no .java files under " ++ path] else []) ++ r.notices
    problem := r.problem <|> failures (failedCount files) files.length "parse" }

def inspect (fs : FileSystem) (path : String) (format : Format) (compact : Bool)
    (output : Option String) : Result :=
  if !fs.hasEntry path then { files := fs, problem := some [notAnInput path] }
  else if fs.isFile path then inspectFile fs path format compact output
  else inspectDirectory fs path format output

/-! ## Laws -/

theorem inspect_of_missing {fs : FileSystem} {path : String} (h : fs.hasEntry path = false)
    (format : Format) (compact : Bool) (output : Option String) :
    inspect fs path format compact output =
      { files := fs, problem := some [notAnInput path] } := by
  simp [inspect, h]

end TestConversion.Command
