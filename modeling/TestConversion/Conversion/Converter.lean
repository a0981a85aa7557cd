import TestConversion.Conversion.Generator
import TestConversion.Conversion.OutputName
import TestConversion.Files.JavaFiles
import TestConversion.Metadata.File

/-!
# Conversions

A source is looked through, code is generated for it, and the code is written to the output
directory. Without metadata nothing is generated, and without code nothing is written. The files of
a directory are converted one after another, each whatever becomes of the others.

* `batchWarnings`: what is logged of the files of a directory.
* `convert_of_invalid`, `convertFile_of_unreadable`: where there is no metadata the generator is not
  asked and the file system stays as it is.
-/

namespace TestConversion

open Files Model

/-- Why a conversion fails. -/
inductive ConversionError where
  | invalid (error : Java.SyntaxError)
  | generation (failure : Failure)
  | file (fault : Fault)
  /-- The input is neither a file nor a directory. -/
  | noInput (path : String)

def notAnInput (path : String) : String := path ++ " is not a valid file or directory"

namespace ConversionError

/-- What the error comes from. -/
def cause : ConversionError → String
  | invalid e => e.display
  | generation f => f.message
  | file fault => fault.message
  | noInput path => notAnInput path

def message (e : ConversionError) : String :=
  (match e with
    | invalid _ => "Parse error: "
    | generation _ => "Conversion error: "
    | file _ => "IO error: "
    | noInput _ => "IO error: ") ++ e.cause

end ConversionError

structure Outcome where
  outputFile : String
  code : String
  metadata : Metadata

/-- A file of a batch with what became of it. -/
structure BatchEntry where
  input : String
  result : Except ConversionError Outcome

/-- What is logged of the entries of a batch: that they failed, or that their output replaces one that
was written before. -/
def batchWarnings (written : List String) : List BatchEntry → List String
  | [] => []
  | e :: entries =>
    match e.result with
    | .ok o =>
      (if written.contains o.outputFile then
        [e.input ++ " overwrote an earlier output " ++ o.outputFile] else []) ++
          batchWarnings (o.outputFile :: written) entries
    | .error error => (e.input ++ ": " ++ error.message) :: batchWarnings written entries

structure Converter (m : Type → Type) where
  generator : Generator m
  language : Language := .typeScript
  outputDirectory : String := "output"

/-- What is done with files, over effects of another kind. -/
abbrev FileM (m : Type → Type) := StateT FileSystem m

namespace Converter

variable {m : Type → Type} [Monad m]

/-- Writes code to the output directory, which is created if it is missing. -/
def save (c : Converter m) (fileName code : String) (metadata : Metadata) (fs : FileSystem) :
    Except ConversionError Outcome × FileSystem :=
  let outputFile := join c.outputDirectory (outputName fileName c.language)
  match fs.createDirectories c.outputDirectory with
  | (fs, some fault) => (.error (.file fault), fs)
  | (fs, none) =>
    match fs.write outputFile code.toUTF8 with
    | .error fault => (.error (.file fault), fs)
    | .ok fs => (.ok ⟨outputFile, code, metadata⟩, fs)

/-- Converts a source text; the name of its file may be empty. -/
def convert (c : Converter m) (source fileName : String) :
    FileM m (Except ConversionError Outcome) := fun fs =>
  match metadataOf source fileName with
  | .error e => pure (.error (.invalid e), fs)
  | .ok metadata => do
    match ← c.generator source metadata c.language with
    | .error f => return (.error (.generation f), fs)
    | .ok code => return c.save fileName code metadata fs

def convertFile (c : Converter m) (path : String) :
    FileM m (Except ConversionError Outcome) := fun fs =>
  match fs.readText path with
  | .error fault => pure (.error (.file fault), fs)
  | .ok source => c.convert source path fs

/-- Converts files one after another. -/
def convertAll (c : Converter m) : List String → FileM m (List BatchEntry)
  | [] => pure []
  | path :: paths => do
    let result ← c.convertFile path
    let entries ← c.convertAll paths
    return ⟨path, result⟩ :: entries

/-- Converts a file, or all Java files of a directory. -/
def convertPath (c : Converter m) (path : String) :
    FileM m (Except ConversionError (List BatchEntry)) := fun fs =>
  if fs.hasEntry path then do
    let (entries, fs) ← c.convertAll (javaFiles fs path) fs
    return (.ok entries, fs)
  else pure (.error (.noInput path), fs)

/-! ## Laws -/

theorem convert_of_invalid {c : Converter m} {source fileName : String} {e : Java.SyntaxError}
    (h : metadataOf source fileName = .error e) (fs : FileSystem) :
    c.convert source fileName fs = pure (.error (.invalid e), fs) := by
  simp [convert, h]

theorem convertFile_of_unreadable {c : Converter m} {path : String} {fs : FileSystem}
    {fault : Fault} (h : fs.readText path = .error fault) :
    c.convertFile path fs = pure (.error (.file fault), fs) := by
  simp [convertFile, h]

end Converter

/-- The metadata of a source and the prompt that a model would get for it. -/
def dryRun (source fileName : String) (language : Language) :
    Except Java.SyntaxError (Metadata × String) :=
  match metadataOf source fileName with
  | .ok metadata => .ok (metadata, prompt source (some metadata) language)
  | .error e => .error e

end TestConversion
