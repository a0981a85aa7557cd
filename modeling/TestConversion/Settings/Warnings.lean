import TestConversion.Model.Failure
import TestConversion.Settings.Document

/-!
# Warnings about settings

A settings file without effect and a name of no backend or language do not stop a command, but they
are logged as warnings. The text about a document that cannot be decoded is the decoder's own.
-/

namespace TestConversion.Settings

open Files Model

/-- What is wrong with a settings file that is there, if anything is. -/
def fileWarning (describe : String → String) (fs : FileSystem) (path : String) : Option String :=
  if fs.hasEntry path then
    match fs.readText path with
    | .error fault => some ("Could not read " ++ path ++ ": " ++ fault.message)
    | .ok document =>
      match (Toml.parse document).bind ofDocument? with
      | some _ => none
      | none => some ("Ignoring invalid config " ++ path ++ ": " ++ describe document)
  else none

def loadWarning (describe : String → String) (fs : FileSystem) (environment : Environment) :
    Option String :=
  (filePath environment).bind (fileWarning describe fs)

/-- What is wrong with the name of the backend, if anything is. -/
def backendWarning (s : Settings) : Option String :=
  s.backend.bind fun name =>
    match Backend.ofName name with
    | .ok _ => none
    | .error f => some (f.message ++ "; using ollama")

/-- What is wrong with the name of the language, if anything is. -/
def languageWarning (s : Settings) : Option String :=
  s.language.bind fun name =>
    if (Language.ofName? name).isSome then none
    else some (Language.unknown name ++ "; using typescript")

end TestConversion.Settings
