import TestConversion.Command.Conversion
import TestConversion.Command.Setup
import TestConversion.Settings.Warnings

/-!
# Running a command
-/

namespace TestConversion.Command

open Files Model

def versionLine : String := "seleniport 0.3.0"

/-- Runs a command over whatever carries requests. -/
def run {m : Type → Type} [Monad m] (send : Transport m) (environment : Environment)
    (fs : FileSystem) : Command → m Result
  | .parse path format compact output => pure (inspect fs path format compact output)
  | .convert request => request.run send environment fs
  | .doctor => examine send environment fs
  | .initSettings => pure (writeSettings environment fs)
  | .showSettings => pure (presentSettings environment fs)
  | .version => pure { files := fs, output := [versionLine] }

/-! ## Warnings -/

/-- What a command warns of as it takes in the settings. The warnings are logged where notices go,
unless no warnings are to be logged. Names are looked at as late as they are needed. -/
def warnings (describe : String → String) (environment : Environment) (fs : FileSystem) :
    Command → List String
  | .parse _ _ _ _ | .initSettings | .version => []
  | .convert r =>
    let s := Settings.load fs environment
    (Settings.loadWarning describe fs environment).toList ++
      (if r.language.isNone then s.languageWarning.toList else []) ++
      (if fs.hasEntry r.path && !r.dryRun && r.backend.isNone then s.backendWarning.toList else [])
  | .doctor =>
    (Settings.loadWarning describe fs environment).toList ++
      (Settings.load fs environment).backendWarning.toList
  | .showSettings =>
    let s := Settings.load fs environment
    (Settings.loadWarning describe fs environment).toList ++ s.backendWarning.toList ++
      s.languageWarning.toList

end TestConversion.Command
