import TestConversion.Command.Usage
import TestConversion.Conversion.Language
import TestConversion.Report.Format
import TestConversion.Settings.Basic

/-!
# Commands

What the program can be told to do, and how that is written on a command line.

* `ofArguments_nil`: without arguments help is given.
-/

namespace TestConversion

/-- What is to be converted, and the choices that stand above the settings. -/
structure ConvertRequest where
  path : String
  output : Option String
  language : Option Language
  backend : Option String
  model : Option String
  /-- Show what a model would be asked, and ask none. -/
  dryRun : Bool

inductive Command where
  /-- Report what the tests of a file or directory do. -/
  | parse (path : String) (format : Report.Format) (compact : Bool) (output : Option String)
  | convert (request : ConvertRequest)
  /-- Check that conversions can work. -/
  | doctor
  /-- Write a settings file to start from. -/
  | initSettings
  | showSettings
  | version

namespace Command

/-! ## Usage -/

def helpParameter : Parameter := { name := "help", short := some 'h', role := .help }

def logLevel : Parameter :=
  { name := "log-level", role := .value (.oneOf ["error", "warn", "info", "debug", "trace"]) }

/-- The parameters of every command. -/
def everywhere : List Parameter := [logLevel, helpParameter]

def pathOperand : String × Values := ("path", .nonEmpty)

def outputParameter : Parameter := { name := "output", short := some 'o', role := .value .nonEmpty }

def parseUsage : Usage :=
  .single ([
    { name := "format", short := some 'f', role := .value (.oneOf ["json", "text"]) },
    { name := "compact", role := .flag },
    outputParameter] ++ everywhere) pathOperand

def convertUsage : Usage :=
  .single ([
    outputParameter,
    { name := "language", short := some 'l',
      role := .value (.oneOf ["typescript", "javascript", "ts", "js"]) },
    { name := "backend", role := .value .any },
    { name := "model", role := .value .any },
    { name := "dry-run", role := .flag }] ++ everywhere) pathOperand

def usage : Usage :=
  .group ({ name := "version", short := some 'V', role := .version } :: everywhere) [
    ("parse", parseUsage),
    ("convert", convertUsage),
    ("doctor", .single everywhere none),
    ("config", .group everywhere [
      ("init", .single everywhere none),
      ("show", .single everywhere none)]),
    ("version", .single everywhere none)]

/-! ## Reading -/

/-- The command that was given. A backend in the environment counts as one on the command line. -/
def ofGiven? (environment : Environment) (g : Given) : Option Command :=
  let path := (g.value? "path").getD ""
  match g.commands with
  | ["parse"] =>
    some (.parse path (((g.value? "format").bind Report.Format.ofName?).getD .json) (g.has "compact")
      (g.value? "output"))
  | ["convert"] =>
    some (.convert {
      path
      output := g.value? "output"
      language := (g.value? "language").bind Language.ofName?
      backend := g.value? "backend" <|> environment "SELENIPORT_BACKEND"
      model := g.value? "model"
      dryRun := g.has "dry-run" })
  | ["doctor"] => some .doctor
  | ["config", "init"] => some .initSettings
  | ["config", "show"] => some .showSettings
  | ["version"] => some .version
  | _ => none

/-- The command on a command line. -/
def ofArguments (environment : Environment) (arguments : List String) : Except Refusal Command :=
  match usage.read arguments with
  | .error r => .error r
  | .ok g =>
    match ofGiven? environment g with
    | some c => .ok c
    | none => .error .unknownCommand

theorem ofArguments_nil (environment : Environment) :
    ofArguments environment [] = .error .helpInstead := rfl

end Command

end TestConversion
