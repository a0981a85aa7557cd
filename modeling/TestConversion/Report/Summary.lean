import TestConversion.Metadata.Import
import TestConversion.Report.Format

/-!
# Text reports

For a terminal: a heading for each file, then its methods with their annotations and numbered calls.
Escape sequences set the colours.
-/

namespace TestConversion.Report

/-- Escape sequences of a terminal. -/
inductive Style where
  | bold | dim | green | yellow | red | cyan

def Style.code : Style → String
  | .bold => "\x1b[1m"
  | .dim => "\x1b[2m"
  | .green => "\x1b[32m"
  | .yellow => "\x1b[33m"
  | .red => "\x1b[31m"
  | .cyan => "\x1b[36m"

/-- The text in a style; plain text follows it. -/
def Style.of (s : Style) (text : String) : String := s.code ++ text ++ "\x1b[0m"

/-- A number in at least `width` columns. -/
def padLeft (width n : Nat) : String :=
  let digits := toString n
  String.ofList (List.replicate (width - digits.length) ' ') ++ digits

def callLine (number : Nat) (c : Call) : String :=
  "    " ++ Style.dim.of (padLeft 3 number) ++ "  " ++ c.display ++ "\n"

def annotationText (name : String) : String :=
  (if annotatesTest name then Style.yellow else Style.dim).of ("@" ++ name)

def methodText (m : MethodSummary) : String :=
  let title := Style.bold.of m.name
  let heading :=
    if m.annotations.isEmpty then "\n  " ++ title ++ "\n"
    else "\n  " ++ " ".intercalate (m.annotations.map annotationText) ++ " " ++ title ++ "\n"
  heading ++ String.join (m.calls.zipIdx.map fun (c, i) => callLine (i + 1) c)

def rule : String := "──────────────────────────────────────"

def summary (m : Metadata) : String :=
  let title := if m.fileName.isEmpty then "<source>" else m.fileName
  let className :=
    if m.className.isEmpty then Style.dim.of "(none)" else Style.cyan.of m.className
  "\n" ++ Style.bold.of title ++ "\n" ++
  Style.dim.of rule ++ "\n" ++
  "Class: " ++ className ++ "  " ++
  "Imports: " ++ toString m.imports.length ++ " (" ++ toString m.automationImports.length ++
    " automation)  TestNG: " ++ (if m.usesTestFramework then "yes" else "no") ++ "\n" ++
  (if m.methods.isEmpty then "  " ++ Style.dim.of "no methods" ++ "\n"
    else String.join (m.methods.map methodText))

def fileText (f : ParsedFile) : String :=
  match f.result with
  | .ok m => summary m
  | .error e => "\n" ++ Style.bold.of f.path ++ "\n  " ++ Style.red.of "error:" ++ " " ++ e ++ "\n"

def failedCount (files : List ParsedFile) : Nat :=
  files.countP fun f => match f.result with
    | .ok _ => false
    | .error _ => true

def summaryBatch (files : List ParsedFile) : String :=
  let failed := failedCount files
  let colour := if failed = 0 then Style.green else Style.yellow
  String.join (files.map fileText) ++
  "\n" ++ colour.of (toString (files.length - failed) ++ " parsed") ++ ", " ++ toString failed ++
    " failed, " ++ toString files.length ++ " total\n"

end TestConversion.Report
