import TestConversion.Text.Case

/-!
# Languages of converted tests

* `ofName?_name`: a language is found by its name.
-/

namespace TestConversion

inductive Language where
  | typeScript
  | javaScript
  deriving DecidableEq

namespace Language

def name : Language → String
  | typeScript => "typescript"
  | javaScript => "javascript"

/-- The name as it stands in running text. -/
def displayName : Language → String
  | typeScript => "TypeScript"
  | javaScript => "JavaScript"

/-- How the name of a test file ends. -/
def extension : Language → String
  | typeScript => ".spec.ts"
  | javaScript => ".spec.js"

/-- The language of a name, in any case. -/
def ofName? (name : String) : Option Language :=
  let n := Text.toLower name
  if n == "typescript" || n == "ts" then some typeScript
  else if n == "javascript" || n == "js" then some javaScript
  else none

/-- What is said of a name that is no language. -/
def unknown (name : String) : String :=
  "Unknown language: " ++ name ++ ". Valid options: typescript, javascript"

theorem ofName?_name (l : Language) : ofName? l.name = some l := by
  cases l <;> decide +kernel

end Language

end TestConversion
