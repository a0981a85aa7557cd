import TestConversion.Text.Segments

/-!
# Metadata of a test file

What is known of a file once its code has been looked through: its imports, its first class, and for
each method of that class the annotations and the calls in the order of their discovery.
-/

namespace TestConversion

structure Call where
  method : String
  /-- The name or dotted path that the call is made on. -/
  qualifier : Option String
  arguments : List String
  deriving DecidableEq

namespace Call

/-- The call as it reads in code. -/
def display (c : Call) : String :=
  let arguments := ", ".intercalate c.arguments
  match c.qualifier with
  | some q => q ++ "." ++ c.method ++ "(" ++ arguments ++ ")"
  | none => "." ++ c.method ++ "(" ++ arguments ++ ")"

end Call

structure MethodSummary where
  name : String
  annotations : List String
  calls : List Call
  deriving DecidableEq

namespace MethodSummary

/-- An annotation counts under its whole name and under the last segment of it. -/
def isAnnotatedWith (m : MethodSummary) (name : String) : Bool :=
  m.annotations.any fun a => a == name || Text.lastSegment a == name

end MethodSummary

structure Metadata where
  fileName : String
  /-- Name of the first top-level class, empty if there is none. -/
  className : String
  imports : List String
  automationImports : List String
  usesTestFramework : Bool
  methods : List MethodSummary
  deriving DecidableEq

namespace Metadata

def callCount (m : Metadata) : Nat := (m.methods.flatMap (·.calls)).length

def methodsAnnotated (m : Metadata) (name : String) : List MethodSummary :=
  m.methods.filter (·.isAnnotatedWith name)

def method? (m : Metadata) (name : String) : Option MethodSummary :=
  m.methods.find? (·.name == name)

end Metadata

end TestConversion
