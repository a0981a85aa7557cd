import TestConversion.Code.Node

/-!
# Compilation units

The declarations of a file that matter for its tests: imports and top-level classes with the methods
in their bodies.
-/

namespace TestConversion.Code

structure Import where
  /-- The dotted path without a final star. -/
  path : String
  isStatic : Bool
  isWildcard : Bool
  deriving DecidableEq

structure Annotation where
  segments : List String
  deriving DecidableEq

def Annotation.name (a : Annotation) : String := ".".intercalate a.segments

structure Method where
  name : String
  annotations : List Annotation
  /-- The statements; none for a method without a body. -/
  body : Option (List Node)

structure TestClass where
  name : String
  methods : List Method

structure CompilationUnit where
  imports : List Import
  classes : List TestClass

end TestConversion.Code
