import TestConversion.Code.Calls
import TestConversion.Code.Unit
import TestConversion.Metadata.Import

/-!
# Metadata of a compilation unit

The imports in order, and the first class with its methods and their calls.
-/

namespace TestConversion

open Code

/-- The calls of the statements of a method. -/
def callsOf (m : Method) : List Call := (m.body.getD []).foldl collectCalls []

def summaryOf (m : Method) : MethodSummary :=
  ⟨m.name, m.annotations.map Annotation.name, callsOf m⟩

def extract (unit : CompilationUnit) (fileName : String) : Metadata :=
  let paths := unit.imports.map (·.path)
  { fileName
    className := (unit.classes.head?.map (·.name)).getD ""
    imports := paths
    automationImports := paths.filter isAutomationImport
    usesTestFramework := paths.any isTestFrameworkImport
    methods := (unit.classes.head?.map fun c => c.methods.map summaryOf).getD [] }

end TestConversion
