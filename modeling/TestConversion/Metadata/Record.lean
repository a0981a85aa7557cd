import TestConversion.Json.Reader
import TestConversion.Metadata.Basic

/-!
# Metadata as JSON

The record that reports hold and that can be read back. Fields stand in a fixed order.
-/

namespace TestConversion

open Json (Shape)

def Call.toJson (c : Call) : Json :=
  .object [("method", .string c.method), ("qualifier", .ofOption c.qualifier),
    ("arguments", .strings c.arguments)]

def MethodSummary.toJson (m : MethodSummary) : Json :=
  .object [("name", .string m.name), ("annotations", .strings m.annotations),
    ("calls", .array (m.calls.map Call.toJson))]

def Metadata.toJson (m : Metadata) : Json :=
  .object [("file_name", .string m.fileName), ("class_name", .string m.className),
    ("imports", .strings m.imports), ("automation_imports", .strings m.automationImports),
    ("uses_test_framework", .bool m.usesTestFramework),
    ("methods", .array (m.methods.map MethodSummary.toJson))]

def callShape : Shape :=
  .record [("method", .text), ("qualifier", .optional .text), ("arguments", .list .text)]

def methodShape : Shape :=
  .record [("name", .text), ("annotations", .list .text), ("calls", .list callShape)]

def metadataShape : Shape :=
  .record [("file_name", .text), ("class_name", .text), ("imports", .list .text),
    ("automation_imports", .list .text), ("uses_test_framework", .truth),
    ("methods", .list methodShape)]

/-- The text in a field of a value of a shape that has the field. -/
def textIn (v : Json) (field : String) : String := ((v.member? field).bind Json.string?).getD ""

def textsIn (v : Json) (field : String) : List String :=
  ((v.member? field).getD .null).items.map fun s => (s.string?).getD ""

def itemsIn (v : Json) (field : String) : List Json := ((v.member? field).getD .null).items

def Call.ofJson (v : Json) : Call :=
  ⟨textIn v "method", (v.member? "qualifier").bind Json.string?, textsIn v "arguments"⟩

def MethodSummary.ofJson (v : Json) : MethodSummary :=
  ⟨textIn v "name", textsIn v "annotations", (itemsIn v "calls").map Call.ofJson⟩

def Metadata.ofJson (v : Json) : Metadata :=
  { fileName := textIn v "file_name"
    className := textIn v "class_name"
    imports := textsIn v "imports"
    automationImports := textsIn v "automation_imports"
    usesTestFramework := ((v.member? "uses_test_framework").bind Json.bool?).getD false
    methods := (itemsIn v "methods").map MethodSummary.ofJson }

/-- Reads metadata back from its JSON text. -/
def Metadata.decode (text : String) : Except Json.Failure Metadata :=
  (Json.decode metadataShape text).map Metadata.ofJson

end TestConversion
