import TestConversion.Json.Printer
import TestConversion.Metadata.Record
import TestConversion.Report.Format

/-!
# JSON reports

One file is reported as its metadata record. Several files are reported as an array with one object
each, which holds the path and either the metadata or the error; there all keys are in alphabetical
order.
-/

namespace TestConversion.Report

/-- Puts a member in front of the first one with a greater key. -/
def insertMember (m : String × Json) : List (String × Json) → List (String × Json)
  | [] => [m]
  | n :: ns => if m.1 < n.1 then m :: n :: ns else n :: insertMember m ns

mutual

/-- The value with the members of all objects in alphabetical order. -/
def sortKeys : Json → Json
  | .array vs => .array (sortItems vs)
  | .object ms => .object (sortMembers ms)
  | v => v

def sortItems : List Json → List Json
  | [] => []
  | v :: vs => sortKeys v :: sortItems vs

def sortMembers : List (String × Json) → List (String × Json)
  | [] => []
  | (k, v) :: ms => insertMember (k, sortKeys v) (sortMembers ms)

end

def entry (f : ParsedFile) : Json :=
  match f.result with
  | .ok m => .object [("file", .string f.path), ("metadata", m.toJson)]
  | .error e => .object [("error", .string e), ("file", .string f.path)]

/-- The record of one file, one item a line. -/
def record (m : Metadata) : String := m.toJson.pretty

/-- The record of one file on one line. -/
def compactRecord (m : Metadata) : String := m.toJson.compact

def recordBatch (files : List ParsedFile) : String :=
  (sortKeys (.array (files.map entry))).pretty

end TestConversion.Report
