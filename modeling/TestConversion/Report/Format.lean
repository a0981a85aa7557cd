import TestConversion.Metadata.Basic
import TestConversion.Text.Case

/-!
# What is reported, and in which form
-/

namespace TestConversion

/-- A file that was looked through: its metadata, or why there is none. -/
structure ParsedFile where
  path : String
  result : Except String Metadata

namespace Report

inductive Format where
  | text
  | json
  deriving DecidableEq

def Format.name : Format → String
  | .text => "text"
  | .json => "json"

/-- The format of a name, in any case. -/
def Format.ofName? (name : String) : Option Format :=
  let lower := Text.toLower name
  if lower == "text" || lower == "txt" || lower == "terminal" then some .text
  else if lower == "json" then some .json
  else none

/-- What is said of a name that is no format. -/
def unknownFormat (name : String) : String :=
  "Unknown format '" ++ name ++ "'. Valid formats: text, json"

end Report

end TestConversion
