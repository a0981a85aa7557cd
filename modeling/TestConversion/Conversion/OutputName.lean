import TestConversion.Conversion.Language
import TestConversion.Files.Path

/-!
# Names of converted files

A converted file is named after the words in the name of its source: `LoginTest.java` becomes
`login-test.spec.ts`.
-/

namespace TestConversion

/-- The lower case of a text, with a hyphen in front of each letter that was a capital. -/
def hyphenated : List Char → List Char
  | [] => []
  | c :: cs => (if Text.isUpper c then '-' :: Text.lowerChar c else Text.lowerChar c) ++ hyphenated cs

/-- The words of a name joined by hyphens; each capital but the first letter starts a word. -/
def kebabChars : List Char → List Char
  | [] => []
  | c :: cs => Text.lowerChar c ++ hyphenated cs

def kebab (name : String) : String := String.ofList (kebabChars name.toList)

/-- The name for a file without a name. -/
def namelessOutput : String := "converted"

/-- The name of the converted file. -/
def outputName (fileName : String) (language : Language) : String :=
  match (Files.stem? fileName).filter (· ≠ "") with
  | some stem => kebab stem ++ language.extension
  | none => namelessOutput ++ language.extension

end TestConversion
