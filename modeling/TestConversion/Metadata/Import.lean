import TestConversion.Text.Segments

/-!
# Which imports and annotations matter

Paths are compared segment by segment, so that a package whose name only starts like the name of
another one is not mistaken for it.
-/

namespace TestConversion

open Text

/-- Packages that control browsers, elements and waits. -/
def automationPackages : List String := [
  "org.openqa.selenium", "org.openqa.selenium.chrome", "org.openqa.selenium.firefox",
  "org.openqa.selenium.support", "org.openqa.selenium.support.ui",
  "org.openqa.selenium.interactions"]

/-- The package of the test runner. -/
def testFramework : String := "org.testng"

/-- The annotations that the test runner knows. -/
def testAnnotations : List String := [
  "Test", "BeforeMethod", "AfterMethod", "BeforeClass", "AfterClass", "BeforeSuite",
  "AfterSuite", "BeforeTest", "AfterTest", "DataProvider"]

/-- What comes after an initial part of a text. -/
def afterStart? : List Char → List Char → Option (List Char)
  | [], cs => some cs
  | _ :: _, [] => none
  | p :: ps, c :: cs => if p = c then afterStart? ps cs else none

/-- The path starts with the other path and ends there or goes on with a dot. -/
def startsWithSegments (path start : String) : Bool :=
  match afterStart? start.toList path.toList with
  | some rest => rest.isEmpty || rest.head? == some '.'
  | none => false

/-- A list stands somewhere in another one, without gaps. -/
def hasInfix (needle : List String) : List String → Bool
  | [] => needle.isEmpty
  | w :: ws => needle.isPrefixOf (w :: ws) || hasInfix needle ws

/-- The segments of the needle stand somewhere in the path, one after another. -/
def containsSegments (path needle : String) : Bool := hasInfix (segments needle) (segments path)

def isAutomationImport (path : String) : Bool :=
  automationPackages.any fun package => startsWithSegments path package

def isTestFrameworkImport (path : String) : Bool := containsSegments path testFramework

/-- Only the last segment of an annotation's name counts. -/
def annotatesTest (name : String) : Bool := testAnnotations.contains (lastSegment name)

end TestConversion
