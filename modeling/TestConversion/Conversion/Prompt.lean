import TestConversion.Conversion.Language
import TestConversion.Metadata.Basic
import TestConversion.Text.Blank

/-!
# Prompts

What a model is told: the rules of a conversion, which are always the same, and for each file its
code with an outline of the calls in it.
-/

namespace TestConversion

/-- The rules of a conversion. -/
def systemPrompt : String :=
  "You are an expert in test automation migration.\n" ++
  "Convert Selenium Java code to Playwright TypeScript/JavaScript.\n" ++
  "\n" ++
  "Rules:\n" ++
  "1. Convert Selenium API calls to Playwright equivalents\n" ++
  "2. Use proper async/await syntax\n" ++
  "3. Replace TestNG assertions with Playwright expect\n" ++
  "4. Use Playwright's locator API\n" ++
  "5. Return ONLY the converted code, no explanations\n" ++
  "6. Ensure the output is valid, runnable TypeScript/JavaScript\n" ++
  "\n" ++
  "Selenium to Playwright mappings:\n" ++
  "- driver.findElement(By.id(\"x\")) -> page.locator('#x')\n" ++
  "- sendKeys(\"text\") -> fill('text')\n" ++
  "- click() -> click()\n" ++
  "- getText() -> textContent()\n" ++
  "- driver.get(\"url\") -> page.goto('url')\n" ++
  "- Thread.sleep(ms) -> page.waitForTimeout(ms)\n" ++
  "- @Test -> test('name', async () => \x7b...\x7d)\n" ++
  "- Assert.assertEquals(a,b) -> expect(a).toBe(b)\n"

/-! ## Outline -/

/-- The line that stands above the calls of a method. -/
def MethodSummary.outlineHeader (m : MethodSummary) : String :=
  if m.annotations.isEmpty then "- " ++ m.name
  else "- " ++ m.name ++ " [" ++ " ".intercalate (m.annotations.map ("@" ++ ·)) ++ "]"

def Call.outlineLine (c : Call) : String := "    " ++ c.display

def MethodSummary.outline (m : MethodSummary) : List String :=
  m.outlineHeader :: m.calls.map Call.outlineLine

/-- The lines of the outline of a file. -/
def Metadata.outline (m : Metadata) : List String :=
  (if m.className.isEmpty then [] else ["Class: " ++ m.className]) ++
  (if m.usesTestFramework then []
    else ["No TestNG imports found; keep the test structure as written."]) ++
  m.methods.flatMap MethodSummary.outline

/-- The part of a prompt with the outline; a file without a class and methods has none. -/
def Metadata.structureSection (m : Metadata) : String :=
  if m.className.isEmpty && m.methods.isEmpty then ""
  else "\nStructure of the file (calls in execution order):\n" ++ "\n".intercalate m.outline ++ "\n"

/-! ## The prompt of a file -/

def withoutBlanksAtEnd (s : String) : String := String.ofList (Text.trimEnd s.toList)

/-- What is asked of the model for a source text. -/
def prompt (source : String) (metadata : Option Metadata) (language : Language) : String :=
  "Convert this Selenium Java code to Playwright " ++ language.displayName ++ ".\n" ++
  "\n" ++
  "Original Java code:\n" ++
  "```java\n" ++
  withoutBlanksAtEnd source ++ "\n" ++
  "```\n" ++
  (metadata.map Metadata.structureSection).getD "" ++ "\n" ++
  "Provide ONLY the converted Playwright " ++ language.displayName ++
    " code. No explanations.\n" ++
  "\n" ++
  "Requirements:\n" ++
  "- Use @playwright/test\n" ++
  "- Include proper imports\n" ++
  "- Use async/await\n" ++
  "- Convert all Selenium calls to Playwright equivalents\n" ++
  "- Replace TestNG annotations with Playwright test structure\n"

end TestConversion
