import TestConversion.Conversion.Fence
import TestConversion.Conversion.Prompt
import TestConversion.Model.Client

/-!
# Generators of code

A generator makes code in a language from a source text and its metadata. A model makes it from one
request; an answer without code is a failure.
-/

namespace TestConversion

open Model

/-- Makes code in a language from a source text and its metadata. -/
abbrev Generator (m : Type → Type) :=
  String → Metadata → Language → m (Except Failure String)

/-- The conversation that asks for a conversion. -/
def conversation (source : String) (metadata : Metadata) (language : Language) : List Message :=
  [⟨.user, prompt source (some metadata) language⟩]

/-- The code in an answer. -/
def usableCode (answer : String) : Except Failure String :=
  let code := codeOf answer
  if code.isEmpty then .error .noCode else .ok code

/-- The generator that asks a model. -/
def modelGenerator {m : Type → Type} [Monad m] (send : Transport m) (c : Client) : Generator m :=
  fun source metadata language =>
    (·.bind usableCode) <$>
      c.generate send (conversation source metadata language) (some systemPrompt)

end TestConversion
