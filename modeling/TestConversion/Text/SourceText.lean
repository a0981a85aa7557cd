import TestConversion.Text.Blank
import TestConversion.Text.Slice

/-!
# Source text of a piece of code

A piece of code keeps the whole text it comes from and the bytes it covers. Two source texts are the
same if the covered characters are.
-/

namespace TestConversion.Text

structure SourceText where
  source : List Char
  start : Nat
  stop : Nat

namespace SourceText

def ofString (s : String) : SourceText :=
  let cs := s.toList
  ⟨cs, 0, byteSize cs⟩

/-- The covered characters; none if the bytes are not a part of the text. -/
def raw (t : SourceText) : List Char := (slice? t.source t.start t.stop).getD []

/-- The covered text with each run of blanks as one space. -/
def render (t : SourceText) : String := collapse (String.ofList t.raw)

/-- Equal covered characters. -/
def same (a b : SourceText) : Bool := a.raw == b.raw

theorem raw_ofString (s : String) : (ofString s).raw = s.toList := by
  have := slice?_append [] s.toList []
  simp only [List.append_nil, List.nil_append, byteSize, Nat.zero_add] at this
  simp [raw, ofString, this]

end SourceText

end TestConversion.Text
