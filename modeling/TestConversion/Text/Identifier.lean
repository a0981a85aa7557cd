import TestConversion.Text.IdentifierTable

/-!
# Letters of identifiers

An identifier starts with an `XID_Start` character, `_` or `$`, and goes on with `XID_Continue`
characters, `_`, `$` and the cent sign.
-/

namespace TestConversion.Text

def isIdentifierStart (c : Char) : Bool :=
  if c.toNat < 128 then c.isAlpha || c == '_' || c == '$' else inRanges xidStart c

def isIdentifierPart (c : Char) : Bool :=
  if c.toNat < 128 then c.isAlphanum || c == '_' || c == '$'
  else c.toNat == 0xA2 || inRanges xidContinue c

end TestConversion.Text
