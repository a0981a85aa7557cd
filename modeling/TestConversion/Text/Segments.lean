/-!
# Dotted paths

The segments of a dotted path are what stands between its dots, empty segments included.
-/

namespace TestConversion.Text

/-- The segments of a text; `word` is the segment being read, reversed. -/
def segmentsFrom (word : List Char) : List Char → List (List Char)
  | [] => [word.reverse]
  | c :: cs => if c = '.' then word.reverse :: segmentsFrom [] cs else segmentsFrom (c :: word) cs

def charSegments (cs : List Char) : List (List Char) := segmentsFrom [] cs

def segments (s : String) : List String := (charSegments s.toList).map String.ofList

/-- The last segment of a text. -/
def lastSegment (s : String) : String := (segments s).getLast?.getD s

end TestConversion.Text
