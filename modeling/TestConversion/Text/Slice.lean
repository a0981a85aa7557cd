/-!
# Parts of a text by byte offset

Offsets count the bytes of the UTF-8 form. A part exists only between offsets at which characters
start or the text ends.

* `dropBytes_append`: dropping the bytes of an initial part leaves the rest.
* `takeBytes_append`: taking the bytes of an initial part gives that part.
-/

namespace TestConversion.Text

def byteSize : List Char → Nat
  | [] => 0
  | c :: cs => c.utf8Size + byteSize cs

/-- The text from byte `n` on. -/
def dropBytes : List Char → Nat → Option (List Char)
  | cs, 0 => some cs
  | [], _ + 1 => none
  | c :: cs, n + 1 => if c.utf8Size ≤ n + 1 then dropBytes cs (n + 1 - c.utf8Size) else none

/-- The text before byte `n`, put behind `taken`, which is reversed. -/
def takeBytesFrom (taken : List Char) : List Char → Nat → Option (List Char)
  | _, 0 => some taken.reverse
  | [], _ + 1 => none
  | c :: cs, n + 1 =>
    if c.utf8Size ≤ n + 1 then takeBytesFrom (c :: taken) cs (n + 1 - c.utf8Size) else none

def takeBytes (cs : List Char) (n : Nat) : Option (List Char) := takeBytesFrom [] cs n

/-- The part from byte `start` up to byte `stop`. -/
def slice? (cs : List Char) (start stop : Nat) : Option (List Char) :=
  if stop < start then none else (dropBytes cs start).bind fun rest => takeBytes rest (stop - start)

/-- A place in a text: the line and, in bytes, the column, both counted from one. -/
structure Place where
  line : Nat
  column : Nat
  deriving DecidableEq

/-- The place `n` bytes after `here`. -/
def placeFrom (here : Place) : List Char → Nat → Place
  | _, 0 => here
  | [], _ + 1 => here
  | c :: cs, n + 1 =>
    let next := if c = '\n' then ⟨here.line + 1, 1⟩ else ⟨here.line, here.column + c.utf8Size⟩
    placeFrom next cs (n + 1 - c.utf8Size)

def placeOf (cs : List Char) (offset : Nat) : Place := placeFrom ⟨1, 1⟩ cs offset

/-! ## Laws -/

theorem dropBytes_append (a b : List Char) : dropBytes (a ++ b) (byteSize a) = some b := by
  induction a with
  | nil => cases b <;> rfl
  | cons c a ih =>
    obtain ⟨n, hn⟩ : ∃ n, c.utf8Size = n + 1 := ⟨c.utf8Size - 1, by have := c.utf8Size_pos; omega⟩
    have hs : byteSize (c :: a) = (n + byteSize a) + 1 := by simp [byteSize, hn]; omega
    rw [hs, List.cons_append, dropBytes, if_pos (by omega)]
    have : n + byteSize a + 1 - c.utf8Size = byteSize a := by omega
    rw [this, ih]

theorem takeBytesFrom_append (taken a b : List Char) :
    takeBytesFrom taken (a ++ b) (byteSize a) = some (taken.reverse ++ a) := by
  induction a generalizing taken with
  | nil => cases b <;> simp [byteSize, takeBytesFrom]
  | cons c a ih =>
    obtain ⟨n, hn⟩ : ∃ n, c.utf8Size = n + 1 := ⟨c.utf8Size - 1, by have := c.utf8Size_pos; omega⟩
    have hs : byteSize (c :: a) = (n + byteSize a) + 1 := by simp [byteSize, hn]; omega
    rw [hs, List.cons_append, takeBytesFrom, if_pos (by omega)]
    have : n + byteSize a + 1 - c.utf8Size = byteSize a := by omega
    rw [this, ih]
    simp

theorem takeBytes_append (a b : List Char) : takeBytes (a ++ b) (byteSize a) = some a := by
  simp [takeBytes, takeBytesFrom_append]

theorem byteSize_append (a b : List Char) : byteSize (a ++ b) = byteSize a + byteSize b := by
  induction a with
  | nil => simp [byteSize]
  | cons c a ih => simp [byteSize, ih]; omega

/-- The part that lies between two others. -/
theorem slice?_append (a b c : List Char) :
    slice? (a ++ (b ++ c)) (byteSize a) (byteSize a + byteSize b) = some b := by
  simp [slice?, dropBytes_append, takeBytes_append]

end TestConversion.Text
