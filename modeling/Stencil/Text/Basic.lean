/-!
# Characters and pieces of texts

A set of characters is written as closed ranges of code points, in increasing order.  Looking a
character up stops at the first range that ends behind it.  A character is blank when it has the
Unicode property White_Space; trimming removes blanks at both ends of a text.  A text is split at
each occurrence of a separating character, and pieces may be empty.
-/

namespace Stencil.Text

/-- A set of code points as closed ranges, in increasing order and apart. -/
abbrev Ranges := List (Nat × Nat)

namespace Ranges

/-- Membership of a code point; the ranges behind it are not looked at. -/
def contains : Ranges → Nat → Bool
  | [], _ => false
  | (low, high) :: rest, code =>
      if code < low then false
      else if code ≤ high then true
      else contains rest code

/-- The ranges are in increasing order, apart, and none is empty. -/
def wellFormed : Ranges → Bool
  | [] => true
  | [(low, high)] => low ≤ high
  | (low, high) :: (nextLow, nextHigh) :: rest =>
      low ≤ high && high < nextLow && wellFormed ((nextLow, nextHigh) :: rest)

/-- The ranges as a set: some range holds the code point. -/
def Holds (ranges : Ranges) (code : Nat) : Prop :=
  ∃ range ∈ ranges, range.1 ≤ code ∧ code ≤ range.2

end Ranges

/-- The 25 characters with the property White_Space. -/
def blankRanges : Ranges :=
  [(0x9, 0xD), (0x20, 0x20), (0x85, 0x85), (0xA0, 0xA0), (0x1680, 0x1680), (0x2000, 0x200A),
   (0x2028, 0x2029), (0x202F, 0x202F), (0x205F, 0x205F), (0x3000, 0x3000)]

def isBlank (character : Char) : Bool :=
  blankRanges.contains character.toNat

def trimStart (text : List Char) : List Char :=
  text.dropWhile isBlank

def trimEnd (text : List Char) : List Char :=
  (text.reverse.dropWhile isBlank).reverse

def trim (text : List Char) : List Char :=
  trimEnd (trimStart text)

/-- The pieces between separators; there is one more of them than there are separators. -/
def splitAt (separator : Char) : List Char → List (List Char)
  | [] => [[]]
  | character :: rest =>
      if character = separator then [] :: splitAt separator rest
      else
        match splitAt separator rest with
        | [] => [[character]]
        | piece :: pieces => (character :: piece) :: pieces

end Stencil.Text
