/-!
# Decimal numbers

A decimal is a natural number scaled by a power of ten.  Its value as a double is the nearest
one; a decimal beyond the largest double is infinite.  It is written with digits, at most one point
among or around them, and possibly an exponent of ten behind an `e`.  At least one digit stands
before the exponent.
-/

namespace Stencil

/-- The number `digits * 10 ^ exponent`. -/
structure Decimal where
  digits : Nat
  exponent : Int
  deriving DecidableEq, Repr

namespace Decimal

/-- The decimal digits of a number, most significant first. -/
def digitText (number : Nat) : List Char :=
  (toString number).toList

def digitValue? (character : Char) : Option Nat :=
  if '0' ≤ character ∧ character ≤ '9' then some (character.toNat - '0'.toNat) else none

/-- Whether a character is one of the ten digits. -/
def isDigit (character : Char) : Bool :=
  (digitValue? character).isSome

/-- The number that digits stand for; other characters count as zeros. -/
def value (characters : List Char) : Nat :=
  characters.foldl (fun number character => number * 10 + (digitValue? character).getD 0) 0

/-- The nearest double.  Powers of ten far beyond the range of doubles are not computed. -/
def toDouble (decimal : Decimal) : Float :=
  let magnitude : Int := (digitText decimal.digits).length + decimal.exponent
  if decimal.digits = 0 then 0.0
  else if magnitude > 310 then 1.0 / 0.0
  else if magnitude < -330 then 0.0
  else
    Float.ofScientific decimal.digits (decimal.exponent < 0) decimal.exponent.natAbs

end Decimal

end Stencil

namespace Stencil.Decimal

/-- Reads an exponent, which must be all that is left. -/
def readExponent : List Char → Option Int
  | [] => some 0
  | letter :: rest =>
      if letter = 'e' || letter = 'E' then
        let (isNegative, digits) := match rest with
          | '-' :: digits => (true, digits)
          | '+' :: digits => (false, digits)
          | digits => (false, digits)
        if digits.isEmpty || !digits.all isDigit then none
        else some (if isNegative then -(value digits : Int) else value digits)
      else none

def read (characters : List Char) : Option Decimal :=
  let whole := characters.takeWhile isDigit
  let (fraction, rest) := match characters.dropWhile isDigit with
    | '.' :: behind => (behind.takeWhile isDigit, behind.dropWhile isDigit)
    | behind => ([], behind)
  if whole.isEmpty && fraction.isEmpty then none
  else
    (readExponent rest).map fun exponent =>
      { digits := value (whole ++ fraction), exponent := exponent - fraction.length }

/-- Reads a decimal with or without a sign as the nearest double. -/
def readDouble : List Char → Option Float
  | '-' :: rest => (read rest).map fun decimal => -decimal.toDouble
  | '+' :: rest => (read rest).map toDouble
  | characters => (read characters).map toDouble

end Stencil.Decimal
