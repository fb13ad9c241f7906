import Stencil.Decimal.Shortest

/-!
# Layouts of floating point numbers

How a double is written is a choice of its format: which numbers are written positionally, how an
exponent looks, and what stands for infinities and for what is no number.
-/

namespace Stencil

/-- The choices a format makes for doubles. -/
structure Layout where
  /-- Whether a number with this exponent of its leading digit is written without an exponent. -/
  positional : Int → Bool
  /-- What follows the digits of a whole number. -/
  wholeSuffix : String
  /-- What stands before an exponent that is not negative. -/
  exponentPlus : String
  /-- Which of two equally near decimals is written. -/
  tie : Binary.Tie
  /-- What stands for no number. -/
  nan : String
  /-- What stands for infinity, behind the sign. -/
  infinity : String

namespace Layout

def dropZeros (digits : List Char) : List Char :=
  (digits.reverse.dropWhile (· = '0')).reverse

/-- Digits whose first one has the given exponent, written without an exponent. -/
def writePositional (layout : Layout) (digits : List Char) (leading : Int) : String :=
  if leading < 0 then
    "0." ++ String.ofList (List.replicate ((-leading).toNat - 1) '0' ++ digits)
  else
    let whole := leading.toNat + 1
    if digits.length ≤ whole then
      String.ofList (digits ++ List.replicate (whole - digits.length) '0') ++ layout.wholeSuffix
    else
      String.ofList (digits.take whole) ++ "." ++ String.ofList (digits.drop whole)

/-- Digits whose first one has the given exponent, written with an exponent. -/
def writeScientific (layout : Layout) (digits : List Char) (leading : Int) : String :=
  let fraction := digits.drop 1
  let mantissa :=
    String.ofList (digits.take 1) ++
      (if fraction.isEmpty then "" else "." ++ String.ofList fraction)
  let exponent :=
    (if leading < 0 then "-" else layout.exponentPlus) ++ toString leading.natAbs
  mantissa ++ "e" ++ exponent

def writeDecimal (layout : Layout) (decimal : Decimal) : String :=
  let digits := Decimal.digitText decimal.digits
  let leading : Int := digits.length + decimal.exponent - 1
  let significant := dropZeros digits
  if layout.positional leading then layout.writePositional significant leading
  else layout.writeScientific significant leading

def write (layout : Layout) (number : Float) : String :=
  if number.isNaN then layout.nan
  else
    let sign := if number.toBits >>> 63 = 1 then "-" else ""
    let binary := Binary.ofBits number.toBits
    if number.isInf then sign ++ layout.infinity
    else if binary.significand = 0 then sign ++ "0" ++ layout.wholeSuffix
    else sign ++ layout.writeDecimal (binary.shortest layout.tie)

end Layout

end Stencil
