import Stencil.Decimal.Reader

/-!
# The shortest decimal of a double

Among the decimals that read back as a given double, those with the fewest digits are the shortest
ones, and of those the nearest to the double is chosen.  Two of them may be equally near; then the
format that is written decides.  All comparisons are exact, on natural numbers.
-/

namespace Stencil

/-- The value `significand * 2 ^ exponent` of a finite double without its sign. -/
structure Binary where
  significand : Nat
  exponent : Int
  /-- Whether the next smaller double is only half as far away as the next larger one. -/
  narrowBelow : Bool
  deriving DecidableEq, Repr

namespace Binary

/-- The value that the bits of a finite double stand for. -/
def ofBits (bits : UInt64) : Binary :=
  let scale := ((bits >>> 52) &&& 0x7FF).toNat
  let fraction := (bits &&& 0xFFFFFFFFFFFFF).toNat
  if scale = 0 then { significand := fraction, exponent := -1074, narrowBelow := false }
  else
    { significand := 0x10000000000000 + fraction, exponent := (scale : Int) - 1075,
      narrowBelow := fraction = 0 && scale > 1 }

/-- Compares a decimal with `significand * 2 ^ exponent`. -/
def compareDecimal (decimal : Decimal) (significand : Nat) (exponent : Int) : Ordering :=
  compare (decimal.digits * Nat.pow 10 decimal.exponent.toNat * Nat.pow 2 (-exponent).toNat)
    (significand * Nat.pow 2 exponent.toNat * Nat.pow 10 (-decimal.exponent).toNat)

/-- Whether a decimal reads back as this double: it lies no farther from it than half way to its
neighbours, the half ways themselves counting for doubles with an even significand. -/
def readsBack (binary : Binary) (decimal : Decimal) : Bool :=
  let low := if binary.narrowBelow then 4 * binary.significand - 1 else 4 * binary.significand - 2
  let high := 4 * binary.significand + 2
  let even := binary.significand % 2 = 0
  let fromLow := compareDecimal decimal low (binary.exponent - 2)
  let fromHigh := compareDecimal decimal high (binary.exponent - 2)
  (fromLow = .gt || (even && fromLow = .eq)) && (fromHigh = .lt || (even && fromHigh = .eq))

/-- The least number of digits before the decimal point, which is negative for small fractions. -/
def magnitude (binary : Binary) : Int :=
  let estimate := ((binary.significand.log2 + binary.exponent) * 1233).fdiv 4096
  let candidates := [estimate, estimate + 1, estimate + 2]
  let fits := fun candidate =>
    compareDecimal { digits := 1, exponent := candidate } binary.significand binary.exponent = .gt
  (candidates.find? fun candidate => fits candidate).getD (estimate + 3)

/-- Which of two equally near decimals is taken. -/
inductive Tie where
  | toEven
  | awayFromZero
  deriving DecidableEq, Repr

/-- The nearest decimal with a given exponent that reads back. -/
def nearest? (tie : Tie) (binary : Binary) (exponent : Int) : Option Decimal :=
  let numerator :=
    binary.significand * Nat.pow 2 binary.exponent.toNat * Nat.pow 10 (-exponent).toNat
  let denominator := Nat.pow 2 (-binary.exponent).toNat * Nat.pow 10 exponent.toNat
  let below := numerator / denominator
  let lower : Decimal := { digits := below, exponent }
  let upper : Decimal := { digits := below + 1, exponent }
  match binary.readsBack lower, binary.readsBack upper with
  | false, false => none
  | true, false => some lower
  | false, true => some upper
  | true, true =>
      match compare (2 * numerator) ((2 * below + 1) * denominator), tie with
      | .lt, _ => some lower
      | .gt, _ => some upper
      | .eq, .awayFromZero => some upper
      | .eq, .toEven => some (if below % 2 = 0 then lower else upper)

/-- The shortest decimal of a positive double; seventeen digits are always enough. -/
def shortest (tie : Tie) (binary : Binary) : Decimal :=
  let exponents := (List.range 17).map fun count => binary.magnitude - (count + 1 : Nat)
  (exponents.findSome? (binary.nearest? tie)).getD { digits := 0, exponent := 0 }

end Binary

end Stencil
