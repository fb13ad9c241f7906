import Stencil.Data.Yaml
import Stencil.Decimal.Reader
import Stencil.Json.Lexeme
import Stencil.Yaml.Lexeme

/-!
# What scalars stand for

A plain scalar without a tag may stand for null, a truth value or a number; otherwise it is a
string, as is every scalar in quotes or in a block.  Some tags demand one of these meanings.
-/

namespace Stencil.Yaml

def isNullWord (content : String) : Bool :=
  ["null", "Null", "NULL", "~"].contains content

def readBool (content : String) : Option Bool :=
  if ["true", "True", "TRUE"].contains content then some true
  else if ["false", "False", "FALSE"].contains content then some false
  else none

/-- Whether digits start with a zero that does not belong there, behind a sign or not. -/
def hasLeadingZero (characters : List Char) : Bool :=
  let unsigned := match characters with
    | '-' :: rest => rest
    | '+' :: rest => rest
    | rest => rest
  match unsigned with
  | '0' :: digit :: rest => (digit :: rest).all Decimal.isDigit
  | _ => false

/-- The number that digits stand for in a base of at most 16. -/
def readDigits (base : Nat) (characters : List Char) : Option Nat :=
  if characters.isEmpty then none
  else
    characters.foldlM (fun number character =>
      ((Json.hexValue? character).filter (· < base)).map fun digit => number * base + digit) 0

/-- The natural number a word without a sign stands for. -/
def readMagnitude : List Char → Option Nat
  | '0' :: 'x' :: digits => readDigits 16 digits
  | '0' :: 'o' :: digits => readDigits 8 digits
  | '0' :: 'b' :: digits => readDigits 2 digits
  | digits => if hasLeadingZero digits then none else readDigits 10 digits

/-- The natural number a word stands for, with a plus sign or without. -/
def readNatural : List Char → Option Nat
  | '+' :: rest => readMagnitude rest
  | rest => readMagnitude rest

/-- The least natural number that does not fit 128 bits with a sign. -/
def longLimit : Nat := 0x80000000000000000000000000000000

/-- The whole number a word stands for.  Numbers that do not fit 128 bits are not read. -/
def readInteger : List Char → Option Int
  | '-' :: rest => ((readMagnitude rest).filter (· ≤ longLimit)).map fun magnitude => -magnitude
  | rest => ((readNatural rest).filter (· < 2 * longLimit)).map fun magnitude => magnitude

def readFloat (content : String) : Option Float :=
  if [".inf", ".Inf", ".INF", "+.inf", "+.Inf", "+.INF"].contains content then some (1.0 / 0.0)
  else if ["-.inf", "-.Inf", "-.INF"].contains content then some (-1.0 / 0.0)
  else if [".nan", ".NaN", ".NAN"].contains content then some (0.0 / 0.0)
  else (Decimal.readDouble content.toList).filter Float.isFinite

/-- A whole number as a value, if it fits 64 bits. -/
def ofInteger (whole : Int) : Option Yaml :=
  if Number.fitsWord whole then some (.number (.integer whole)) else none

/-- What a plain scalar without a tag stands for.  A whole number that fits 128 but not 64 bits
stands for nothing. -/
def ofPlain (content : String) : Option Yaml :=
  if content.isEmpty || isNullWord content then some .null
  else
    match readBool content, readInteger content.toList with
    | some value, _ => some (.bool value)
    | none, some whole => ofInteger whole
    | none, none =>
        if hasLeadingZero content.toList then some (.string content)
        else
          match readFloat content with
          | some double => some (.number (.float double))
          | none => some (.string content)

def ofScalar (style : Style) (content : String) : Option Yaml :=
  if style = .plain then ofPlain content else some (.string content)

/-- The tag of a type that every application knows. -/
def standardTag (name : String) : TagOctets :=
  .ofString ("tag:yaml.org,2002:" ++ name)

/-- What stands behind the exclamation mark of a tag that is local to an application, or the mark if
that is all. -/
def localOctets? : TagOctets → Option TagOctets
  | [] => none
  | mark :: name =>
      if mark ≠ '!'.toUInt8 then none
      else if name.isEmpty then some [mark]
      else some name

/-- The name of a local tag, if it is UTF-8. -/
def localTag? (tag : Option TagOctets) : Option String :=
  (tag.bind localOctets?).bind fun octets => String.fromUTF8? ⟨octets.toArray⟩

/-- What a scalar with a tag stands for, if the tag does not become part of the value.  A local tag
without a name changes nothing for plain scalars. -/
def ofTaggedScalar (tag : TagOctets) (style : Style) (content : String) : Option Yaml :=
  if tag = standardTag "bool" then (readBool content).map .bool
  else if tag = standardTag "int" then (readInteger content.toList).bind ofInteger
  else if tag = standardTag "float" then
    (readFloat content).map fun double => .number (.float double)
  else if tag = standardTag "null" then if isNullWord content then some .null else none
  else if (localOctets? tag).isSome then ofScalar style content
  else some (.string content)

end Stencil.Yaml
