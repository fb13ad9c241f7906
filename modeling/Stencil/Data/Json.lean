import Stencil.Data
import Stencil.Decimal.Layout

/-!
# JSON values

A JSON value is a tree of arrays and objects over scalars.  The entries of an object are kept in
the order of their names.  Values are written without spaces; in strings the quote, the backslash
and control characters are escaped.  As data, false, zero, the empty string and the empty array
count as false; an object always counts as true.
-/

namespace Stencil

/-- A JSON value. -/
inductive Json where
  | null
  | bool (value : Bool)
  | number (value : Number)
  | string (content : String)
  | array (items : List Json)
  | object (entries : List (String × Json))
  deriving Inhabited, Repr

namespace Json

/-- Doubles have a point or an exponent; the exponent has a sign and stands from 10^16 on and
below 10^-5. -/
def layout : Layout where
  positional := fun exponent => -5 ≤ exponent && exponent ≤ 15
  wholeSuffix := ".0"
  exponentPlus := "+"
  tie := .toEven
  nan := "null"
  infinity := "null"

def writeNumber : Number → String
  | .integer value => toString value
  | .float value => layout.write value

end Json

end Stencil

namespace Stencil.Json

/-- The digit of a number below sixteen, in lower case. -/
def hexDigit (number : Nat) : Char :=
  if number < 10 then Char.ofNat ('0'.toNat + number) else Char.ofNat ('a'.toNat + number - 10)

/-- A character as it is written in a string. -/
def escape : Char → List Char
  | '"' => ['\\', '"']
  | '\\' => ['\\', '\\']
  | '\x08' => ['\\', 'b']
  | '\x0c' => ['\\', 'f']
  | '\n' => ['\\', 'n']
  | '\r' => ['\\', 'r']
  | '\t' => ['\\', 't']
  | character =>
      if character < ' ' then
        ['\\', 'u', '0', '0', hexDigit (character.toNat / 16), hexDigit (character.toNat % 16)]
      else [character]

def writeString (content : String) : String :=
  "\"" ++ String.ofList (content.toList.flatMap escape) ++ "\""

mutual

def write : Json → String
  | .null => "null"
  | .bool true => "true"
  | .bool false => "false"
  | .number value => writeNumber value
  | .string content => writeString content
  | .array items => "[" ++ writeItems items ++ "]"
  | .object entries => "\x7b" ++ writeEntries entries ++ "\x7d"

def writeItems : List Json → String
  | [] => ""
  | [item] => write item
  | item :: rest => write item ++ "," ++ writeItems rest

def writeEntries : List (String × Json) → String
  | [] => ""
  | [(name, value)] => writeString name ++ ":" ++ write value
  | (name, value) :: rest =>
      writeString name ++ ":" ++ write value ++ "," ++ writeEntries rest

end

def child (value : Json) (name : String) : Option Json :=
  match value with
  | .object entries => Entries.find? name entries
  | _ => none

def children : Json → Option (List Json)
  | .array items => some items
  | _ => none

def text : Json → Option String
  | .bool true => some "true"
  | .bool false => some "false"
  | .number value => some (writeNumber value)
  | .string content => some content
  | _ => none

def truthy : Json → Bool
  | .null => false
  | .bool value => value
  | .number value => !value.isZero
  | .string content => !content.isEmpty
  | .array items => !items.isEmpty
  | .object _ => true

def isNull : Json → Bool
  | .null => true
  | _ => false

instance : Data Json where
  child := child
  children := children
  text := text
  truthy := truthy
  isNull := isNull

end Stencil.Json
