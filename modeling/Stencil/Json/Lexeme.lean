import Stencil.Data.Json

/-!
# Lexemes of JSON

A JSON text is split into brackets, commas, colons, strings and other scalars.  Numbers without a
fraction or an exponent are whole if they fit 64 bits; all others are doubles.
-/

namespace Stencil.Json

/-- A lexeme of a JSON text. -/
inductive Lexeme where
  | openArray
  | closeArray
  | openObject
  | closeObject
  | comma
  | colon
  | string (content : String)
  | scalar (value : Json)

def isSpace (character : Char) : Bool :=
  character = ' ' || character = '\n' || character = '\t' || character = '\r'

def isNumberChar (character : Char) : Bool :=
  Decimal.isDigit character || character = '-' || character = '+' || character = '.' ||
    character = 'e' || character = 'E'

/-- Takes digits while the number they form stays below 2^64.  The result is that number and the
digits that were left. -/
def takeDigits (significand : Nat) : List Char → Nat × List Char
  | [] => (significand, [])
  | digit :: rest =>
      let next := significand * 10 + (Decimal.digitValue? digit).getD 0
      if next < Number.wordLimit then takeDigits next rest else (significand, digit :: rest)

/-- Divides a double by a large power of ten in steps. -/
def divideByPower (number : Float) (power : Nat) : Float :=
  if power ≤ 308 then number / Float.ofScientific 1 false power
  else if number == 0.0 then number
  else divideByPower (number / 1e308) (power - 308)
termination_by power

/-- Scales a number below 2^64 by a power of ten, in double arithmetic.  There is no result beyond
the largest double. -/
def scale? (significand : Nat) (exponent : Int) : Option Float :=
  let number := Float.ofNat significand
  if exponent < 0 then some (divideByPower number exponent.natAbs)
  else if exponent ≤ 308 then
    let scaled := number * Float.ofScientific 1 false exponent.toNat
    if scaled.isInf then none else some scaled
  else if significand = 0 then some number
  else none

/-- The parts of a number that is written in decimals. -/
structure Numeral where
  negative : Bool
  whole : List Char
  /-- The digits behind the point, if there is one. -/
  fraction : Option (List Char)
  exponent : Option Int

def splitDigits (characters : List Char) : List Char × List Char :=
  (characters.takeWhile Decimal.isDigit, characters.dropWhile Decimal.isDigit)

/-- Reads the whole part: a zero, or digits that do not start with one. -/
def readWhole (characters : List Char) : Option (List Char × List Char) :=
  match splitDigits characters with
  | (['0'], rest) => some (['0'], rest)
  | ('0' :: _, _) => none
  | ([], _) => none
  | (digits, rest) => some (digits, rest)

/-- Reads a point and the digits behind it, if there is a point. -/
def readFraction : List Char → Option (Option (List Char) × List Char)
  | '.' :: rest =>
      match splitDigits rest with
      | ([], _) => none
      | (digits, remaining) => some (some digits, remaining)
  | other => some (none, other)

/-- Reads a signed exponent that ends the text, if there is one. -/
def readExponent (characters : List Char) : Option (Option Int) :=
  let readDigits (sign : Int) (rest : List Char) : Option (Option Int) :=
    match splitDigits rest with
    | ([], _) => none
    | (digits, []) => some (some (sign * Decimal.value digits))
    | (_, _ :: _) => none
  match characters with
  | [] => some none
  | mark :: rest =>
      if mark = 'e' || mark = 'E' then
        match rest with
        | '+' :: remaining => readDigits 1 remaining
        | '-' :: remaining => readDigits (-1) remaining
        | remaining => readDigits 1 remaining
      else none

def readNumeral (characters : List Char) : Option Numeral := do
  let (negative, unsigned) :=
    match characters with
    | '-' :: rest => (true, rest)
    | other => (false, other)
  let (whole, behindWhole) ← readWhole unsigned
  let (fraction, behindFraction) ← readFraction behindWhole
  let exponent ← readExponent behindFraction
  return { negative, whole, fraction, exponent }

/-- The number of a numeral.  The digits that fit 64 bits form the significand; the others count
for the exponent before the point and not at all behind it. -/
def Numeral.number? (numeral : Numeral) : Option Number :=
  let (whole, skipped) := takeDigits 0 numeral.whole
  let isWhole := numeral.fraction.isNone && numeral.exponent.isNone && skipped.isEmpty
  if isWhole && !numeral.negative then some (.integer whole)
  else if isWhole && 0 < whole && Number.fitsWord (-whole) then some (.integer (-whole))
  else
    let fraction := numeral.fraction.getD []
    let (significand, left) := takeDigits whole fraction
    let places : Int := (fraction.length - left.length : Nat)
    (scale? significand (skipped.length - places + numeral.exponent.getD 0)).map fun number =>
      .float (if numeral.negative then -number else number)

def hexValue? (character : Char) : Option Nat :=
  if '0' ≤ character ∧ character ≤ '9' then some (character.toNat - '0'.toNat)
  else if 'a' ≤ character ∧ character ≤ 'f' then some (character.toNat - 'a'.toNat + 10)
  else if 'A' ≤ character ∧ character ≤ 'F' then some (character.toNat - 'A'.toNat + 10)
  else none

def hexUnit? (a b c d : Char) : Option Nat := do
  let upper := (← hexValue? a) * 16 + (← hexValue? b)
  let lower := (← hexValue? c) * 16 + (← hexValue? d)
  return upper * 256 + lower

/-- The character that a letter behind a backslash stands for. -/
def unescape? : Char → Option Char
  | '"' => some '"'
  | '\\' => some '\\'
  | '/' => some '/'
  | 'b' => some '\x08'
  | 'f' => some '\x0c'
  | 'n' => some '\n'
  | 'r' => some '\r'
  | 't' => some '\t'
  | _ => none

/-- Reads the characters of a string up to its closing quote.  Characters from U+10000 on may be
written as two units; a unit of such a pair does not stand alone. -/
def readString : List Char → Option (List Char × List Char)
  | [] => none
  | '"' :: rest => some ([], rest)
  | '\\' :: 'u' :: a :: b :: c :: d :: rest =>
      match hexUnit? a b c d with
      | none => none
      | some unit =>
          if 0xDC00 ≤ unit ∧ unit < 0xE000 then none
          else if 0xD800 ≤ unit ∧ unit < 0xDC00 then
            match rest with
            | '\\' :: 'u' :: a :: b :: c :: d :: rest =>
                match hexUnit? a b c d with
                | none => none
                | some low =>
                    if 0xDC00 ≤ low ∧ low < 0xE000 then
                      let code := 0x10000 + (unit - 0xD800) * 0x400 + (low - 0xDC00)
                      match readString rest with
                      | none => none
                      | some (content, remaining) =>
                          some (Char.ofNat code :: content, remaining)
                    else none
            | _ => none
          else
            match readString rest with
            | none => none
            | some (content, remaining) => some (Char.ofNat unit :: content, remaining)
  | '\\' :: letter :: rest =>
      match unescape? letter, readString rest with
      | some character, some (content, remaining) => some (character :: content, remaining)
      | _, _ => none
  | character :: rest =>
      if character < ' ' || character = '\\' then none
      else
        match readString rest with
        | none => none
        | some (content, remaining) => some (character :: content, remaining)

def splitLexeme : List Char → Option (Lexeme × List Char)
  | [] => none
  | '[' :: rest => some (.openArray, rest)
  | ']' :: rest => some (.closeArray, rest)
  | '\x7b' :: rest => some (.openObject, rest)
  | '\x7d' :: rest => some (.closeObject, rest)
  | ',' :: rest => some (.comma, rest)
  | ':' :: rest => some (.colon, rest)
  | 'n' :: 'u' :: 'l' :: 'l' :: rest => some (.scalar .null, rest)
  | 't' :: 'r' :: 'u' :: 'e' :: rest => some (.scalar (.bool true), rest)
  | 'f' :: 'a' :: 'l' :: 's' :: 'e' :: rest => some (.scalar (.bool false), rest)
  | '"' :: rest =>
      match readString rest with
      | none => none
      | some (content, remaining) => some (.string (String.ofList content), remaining)
  | character :: rest =>
      if isNumberChar character then
        match (readNumeral (character :: rest.takeWhile isNumberChar)).bind Numeral.number? with
        | none => none
        | some value => some (.scalar (.number value), rest.dropWhile isNumberChar)
      else none

theorem length_readString_le {characters content remaining : List Char}
    (found : readString characters = some (content, remaining)) :
    remaining.length ≤ characters.length := by
  fun_induction readString characters generalizing content remaining <;>
    simp only [Option.some.injEq, Prod.mk.injEq, reduceCtorEq] at found
  all_goals
    obtain ⟨-, rfl⟩ := found
    simp only [List.length_cons] at *
    grind

theorem length_splitLexeme_lt {characters remaining : List Char} {lexeme : Lexeme}
    (found : splitLexeme characters = some (lexeme, remaining)) :
    remaining.length < characters.length := by
  unfold splitLexeme at found
  split at found
  case h_1 => cases found
  case h_11 =>
      split at found
      · cases found
      · rename_i read
        cases found
        exact Nat.lt_succ_of_le (length_readString_le read)
  case h_12 rest _ _ _ _ _ _ _ _ _ _ =>
      split at found
      · split at found
        · cases found
        · cases found
          exact Nat.lt_succ_of_le (List.dropWhile_suffix isNumberChar).length_le
      · cases found
  all_goals
    cases found
    simp only [List.length_cons]
    omega

def lexemes (characters : List Char) : Option (List Lexeme) :=
  match _spaced : characters.dropWhile isSpace with
  | [] => some []
  | first :: rest =>
      match _found : splitLexeme (first :: rest) with
      | none => none
      | some (lexeme, remaining) => (lexemes remaining).map (lexeme :: ·)
termination_by characters.length
decreasing_by
  have shorter := length_splitLexeme_lt _found
  have spaces := (List.dropWhile_suffix (l := characters) isSpace).length_le
  rw [_spaced] at spaces
  omega

end Stencil.Json
