import Stencil.Json.Lexeme
import Stencil.Yaml.Lexeme

/-!
# Names, tags and directives

Anchors, handles and directives have names.  A tag has a handle, whose meaning a directive may set,
and a suffix.  Octets in a suffix may be written with a percent sign and two hexadecimal digits, all
octets of a character together.  An octet of zero ends the suffix: what is written behind it is
dropped.
-/

namespace Stencil.Yaml

def isNameChar (character : Char) : Bool :=
  character.isAlphanum || character = '_' || character = '-'

/-- The name at the start, which may be empty, and what follows it. -/
def spanName (glyphs : List Glyph) : List Char × List Glyph :=
  (charsOf (glyphs.takeWhile fun glyph => isNameChar glyph.char),
    glyphs.dropWhile fun glyph => isNameChar glyph.char)

/-- Reads the name of an anchor or of an alias. -/
def readAnchorName (glyphs : List Glyph) : Option (String × List Glyph) :=
  let (name, rest) := spanName glyphs
  if name.isEmpty then none
  else if atSeparator rest || atOneOf ['?', ':', ',', ']', '\x7d', '%', '@', '\x60'] rest then
    some (String.ofList name, rest)
  else none

/-- Whether a character may occur in a suffix.  The indicators of flow sequences may only where
brackets enclose the suffix or a line ends it. -/
def isTagChar (isEnclosed : Bool) (character : Char) : Bool :=
  isNameChar character ||
    [';', '/', '?', ':', '@', '&', '=', '+', '$', '.', '%', '!', '~', '*', '\'', '(', ')'].contains
      character ||
    (isEnclosed && [',', '[', ']'].contains character)

/-- How many octets are still to come behind an octet, if `owed` are to come with it: the first
octet of a character tells how many follow, and those that follow are all of one form. -/
def owedBehind? (owed octet : Nat) : Option Nat :=
  match owed with
  | owed + 1 => if 0x80 ≤ octet ∧ octet < 0xC0 then some owed else none
  | 0 =>
      if octet < 0x80 then some 0
      else if octet < 0xC0 then none
      else if octet < 0xE0 then some 1
      else if octet < 0xF0 then some 2
      else if octet < 0xF8 then some 3
      else none

/-- Reads the octets of a suffix, given those so far in reverse and how many are owed to the
character that is being written. -/
def readOctets (isEnclosed : Bool) (owed : Nat) (octets : TagOctets) :
    List Glyph → Option (TagOctets × List Glyph)
  | [] => if owed = 0 then some (octets.reverse, []) else none
  | glyph :: rest =>
      if glyph.char = '%' then
        match rest with
        | first :: second :: remaining =>
            match Json.hexValue? first.char, Json.hexValue? second.char with
            | some high, some low =>
                let octet := high * 16 + low
                match owedBehind? owed octet with
                | none => none
                | some owed => readOctets isEnclosed owed (UInt8.ofNat octet :: octets) remaining
            | _, _ => none
        | _ => none
      else if owed ≠ 0 then none
      else if isTagChar isEnclosed glyph.char then
        readOctets isEnclosed 0 (UInt8.ofNat glyph.char.toNat :: octets) rest
      else some (octets.reverse, glyph :: rest)

/-- Reads a suffix, which may be empty. -/
def readSuffix (isEnclosed : Bool) (glyphs : List Glyph) : Option (TagOctets × List Glyph) :=
  (readOctets isEnclosed 0 [] glyphs).map fun (octets, rest) => (octets.takeWhile (· ≠ 0), rest)

/-- Reads a suffix of which at least one character is written. -/
def readWrittenSuffix (isEnclosed : Bool) (glyphs : List Glyph) :
    Option (TagOctets × List Glyph) :=
  if glyphs.head?.any fun glyph => isTagChar isEnclosed glyph.char then
    readSuffix isEnclosed glyphs
  else none

/-- Reads one of the forms of a tag behind its exclamation mark: in brackets, with a handle, or
with the primary handle.  A mark alone is a tag of its own. -/
def readTagForm (glyphs : List Glyph) : Option (Lexeme × List Glyph) :=
  if atOneOf ['<'] glyphs then do
    let (suffix, behind) ← readWrittenSuffix true (glyphs.drop 1)
    if atOneOf ['>'] behind then some (.tag "" suffix, behind.drop 1) else none
  else
    let (name, behindName) := spanName glyphs
    if atOneOf ['!'] behindName then do
      let (suffix, rest) ← readWrittenSuffix false (behindName.drop 1)
      return (.tag ("!" ++ String.ofList name ++ "!") suffix, rest)
    else do
      let (suffix, rest) ← readSuffix false glyphs
      return (if suffix.isEmpty then .tag "" (.ofString "!") else .tag "!" suffix, rest)

/-- Reads a tag behind its exclamation mark up to the separator that must follow. -/
def readTag (inFlow : Bool) (glyphs : List Glyph) : Option (Lexeme × List Glyph) :=
  (readTagForm glyphs).filter fun (_, rest) =>
    atSeparator rest || (inFlow && atOneOf [','] rest)

/-- Reads a part of a version, of at most nine digits. -/
def readVersionPart (glyphs : List Glyph) : Option (Nat × List Glyph) :=
  let digits := charsOf (glyphs.takeWhile fun glyph => Decimal.isDigit glyph.char)
  if digits.isEmpty || 9 < digits.length then none
  else some (Decimal.value digits, glyphs.drop digits.length)

def readVersion (glyphs : List Glyph) : Option (Lexeme × List Glyph) := do
  let (major, behind) ← readVersionPart glyphs
  if atOneOf ['.'] behind then
    let (minor, rest) ← readVersionPart (behind.drop 1)
    return (.versionDirective major minor, rest)
  else none

/-- Reads a handle: a name between exclamation marks, or a mark alone. -/
def readHandle (glyphs : List Glyph) : Option (String × List Glyph) :=
  if atOneOf ['!'] glyphs then
    let (name, behind) := spanName (glyphs.drop 1)
    if atOneOf ['!'] behind then some ("!" ++ String.ofList name ++ "!", behind.drop 1)
    else if name.isEmpty then some ("!", behind)
    else none
  else none

def readHandleMeaning (glyphs : List Glyph) : Option (Lexeme × List Glyph) := do
  let (handle, behind) ← readHandle glyphs
  let spaced := behind.dropWhile Glyph.isSpace
  if spaced.length = behind.length then none
  else
    let (replacement, rest) ← readWrittenSuffix true spaced
    if atSeparator rest then some (.tagDirective handle replacement, rest) else none

/-- Reads a directive behind its percent sign, to the end of its line. -/
def readDirective (glyphs : List Glyph) : Option (Lexeme × List Glyph) :=
  let (name, behind) := spanName glyphs
  let spaced := behind.dropWhile Glyph.isSpace
  if !atSeparator behind then none
  else do
    let (directive, rest) ←
      if String.ofList name = "YAML" then readVersion spaced
      else if String.ofList name = "TAG" then readHandleMeaning spaced
      else none
    return (directive, ← skipLine rest)

end Stencil.Yaml
