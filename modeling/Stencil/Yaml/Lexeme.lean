/-!
# Characters and lexemes of YAML

The structure of a YAML text depends on where its characters stand.  Each character is therefore
read together with its line, its column and its index.  All ways to end a line are read as a line
feed, except for the line and paragraph separators, which stay what they are.

The lexemes of a YAML text are its indicators, names and scalars.  Where indentation begins or ends
a collection there is a lexeme for that too.
-/

namespace Stencil.Yaml

/-- A character of a text and where it stands, counting from 0. -/
structure Glyph where
  char : Char
  /-- How many octets of UTF-8 stand before it. -/
  index : Nat
  line : Nat
  column : Nat
  deriving DecidableEq, Repr

/-- Whether a character may occur in a YAML text. -/
def isAllowed (character : Char) : Bool :=
  let code := character.toNat
  character = '\t' || character = '\n' || character = '\r' || (0x20 ≤ code && code ≤ 0x7E) ||
    code = 0x85 || (0xA0 ≤ code && code ≤ 0xD7FF) || (0xE000 ≤ code && code ≤ 0xFFFD) ||
    0x10000 ≤ code

/-- Whether a character ends a line, once line ends have been made uniform. -/
def isBreak (character : Char) : Bool :=
  character = '\n' || character = '\u2028' || character = '\u2029'

/-- Whether a character is a space or a tab. -/
def isSpace (character : Char) : Bool :=
  character = ' ' || character = '\t'

/-- The glyphs of characters that start at a given place; there are none if some character must
not occur in a YAML text. -/
def glyphsFrom (index line column : Nat) : List Char → Option (List Glyph)
  | [] => some []
  | '\r' :: '\n' :: rest =>
      (glyphsFrom (index + 2) (line + 1) 0 rest).map ({ char := '\n', index, line, column } :: ·)
  | character :: rest =>
      if !isAllowed character then none
      else
        let char := if character = '\r' || character = '\u0085' then '\n' else character
        let next := index + character.utf8Size
        let following :=
          if isBreak char then glyphsFrom next (line + 1) 0 rest
          else glyphsFrom next line (column + 1) rest
        following.map ({ char, index, line, column } :: ·)

def glyphs (characters : List Char) : Option (List Glyph) :=
  glyphsFrom 0 0 0 characters

namespace Glyph

def isBreak (glyph : Glyph) : Bool :=
  Yaml.isBreak glyph.char

/-- Whether a glyph is a space or a tab. -/
def isSpace (glyph : Glyph) : Bool :=
  Yaml.isSpace glyph.char

/-- Whether a glyph is a byte order mark at the start of a line. -/
def isOrderMark (glyph : Glyph) : Bool :=
  glyph.column = 0 && glyph.char = '\ufeff'

def isSeparator (glyph : Glyph) : Bool :=
  glyph.isSpace || glyph.isBreak

end Glyph

/-- Whether what follows is a separator or the end of the text. -/
def atSeparator : List Glyph → Bool
  | [] => true
  | glyph :: _ => glyph.isSeparator

/-- Whether what follows is one of the given characters. -/
def atOneOf (characters : List Char) : List Glyph → Bool
  | [] => false
  | glyph :: _ => characters.contains glyph.char

/-- Whether three times the given character follows at the start of a line, and nothing more of
a word. -/
def atMarker (character : Char) : List Glyph → Bool
  | first :: second :: third :: rest =>
      first.column = 0 && first.char = character && second.char = character &&
        third.char = character && atSeparator rest
  | _ => false

/-- Whether a line follows that starts or ends a document. -/
def atDocumentMarker (glyphs : List Glyph) : Bool :=
  atMarker '-' glyphs || atMarker '.' glyphs

/-- Skips the rest of a line on which nothing but a comment may follow. -/
def skipLine (glyphs : List Glyph) : Option (List Glyph) :=
  let spaced := glyphs.dropWhile Glyph.isSpace
  let behind := if atOneOf ['#'] spaced then spaced.dropWhile (!·.isBreak) else spaced
  match behind with
  | [] => some []
  | glyph :: rest => if glyph.isBreak then some rest else none

def charsOf (glyphs : List Glyph) : List Char :=
  glyphs.map Glyph.char

/-- How a scalar is written. -/
inductive Style where
  | plain
  | singleQuoted
  | doubleQuoted
  | literal
  | folded
  deriving DecidableEq, Repr

/-- A tag or a part of one.  Its octets need not be UTF-8. -/
abbrev TagOctets := List UInt8

/-- The octets of a text in UTF-8. -/
def TagOctets.ofString (text : String) : TagOctets :=
  text.toUTF8.data.toList

/-- A lexeme of a YAML text. -/
inductive Lexeme where
  | versionDirective (major minor : Nat)
  /-- Says what a handle stands for at the start of tags. -/
  | tagDirective (handle : String) (replacement : TagOctets)
  | documentStart
  | documentEnd
  | blockSequenceStart
  | blockMappingStart
  | blockEnd
  | flowSequenceStart
  | flowSequenceEnd
  | flowMappingStart
  | flowMappingEnd
  | blockEntry
  | flowEntry
  | key
  | value
  | alias (name : String)
  | anchor (name : String)
  /-- A tag; its handle is empty if the suffix is all of it. -/
  | tag (handle : String) (suffix : TagOctets)
  | scalar (content : String) (style : Style)
  deriving DecidableEq, Repr

end Stencil.Yaml
