import Stencil.Json.Lexeme
import Stencil.Yaml.Lexeme

/-!
# Plain and quoted scalars

A plain scalar has no quotes.  It ends before a colon that ends a word, before a comment, before
the end of an indented block, and in flow collections before their indicators.  Between single
quotes a quote is written twice and everything else stands for itself.  Between double quotes a
backslash starts an escape sequence.

Lines are folded in all of them: a line break counts as a space, and further line breaks behind it
count as themselves.  What separates two words is kept until the next word is known.
-/

namespace Stencil.Yaml

/-- What has been read since the last word of a scalar. -/
inductive Pending where
  | nothing
  /-- Spaces and tabs, the last one first. -/
  | spaces (reversed : List Char)
  /-- A line break, unless it was escaped, and the further breaks, the last one first.  Spaces
  around line breaks do not count. -/
  | broken (first : Option Char) (reversed : List Char)
  deriving DecidableEq, Repr

namespace Pending

def isBroken : Pending → Bool
  | .broken _ _ => true
  | _ => false

def addSpace (character : Char) : Pending → Pending
  | .nothing => .spaces [character]
  | .spaces reversed => .spaces (character :: reversed)
  | .broken first reversed => .broken first reversed

def addBreak (character : Char) : Pending → Pending
  | .broken first reversed => .broken first (character :: reversed)
  | _ => .broken (some character) []

/-- The characters that stand for it between two words. -/
def folded : Pending → List Char
  | .nothing => []
  | .spaces reversed => reversed.reverse
  | .broken none reversed => reversed.reverse
  | .broken (some '\n') [] => [' ']
  | .broken (some '\n') reversed => reversed.reverse
  | .broken (some first) reversed => first :: reversed.reverse

end Pending

/-- A plain scalar and what follows it. -/
structure PlainScalar where
  content : List Char
  /-- Whether a line has ended behind it. -/
  isBroken : Bool
  rest : List Glyph

/-- Reads a plain scalar.  `inFlow` tells whether it stands in a flow collection; outside of those
its lines start at column `indent` or behind it.  The content so far is given in reverse. -/
def readPlain (inFlow : Bool) (indent : Nat) (content : List Char) (pending : Pending) :
    List Glyph → Option PlainScalar
  | [] => some { content := content.reverse, isBroken := pending.isBroken, rest := [] }
  | glyph :: rest =>
      if glyph.isSpace then
        if glyph.char = '\t' && pending.isBroken && glyph.column < indent then none
        else readPlain inFlow indent content (pending.addSpace glyph.char) rest
      else if glyph.isBreak then
        readPlain inFlow indent content (pending.addBreak glyph.char) rest
      else
        let startsWord := pending ≠ .nothing
        let endsBlock := startsWord && !inFlow && glyph.column < indent
        let endsDocument := startsWord && atDocumentMarker (glyph :: rest)
        let startsComment := startsWord && glyph.char = '#'
        let endsKey := glyph.char = ':' && atSeparator rest
        let endsItem := inFlow && [',', '[', ']', '\x7b', '\x7d'].contains glyph.char
        if endsBlock || endsDocument || startsComment || endsKey || endsItem then
          some { content := content.reverse, isBroken := pending.isBroken, rest := glyph :: rest }
        else if inFlow && glyph.char = ':' &&
            atOneOf [',', '?', '[', ']', '\x7b', '\x7d'] rest then none
        else
          readPlain inFlow indent (glyph.char :: (pending.folded.reverse ++ content)) .nothing rest

/-- Reads a single quoted scalar up to its closing quote.  The content so far is given in
reverse. -/
def readSingleQuoted (content : List Char) (pending : Pending) :
    List Glyph → Option (List Char × List Glyph)
  | [] => none
  | glyph :: rest =>
      if atDocumentMarker (glyph :: rest) then none
      else if glyph.isSpace then readSingleQuoted content (pending.addSpace glyph.char) rest
      else if glyph.isBreak then readSingleQuoted content (pending.addBreak glyph.char) rest
      else
        let joined := pending.folded.reverse ++ content
        if glyph.char = '\'' then
          match rest with
          | [] => some (joined.reverse, [])
          | next :: remaining =>
              if next.char = '\'' then readSingleQuoted ('\'' :: joined) .nothing remaining
              else some (joined.reverse, next :: remaining)
        else readSingleQuoted (glyph.char :: joined) .nothing rest

/-- The character that a letter behind a backslash stands for. -/
def unescape? : Char → Option Char
  | '0' => some '\x00'
  | 'a' => some '\x07'
  | 'b' => some '\x08'
  | 't' => some '\t'
  | '\t' => some '\t'
  | 'n' => some '\n'
  | 'v' => some '\x0b'
  | 'f' => some '\x0c'
  | 'r' => some '\r'
  | 'e' => some '\x1b'
  | ' ' => some ' '
  | '"' => some '"'
  | '/' => some '/'
  | '\\' => some '\\'
  | 'N' => some '\u0085'
  | '_' => some '\u00a0'
  | 'L' => some '\u2028'
  | 'P' => some '\u2029'
  | _ => none

/-- How many hexadecimal digits follow a letter behind a backslash. -/
def escapeLength? : Char → Option Nat
  | 'x' => some 2
  | 'u' => some 4
  | 'U' => some 8
  | _ => none

def hexNumber? (characters : List Char) : Option Nat :=
  characters.foldlM (fun number character =>
    (Json.hexValue? character).map fun digit => number * 16 + digit) 0

/-- The character with a code, if there is one. -/
def charOfCode? (code : Nat) : Option Char :=
  if code.isValidChar then some (Char.ofNat code) else none

/-- Reads the escape sequence behind a backslash, other than an escaped line break. -/
def readEscape (letter : Char) (rest : List Glyph) : Option (Char × List Glyph) :=
  match escapeLength? letter with
  | none => (unescape? letter).map fun character => (character, rest)
  | some length =>
      if rest.length < length then none
      else do
        let code ← hexNumber? (charsOf (rest.take length))
        let character ← charOfCode? code
        return (character, rest.drop length)

theorem length_readEscape_le {letter character : Char} {rest remaining : List Glyph}
    (found : readEscape letter rest = some (character, remaining)) :
    remaining.length ≤ rest.length := by
  unfold readEscape at found
  split at found
  · simp only [Option.map_eq_some_iff, Prod.mk.injEq] at found
    obtain ⟨_, _, _, rfl⟩ := found
    exact Nat.le_refl _
  · rename_i length _
    split at found
    · simp at found
    · simp only [Option.bind_eq_bind, Option.bind_eq_some_iff, Option.pure_def,
        Option.some.injEq, Prod.mk.injEq] at found
      obtain ⟨_, _, _, _, _, rfl⟩ := found
      rw [List.length_drop]
      omega

/-- Reads a double quoted scalar up to its closing quote.  The content so far is given in
reverse. -/
def readDoubleQuoted (content : List Char) (pending : Pending) (glyphs : List Glyph) :
    Option (List Char × List Glyph) :=
  match glyphs with
  | [] => none
  | glyph :: rest =>
      if atDocumentMarker (glyph :: rest) then none
      else if glyph.isSpace then readDoubleQuoted content (pending.addSpace glyph.char) rest
      else if glyph.isBreak then readDoubleQuoted content (pending.addBreak glyph.char) rest
      else
        let joined := pending.folded.reverse ++ content
        if glyph.char = '"' then some (joined.reverse, rest)
        else if glyph.char = '\\' then
          match rest with
          | [] => none
          | letter :: remaining =>
              if letter.isBreak then readDoubleQuoted joined (.broken none []) remaining
              else
                match _read : readEscape letter.char remaining with
                | none => none
                | some (character, behind) =>
                    readDoubleQuoted (character :: joined) .nothing behind
        else readDoubleQuoted (glyph.char :: joined) .nothing rest
termination_by glyphs.length
decreasing_by
  · simp
  · simp
  · simp only [List.length_cons]
    omega
  · have shorter := length_readEscape_le _read
    simp only [List.length_cons]
    omega
  · simp

end Stencil.Yaml
