import Stencil.Yaml.Lexeme

/-!
# Progress through a YAML text

Whether a word is a key shows only at the colon behind it.  While a text is read, the place where a
key may have started is therefore kept, one for each open flow collection and one for the blocks
around them, so that the lexemes that begin the key can be put there later.  Otherwise lexemes are
only added at the end.
-/

namespace Stencil.Yaml

/-- A place where a key may have started. -/
structure PossibleKey where
  /-- Whether a key must start there, because an entry of a block mapping does. -/
  required : Bool
  /-- How many lexemes stand before it. -/
  count : Nat
  /-- Its first glyph. -/
  start : Glyph

/-- How far a text has been read. -/
structure Progress where
  /-- What has not been read. -/
  rest : List Glyph
  /-- The lexemes so far, the last one first. -/
  reversed : List Lexeme
  /-- The columns of the open blocks, the innermost one first. -/
  indents : List Nat
  /-- Where a key may have started in the innermost open collection. -/
  possibleKey : Option PossibleKey
  /-- Where keys may have started outside of the open flow collections, the innermost first. -/
  outerKeys : List (Option PossibleKey)
  /-- Whether a key may start here. -/
  allowsKey : Bool

namespace Progress

def start (glyphs : List Glyph) : Progress where
  rest := glyphs
  reversed := []
  indents := []
  possibleKey := none
  outerKeys := []
  allowsKey := true

def inFlow (progress : Progress) : Bool :=
  !progress.outerKeys.isEmpty

/-- Whether a block that starts at a column would be inside of all open ones. -/
def isDeeper (progress : Progress) (column : Nat) : Bool :=
  !progress.inFlow && progress.indents.all (· < column)

def emit (lexeme : Lexeme) (progress : Progress) : Progress :=
  { progress with reversed := lexeme :: progress.reversed }

/-- Goes on with a given rest. -/
def advance (rest : List Glyph) (progress : Progress) : Progress :=
  { progress with rest }

/-- Tells whether a key may start from here on. -/
def allowKey (isAllowed : Bool) (progress : Progress) : Progress :=
  { progress with allowsKey := isAllowed }

/-- Gives up that a key has started, unless one must have. -/
def dropKey (progress : Progress) : Option Progress :=
  if progress.possibleKey.any PossibleKey.required then none
  else some { progress with possibleKey := none }

/-- Notes that a key may start with a glyph, if one may. -/
def noteKey (glyph : Glyph) (progress : Progress) : Option Progress :=
  if progress.allowsKey then
    progress.dropKey.map fun dropped =>
      { dropped with
        possibleKey := some
          { required := !progress.inFlow && progress.indents.head? = some glyph.column
            count := progress.reversed.length
            start := glyph } }
  else some progress

/-- Whether a key that started at a place may not end at a glyph any more, since keys are limited
to one line and to 1024 octets. -/
def isStale (glyph : Glyph) (key : PossibleKey) : Bool :=
  key.start.line < glyph.line || key.start.index + 1024 < glyph.index

/-- Gives up all keys that may not end at a glyph any more, unless one of them is required. -/
def dropStale (glyph : Glyph) (progress : Progress) : Option Progress :=
  let keys := progress.possibleKey :: progress.outerKeys
  if keys.any fun key => key.any fun key => isStale glyph key && key.required then none
  else
    let fresh := Option.filter fun key => !isStale glyph key
    some { progress with
      possibleKey := fresh progress.possibleKey
      outerKeys := progress.outerKeys.map fresh }

/-- Ends all blocks that start at a given column or behind it.  Blocks around flow collections do
not end. -/
def closeBlocks (column : Nat) (progress : Progress) : Progress :=
  if progress.inFlow then progress
  else
    let closed := progress.indents.takeWhile (column ≤ ·)
    { progress with
      reversed := closed.map (fun _ => .blockEnd) ++ progress.reversed
      indents := progress.indents.drop closed.length }

/-- Begins a block at a column, unless it goes on there. -/
def openBlock (column : Nat) (lexeme : Lexeme) (progress : Progress) : Progress :=
  if progress.isDeeper column then
    { progress with
      reversed := lexeme :: progress.reversed
      indents := column :: progress.indents }
  else progress

/-- Begins an entry with a glyph of a block, which is only possible where a key may start.  In flow
collections there is nothing to begin. -/
def openEntry (glyph : Glyph) (lexeme : Lexeme) (progress : Progress) : Option Progress :=
  if progress.inFlow then some progress
  else if progress.allowsKey then some (progress.openBlock glyph.column lexeme)
  else none

/-- Puts the lexemes that begin a key to where it has started. -/
def insertKey (key : PossibleKey) (progress : Progress) : Progress :=
  let behind := progress.reversed.take (progress.reversed.length - key.count)
  let before := { progress with reversed := progress.reversed.drop behind.length }
  let begun := (before.openBlock key.start.column .blockMappingStart).emit .key
  { begun with reversed := behind ++ begun.reversed, possibleKey := none }

def enterFlow (progress : Progress) : Progress :=
  { progress with
    possibleKey := none
    outerKeys := progress.possibleKey :: progress.outerKeys }

/-- Leaves the innermost flow collection, if there is one. -/
def leaveFlow (progress : Progress) : Progress :=
  match progress.outerKeys with
  | [] => progress
  | outer :: outerKeys => { progress with possibleKey := outer, outerKeys }

end Progress

end Stencil.Yaml
