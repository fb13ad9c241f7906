import Stencil.Yaml.Progress
import Stencil.Yaml.Scalar.Block
import Stencil.Yaml.Scalar.Flow
import Stencil.Yaml.Tag

/-!
# Reading lexemes of YAML

A text is read lexeme by lexeme.  Spaces, comments and line ends between lexemes are skipped; where
the next lexeme stands tells which blocks have ended.
-/

namespace Stencil.Yaml

namespace Progress

/-- Skips what stands before the next lexeme.  A tab may stand there where it cannot be taken for
indentation, and a byte order mark at the start of a line.  Behind a line end a key may start,
unless a flow collection is open. -/
def skipFrom (inFlow inComment allowsKey : Bool) : List Glyph → Bool × List Glyph
  | [] => (allowsKey, [])
  | glyph :: rest =>
      if glyph.isBreak then skipFrom inFlow false (allowsKey || !inFlow) rest
      else if inComment || glyph.isOrderMark || glyph.char = ' ' || glyph.char = '#' ||
          (glyph.char = '\t' && (inFlow || !allowsKey)) then
        skipFrom inFlow (inComment || glyph.char = '#') allowsKey rest
      else (allowsKey, glyph :: rest)

/-- Skips what stands before the next lexeme. -/
def skip (progress : Progress) : Progress :=
  let (allowsKey, rest) := skipFrom progress.inFlow false progress.allowsKey progress.rest
  { progress with allowsKey, rest }

/-- Adds a lexeme that stands outside of all blocks. -/
def readOutside (lexeme : Lexeme) (rest : List Glyph) (progress : Progress) : Option Progress :=
  (progress.closeBlocks 0).dropKey.map fun dropped =>
    ((dropped.allowKey false).emit lexeme).advance rest

def readFlowStart (lexeme : Lexeme) (glyph : Glyph) (rest : List Glyph) (progress : Progress) :
    Option Progress :=
  (progress.noteKey glyph).map fun noted =>
    ((noted.enterFlow.allowKey true).emit lexeme).advance rest

def readFlowEnd (lexeme : Lexeme) (rest : List Glyph) (progress : Progress) : Option Progress :=
  progress.dropKey.map fun dropped =>
    ((dropped.leaveFlow.allowKey false).emit lexeme).advance rest

/-- Reads the indicator between the items of a flow collection. -/
def readFlowEntry (rest : List Glyph) (progress : Progress) : Option Progress :=
  progress.dropKey.map fun dropped => ((dropped.allowKey true).emit .flowEntry).advance rest

/-- Reads the indicator of an item of a block sequence. -/
def readBlockEntry (glyph : Glyph) (rest : List Glyph) (progress : Progress) : Option Progress :=
  (progress.openEntry glyph .blockSequenceStart).bind fun opened =>
    opened.dropKey.map fun dropped => ((dropped.allowKey true).emit .blockEntry).advance rest

def readKey (glyph : Glyph) (rest : List Glyph) (progress : Progress) : Option Progress :=
  (progress.openEntry glyph .blockMappingStart).bind fun opened =>
    opened.dropKey.map fun dropped =>
      ((dropped.allowKey (!progress.inFlow)).emit .key).advance rest

/-- Reads the indicator of a value.  If a key may have started before it, it has. -/
def readColon (glyph : Glyph) (rest : List Glyph) (progress : Progress) : Option Progress :=
  match progress.possibleKey with
  | some key => some ((((progress.insertKey key).allowKey false).emit .value).advance rest)
  | none =>
      (progress.openEntry glyph .blockMappingStart).map fun opened =>
        ((opened.allowKey (!progress.inFlow)).emit .value).advance rest

def readWord (glyph : Glyph) (read : Option (Lexeme × List Glyph)) (progress : Progress) :
    Option Progress :=
  (progress.noteKey glyph).bind fun noted =>
    read.map fun (lexeme, rest) => ((noted.allowKey false).emit lexeme).advance rest

def readBlockScalar (isLiteral : Bool) (rest : List Glyph) (progress : Progress) :
    Option Progress :=
  progress.dropKey.bind fun dropped =>
    (readBlock isLiteral progress.indents.head? rest).map fun (content, behind) =>
      let style := if isLiteral then Style.literal else Style.folded
      ((dropped.allowKey true).emit (.scalar (String.ofList content) style)).advance behind

/-- Reads a plain scalar.  A key may start behind it if a line has ended there. -/
def readPlainScalar (glyph : Glyph) (progress : Progress) : Option Progress :=
  (progress.noteKey glyph).bind fun noted =>
    let indent := match progress.indents with
      | [] => 0
      | column :: _ => column + 1
    (readPlain progress.inFlow indent [] .nothing progress.rest).map fun plain =>
      ((noted.allowKey plain.isBroken).emit
        (.scalar (String.ofList plain.content) .plain)).advance plain.rest

def quotedScalar (style : Style) (read : Option (List Char × List Glyph)) :
    Option (Lexeme × List Glyph) :=
  read.map fun (content, rest) => (.scalar (String.ofList content) style, rest)

/-- Characters that stand at the start of lexemes other than plain scalars. -/
def indicators : List Char :=
  ['-', '?', ':', ',', '[', ']', '\x7b', '\x7d', '#', '&', '*', '!', '|', '>', '\'', '"', '%', '@',
    '\x60']

/-- Whether a plain scalar may start with a glyph. -/
def startsPlain (inFlow : Bool) (glyph : Glyph) (rest : List Glyph) : Bool :=
  (!glyph.isSeparator && !indicators.contains glyph.char) ||
    (glyph.char = '-' && !atOneOf [' ', '\t'] rest) ||
    (!inFlow && (glyph.char = '?' || glyph.char = ':') && !atSeparator rest)

def readLexeme (glyph : Glyph) (rest : List Glyph) (progress : Progress) : Option Progress :=
  let inFlow := progress.inFlow
  let isWord := atSeparator rest
  let character := glyph.char
  if glyph.column = 0 && character = '%' then
    (readDirective rest).bind fun (lexeme, behind) => progress.readOutside lexeme behind
  else if atMarker '-' (glyph :: rest) then progress.readOutside .documentStart (rest.drop 2)
  else if atMarker '.' (glyph :: rest) then progress.readOutside .documentEnd (rest.drop 2)
  else if character = '[' then progress.readFlowStart .flowSequenceStart glyph rest
  else if character = '\x7b' then progress.readFlowStart .flowMappingStart glyph rest
  else if character = ']' then progress.readFlowEnd .flowSequenceEnd rest
  else if character = '\x7d' then progress.readFlowEnd .flowMappingEnd rest
  else if character = ',' then progress.readFlowEntry rest
  else if character = '-' && isWord then progress.readBlockEntry glyph rest
  else if character = '?' && (inFlow || isWord) then progress.readKey glyph rest
  else if character = ':' && (inFlow || isWord) then progress.readColon glyph rest
  else if character = '*' then
    progress.readWord glyph ((readAnchorName rest).map fun (name, behind) => (.alias name, behind))
  else if character = '&' then
    progress.readWord glyph ((readAnchorName rest).map fun (name, behind) => (.anchor name, behind))
  else if character = '!' then progress.readWord glyph (readTag inFlow rest)
  else if character = '|' && !inFlow then progress.readBlockScalar true rest
  else if character = '>' && !inFlow then progress.readBlockScalar false rest
  else if character = '\'' then
    progress.readWord glyph (quotedScalar .singleQuoted (readSingleQuoted [] .nothing rest))
  else if character = '"' then
    progress.readWord glyph (quotedScalar .doubleQuoted (readDoubleQuoted [] .nothing rest))
  else if startsPlain inFlow glyph rest then progress.readPlainScalar glyph
  else none

/-- Reads the lexemes up to the end of the text.  Every step reads at least one character; `steps`
bounds their number. -/
def readAll (steps : Nat) (progress : Progress) : Option (List Lexeme) :=
  let skipped := progress.skip
  match skipped.rest with
  | [] => (skipped.closeBlocks 0).dropKey.map fun ended => ended.reversed.reverse
  | glyph :: rest =>
      match steps with
      | 0 => none
      | steps + 1 =>
          (skipped.dropStale glyph).bind fun fresh =>
            ((fresh.closeBlocks (glyph.column + 1)).readLexeme glyph rest).bind fun next =>
              next.readAll steps

end Progress

/-- The lexemes of a text, if it can be read. -/
def Lexeme.ofText? (text : String) : Option (List Lexeme) :=
  (glyphs text.toList).bind fun glyphs =>
    (Progress.start glyphs).readAll (glyphs.length + 1)

end Stencil.Yaml
