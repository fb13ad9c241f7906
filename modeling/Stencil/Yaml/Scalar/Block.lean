import Stencil.Decimal.Reader
import Stencil.Yaml.Lexeme

/-!
# Block scalars

A block scalar holds the lines that are indented below its header.  In a literal one lines stay as
they are; in a folded one the break between two lines that do not start with a space counts as a
space.  The header may tell the indentation, and what becomes of the line breaks at the end.
-/

namespace Stencil.Yaml

/-- What becomes of the line breaks at the end. -/
inductive Chomping where
  | strip
  /-- The first one stays. -/
  | clip
  | keep
  deriving DecidableEq, Repr

/-- What the header of a block scalar tells. -/
structure BlockHeader where
  chomping : Chomping
  /-- How much deeper than its surroundings the scalar is indented. -/
  increment : Option Nat

def chomping? (character : Char) : Option Chomping :=
  if character = '+' then some .keep
  else if character = '-' then some .strip
  else none

def increment? (character : Char) : Option Nat :=
  match Decimal.digitValue? character with
  | some (digit + 1) => some (digit + 1)
  | _ => none

/-- Reads the indicators of a header, in either order.  A zero is no increment. -/
def readIndicators : List Glyph → Option (BlockHeader × List Glyph)
  | [] => some ({ chomping := .clip, increment := none }, [])
  | first :: rest =>
      match chomping? first.char with
      | some chomping =>
          match rest with
          | [] => some ({ chomping, increment := none }, [])
          | second :: remaining =>
              if Decimal.isDigit second.char then
                (increment? second.char).map fun increment =>
                  ({ chomping, increment := some increment }, remaining)
              else some ({ chomping, increment := none }, second :: remaining)
      | none =>
          if Decimal.isDigit first.char then
            (increment? first.char).map fun increment =>
              match rest with
              | [] => ({ chomping := .clip, increment := some increment }, [])
              | second :: remaining =>
                  match chomping? second.char with
                  | some chomping => ({ chomping, increment := some increment }, remaining)
                  | none =>
                      ({ chomping := .clip, increment := some increment }, second :: remaining)
          else some ({ chomping := .clip, increment := none }, first :: rest)

/-- The deepest indentation of the empty lines at the start and of the first line that is not
empty, where the text may end in the spaces of a line.  There is none if a tab stands in it. -/
def deepestIndent (deepest : Nat) : List Glyph → Option Nat
  | [] => some deepest
  | glyph :: rest =>
      if glyph.char = ' ' then deepestIndent (max deepest (glyph.column + 1)) rest
      else if glyph.char = '\t' then none
      else if glyph.isBreak then deepestIndent (max deepest glyph.column) rest
      else some (max deepest glyph.column)

/-- What has been read of a block scalar. -/
structure BlockContent where
  /-- The lines, in reverse. -/
  content : List Char
  /-- The break that ended the last line. -/
  lineBreak : Option Char
  /-- The breaks of the empty lines behind it, in reverse. -/
  emptyLines : List Char
  /-- Whether the last line starts with a space or a tab. -/
  startsWithSpace : Bool

namespace BlockContent

def empty : BlockContent :=
  { content := [], lineBreak := none, emptyLines := [], startsWithSpace := false }

def beginLine (isLiteral : Bool) (block : BlockContent) (glyph : Glyph) : BlockContent :=
  let folds :=
    !isLiteral && block.lineBreak = some '\n' && !block.startsWithSpace && !glyph.isSpace
  let separator :=
    if folds then (if block.emptyLines.isEmpty then [' '] else []) else block.lineBreak.toList
  { content := glyph.char :: (block.emptyLines ++ separator ++ block.content)
    lineBreak := none
    emptyLines := []
    startsWithSpace := glyph.isSpace }

/-- The content, with the line breaks at the end that stay. -/
def chomp (block : BlockContent) : Chomping → List Char
  | .strip => block.content.reverse
  | .clip => (block.lineBreak.toList ++ block.content).reverse
  | .keep => (block.emptyLines ++ block.lineBreak.toList ++ block.content).reverse

end BlockContent

/-- Reads the lines of a block scalar that are indented to column `indent`. -/
def readBlockLines (isLiteral : Bool) (indent : Nat) (inLine : Bool) (block : BlockContent) :
    List Glyph → Option (BlockContent × List Glyph)
  | [] => some (block, [])
  | glyph :: rest =>
      if inLine then
        if glyph.isBreak then
          readBlockLines isLiteral indent false { block with lineBreak := some glyph.char } rest
        else
          readBlockLines isLiteral indent true
            { block with content := glyph.char :: block.content } rest
      else if glyph.char = ' ' && glyph.column < indent then
        readBlockLines isLiteral indent false block rest
      else if glyph.char = '\t' && glyph.column < indent then none
      else if glyph.isBreak then
        readBlockLines isLiteral indent false
          { block with emptyLines := glyph.char :: block.emptyLines } rest
      else if glyph.column = indent then
        readBlockLines isLiteral indent true (block.beginLine isLiteral glyph) rest
      else some (block, glyph :: rest)

/-- Reads a block scalar behind its indicator.  `parent` is the column of the block it stands
in, if it stands in one. -/
def readBlock (isLiteral : Bool) (parent : Option Nat) (glyphs : List Glyph) :
    Option (List Char × List Glyph) := do
  let (header, behindHeader) ← readIndicators glyphs
  let lines ← skipLine behindHeader
  let indent ←
    match header.increment with
    | some increment => some (parent.getD 0 + increment)
    | none =>
        let least := match parent with
          | some column => column + 1
          | none => 1
        (deepestIndent 0 lines).map fun deepest => max deepest least
  let (block, rest) ← readBlockLines isLiteral indent false .empty lines
  return (block.chomp header.chomping, rest)

end Stencil.Yaml
