import Stencil.Directive
import Stencil.Token.Piece

/-!
# Tokens

A template text is a sequence of tokens: runs of text, and directives with their places.  A place
counts bytes from 0 and lines and columns from 1; a column is one character wide.

The pieces of a template are read one after the other, keeping count of the place one character at a
time.  Reading stops at the first piece that is no text and no directive.
-/

namespace Stencil

/-- A place in a text. -/
structure Position where
  /-- The number of bytes before it, in UTF-8. -/
  offset : Nat
  /-- One more than the number of line feeds before it. -/
  line : Nat
  /-- One more than the number of characters before it on its line. -/
  column : Nat
  deriving DecidableEq, Repr

namespace Position

def start : Position :=
  { offset := 0, line := 1, column := 1 }

def advance (place : Position) (character : Char) : Position :=
  if character = '\n' then
    { offset := place.offset + character.utf8Size, line := place.line + 1, column := 1 }
  else
    { offset := place.offset + character.utf8Size, line := place.line,
      column := place.column + 1 }

def after (place : Position) (characters : List Char) : Position :=
  characters.foldl advance place

/-- How messages name a place: line and column. -/
def text (place : Position) : String :=
  toString place.line ++ ":" ++ toString place.column

end Position

/-- A run of text or a directive of a template. -/
inductive Token where
  | text (content : String)
  | variable (path : Path) (raw : Bool) (place : Position)
  /-- Opens a block.  Directives give a binding to loops only. -/
  | opening (kind : BlockKind) (path : Path) (binding : Option String) (place : Position)
  | otherwise (place : Position)
  | closing (kind : BlockKind) (place : Position)
  deriving DecidableEq, Repr

/-- The token of a directive that starts at a place. -/
def Directive.token (place : Position) : Directive → Token
  | .variable path raw => .variable path raw place
  | .loop path binding => .opening .loop path (some binding) place
  | .conditional path => .opening .conditional path none place
  | .otherwise => .otherwise place
  | .close kind => .closing kind place

/-- Why a template has no tokens. -/
inductive LexError where
  /-- No closing marker follows. -/
  | unterminated (place : Position)
  /-- The text between the markers is no directive. -/
  | invalid (fault : Directive.Fault) (place : Position)
  deriving DecidableEq, Repr

namespace LexError

/-- The place of the opening marker at fault. -/
def place : LexError → Position
  | .unterminated place => place
  | .invalid _ place => place

/-- The wording for a directive that is never closed. -/
def unterminatedText (place : Position) : String :=
  "unterminated directive opened at " ++ place.text

def invalidText (place : Position) (reason : String) : String :=
  "invalid directive at " ++ place.text ++ ": " ++ reason

def message : LexError → String
  | .unterminated place => unterminatedText place
  | .invalid fault place => invalidText place fault.reason

end LexError

def Marker.read : Marker → List Char → Except Directive.Fault Directive
  | .value => Directive.readValue
  | .block => Directive.readBlock

/-- The token of a piece that starts at a place. -/
def Piece.token (place : Position) : Piece → Except LexError Token
  | .text characters => .ok (.text (String.ofList characters))
  | .directive marker inner =>
      match marker.read inner with
      | .ok found => .ok (found.token place)
      | .error fault => .error (.invalid fault place)
  | .unclosed _ _ => .error (.unterminated place)

/-- The tokens of pieces that start at a place. -/
def Token.ofPieces (place : Position) : List Piece → Except LexError (List Token)
  | [] => .ok []
  | piece :: rest =>
      match piece.token place with
      | .error error => .error error
      | .ok token =>
          match Token.ofPieces (place.after piece.source) rest with
          | .error error => .error error
          | .ok tokens => .ok (token :: tokens)

def Token.read (template : String) : Except LexError (List Token) :=
  Token.ofPieces .start (Piece.cut template.toList)

end Stencil
