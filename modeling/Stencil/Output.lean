/-!
# Output

A sink takes the text that is rendered.  It may have room for a number of bytes only; what does
not fit any more is cut off behind the last character that fits, and the write fails.

Five characters have a meaning in markup.  An escaped text has an entity in the place of each of
them; the runs of characters between them are copied as they are.  Where a run begins is kept as a
number of bytes; the run is cut out of the text when it ends.
-/

namespace Stencil

/-- Where rendered text goes. -/
structure Sink where
  /-- What has been written. -/
  text : String
  /-- How many more bytes fit, unless there is no limit. -/
  room : Option Nat
  deriving DecidableEq, Repr

namespace Sink

def unlimited : Sink :=
  { text := "", room := none }

def limited (room : Nat) : Sink :=
  { text := "", room := some room }

/-- The characters a text starts with, as many as fit into a number of bytes. -/
def fitting (room : Nat) : List Char → List Char
  | [] => []
  | character :: rest =>
      if character.utf8Size ≤ room then character :: fitting (room - character.utf8Size) rest
      else []

/-- Writes a text.  The result tells whether all of it fits. -/
def write (sink : Sink) (content : String) : Bool × Sink :=
  match sink.room with
  | none => (true, { sink with text := sink.text ++ content })
  | some room =>
      if content.utf8ByteSize ≤ room then
        (true, { text := sink.text ++ content, room := some (room - content.utf8ByteSize) })
      else
        let kept := String.ofList (fitting room content.toList)
        (false, { text := sink.text ++ kept, room := some (room - kept.utf8ByteSize) })

end Sink

end Stencil

namespace Stencil.Text

/-- The entity of a character that has a meaning in markup. -/
def entity? : Char → Option String
  | '&' => some "&amp;"
  | '<' => some "&lt;"
  | '>' => some "&gt;"
  | '"' => some "&quot;"
  | '\'' => some "&#39;"
  | _ => none

/-- What is written at once of an escaped text. -/
inductive Chunk where
  /-- The characters between two places of the text, which are numbers of bytes before them. -/
  | slice (start stop : String.Pos.Raw)
  | entity (spelling : String)
  deriving DecidableEq, Repr

def Chunk.text (content : String) : Chunk → String
  | .slice start stop => start.extract content stop
  | .entity spelling => spelling

/-- The chunks of a text from `start` on, where the characters before `place` have been looked at
and stay. -/
def chunksFrom (content : String) (start place : String.Pos.Raw) : List Char → List Chunk
  | [] => [.slice start content.rawEndPos]
  | character :: rest =>
      match entity? character with
      | some entity =>
          -- a character that has an entity is one byte wide
          .slice start place :: .entity entity ::
            chunksFrom content place.inc (place + character) rest
      | none => chunksFrom content start (place + character) rest

def chunks (content : String) : List Chunk :=
  chunksFrom content 0 0 content.toList

/-- The parts of an escaped text, in order. -/
def escape (content : String) : List String :=
  (chunks content).map (Chunk.text content)

end Stencil.Text
