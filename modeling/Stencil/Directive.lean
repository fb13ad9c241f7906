import Stencil.Path
import Stencil.Text.Basic
import Stencil.Text.Identifier

/-!
# Directives

A directive stands between an opening and a closing marker.  The text between value markers is a
path, perhaps behind an exclamation mark; the text between block markers is a keyword and what
belongs to it.  Reading such a text gives the directive or the first fault found in it.
-/

namespace Stencil

/-- A block of a template. -/
inductive BlockKind where
  /-- Repeats its body for each element of a list. -/
  | loop
  /-- Shows one of its branches. -/
  | conditional
  deriving DecidableEq, Repr

def BlockKind.keyword : BlockKind → String
  | .loop => "for"
  | .conditional => "if"

/-- What a directive asks for. -/
inductive Directive where
  /-- Write a value; `raw` leaves its special characters as they are. -/
  | variable (path : Path) (raw : Bool)
  /-- Open a loop over a list, whose elements get a name. -/
  | loop (path : Path) (binding : String)
  /-- Open a conditional. -/
  | conditional (path : Path)
  /-- Go over to the second branch of a conditional. -/
  | otherwise
  /-- Close a block. -/
  | close (kind : BlockKind)
  deriving DecidableEq, Repr

namespace Directive

/-- What is wrong with the text of a directive. -/
inductive Fault where
  | missingPath
  | invalidPath (written : String)
  | missingBinding
  | malformedBinding (written : String)
  | invalidBinding (name : String)
  | reservedBinding (name : String)
  | missingKeyword
  | unknownBlock (keyword : String)
  | unexpected (rest keyword : String)
  deriving DecidableEq, Repr

def Fault.reason : Fault → String
  | .missingPath => "missing path"
  | .invalidPath written => "invalid path `" ++ written ++ "`"
  | .missingBinding => "missing loop binding `|name|`"
  | .malformedBinding written => "malformed loop binding `" ++ written ++ "`"
  | .invalidBinding name => "invalid loop binding `" ++ name ++ "`"
  | .reservedBinding name => "`" ++ name ++ "` is reserved inside loops"
  | .missingKeyword => "missing block keyword"
  | .unknownBlock keyword => "unknown block `" ++ keyword ++ "`"
  | .unexpected rest keyword => "unexpected `" ++ rest ++ "` after " ++ keyword

theorem length_trimStart_le (characters : List Char) :
    (Text.trimStart characters).length ≤ characters.length :=
  (List.dropWhile_suffix Text.isBlank).length_le

/-- Counts the steps `../` a path starts with and drops them, with the blanks behind each. -/
def splitHops (characters : List Char) : Nat × List Char :=
  match characters with
  | '.' :: '.' :: '/' :: rest =>
      let (hops, remaining) := splitHops (Text.trimStart rest)
      (hops + 1, remaining)
  | other => (0, other)
termination_by characters.length
decreasing_by
  have shorter := length_trimStart_le rest
  simp only [List.length_cons]
  omega

/-- Drops one dot at the start, if there is one. -/
def dropDot : List Char → List Char
  | '.' :: rest => rest
  | other => other

/-- Reads a path: steps out of loops, a dot that may be left out, and identifiers between dots.
Blanks may surround every part. -/
def readPath (characters : List Char) : Except Fault Path :=
  let trimmed := Text.trim characters
  let (hops, remaining) := splitHops trimmed
  let body := dropDot remaining
  if (Text.trim body).isEmpty then .error .missingPath
  else
    let segments := (Text.splitAt '.' body).map Text.trim
    if segments.all Text.isIdentifier then
      .ok { hops, segments := segments.map String.ofList }
    else .error (.invalidPath (String.ofList trimmed))

/-- What stands between a bar at the start and a bar at the end. -/
def betweenBars : List Char → Option (List Char)
  | '|' :: rest => if rest.getLast? = some '|' then some rest.dropLast else none
  | _ => none

/-- Reads the binding of a loop, an identifier between bars that no loop reserves. -/
def readBinding (characters : List Char) : Except Fault String :=
  let trimmed := Text.trim characters
  match betweenBars trimmed with
  | none => .error (.malformedBinding (String.ofList trimmed))
  | some inner =>
      let identifier := Text.trim inner
      let name := String.ofList identifier
      if !Text.isIdentifier identifier then .error (.invalidBinding name)
      else if Metadata.isReserved name then .error (.reservedBinding name)
      else .ok name

/-- The first words of block directives. -/
inductive Keyword where
  | open (kind : BlockKind)
  | otherwise
  | close (kind : BlockKind)
  deriving DecidableEq, Repr

def Keyword.written : Keyword → String
  | .open kind => kind.keyword
  | .otherwise => "else"
  | .close kind => "end" ++ kind.keyword

/-- The keyword a word is, if it is one. -/
def Keyword.ofWord? (word : String) : Option Keyword :=
  [.open .loop, .open .conditional, .otherwise, .close .loop, .close .conditional].find?
    fun keyword => keyword.written = word

/-- Whether a character ends the keyword of a block directive. -/
def endsKeyword (character : Char) : Bool :=
  Text.isBlank character || character = '.' || character = '|'

/-- Reads what follows the keyword of a loop: the path up to the first bar, then the binding. -/
def readLoop (rest : List Char) : Except Fault Directive :=
  let beforeBar := rest.takeWhile (· ≠ '|')
  let fromBar := rest.dropWhile (· ≠ '|')
  if fromBar.isEmpty then .error .missingBinding
  else do
    let path ← readPath beforeBar
    let binding ← readBinding fromBar
    return .loop path binding

/-- A directive that is complete with its keyword. -/
def readBare (directive : Directive) (rest : List Char) (word : String) :
    Except Fault Directive :=
  if rest.isEmpty then .ok directive
  else .error (.unexpected (String.ofList rest) word)

def readBlock (inner : List Char) : Except Fault Directive :=
  let trimmed := Text.trim inner
  let word := String.ofList (trimmed.takeWhile fun character => !endsKeyword character)
  let rest := Text.trim (trimmed.dropWhile fun character => !endsKeyword character)
  match Keyword.ofWord? word with
  | some (.open .loop) => readLoop rest
  | some (.open .conditional) => (readPath rest).map .conditional
  | some .otherwise => readBare .otherwise rest word
  | some (.close kind) => readBare (.close kind) rest word
  | none =>
      if word = "" then .error .missingKeyword
      else .error (.unknownBlock word)

def readValue (inner : List Char) : Except Fault Directive :=
  match Text.trimStart inner with
  | '!' :: rest => (readPath rest).map (.variable · true)
  | _ => (readPath inner).map (.variable · false)

end Directive

end Stencil
