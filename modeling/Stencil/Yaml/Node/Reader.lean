import Stencil.Yaml.Lexeme.Reader
import Stencil.Yaml.Node

/-!
# Reading nodes

A node is read from lexemes by recursive descent.  Where a node is expected but nothing stands there
is an empty scalar.  The readers are bounded by a number of calls; one call out of three at least
reads a lexeme.
-/

namespace Stencil.Yaml

/-- What the handles of tags stand for. -/
abbrev Handles := List (String × TagOctets)

/-- A tag in full, if its handle stands for something. -/
def Handles.expand? (handles : Handles) (handle : String) (suffix : TagOctets) :
    Option TagOctets :=
  if handle.isEmpty then some suffix
  else (handles.lookup handle).map fun replacement => replacement ++ suffix

/-- Reads an anchor and a tag, in either order; both may be missing. -/
def readProperties (handles : Handles) :
    List Lexeme → Option (Properties String × List Lexeme)
  | .anchor name :: .tag handle suffix :: rest =>
      (handles.expand? handle suffix).map fun tag =>
        ({ anchor := some name, tag := some tag }, rest)
  | .anchor name :: rest => some ({ anchor := some name, tag := none }, rest)
  | .tag handle suffix :: .anchor name :: rest =>
      (handles.expand? handle suffix).map fun tag =>
        ({ anchor := some name, tag := some tag }, rest)
  | .tag handle suffix :: rest =>
      (handles.expand? handle suffix).map fun tag => ({ anchor := none, tag := some tag }, rest)
  | rest => some ({ anchor := none, tag := none }, rest)

/-- Where a node stands. -/
inductive Place where
  | flow
  | block
  /-- As a key or a value of a block mapping, where the items of a sequence need no further
  indentation. -/
  | blockMapping
  deriving DecidableEq, Repr

def atLexeme (expected : List Lexeme) : List Lexeme → Bool
  | [] => false
  | lexeme :: _ => expected.contains lexeme

/-- What stands between the items of a flow collection that ends with `last` is passed over; there
is nothing to pass over before the first item and at the end. -/
def passFlowEntry (isFirst : Bool) (last : Lexeme) (lexemes : List Lexeme) : Option (List Lexeme) :=
  if isFirst || atLexeme [last] lexemes then some lexemes
  else if atLexeme [.flowEntry] lexemes then some (lexemes.drop 1)
  else none

namespace Node

mutual

def read (handles : Handles) (place : Place) :
    Nat → List Lexeme → Option (Node String × List Lexeme)
  | 0, _ => none
  | _ + 1, .alias name :: rest => some (.alias name, rest)
  | calls + 1, lexemes => do
      let (properties, content) ← readProperties handles lexemes
      let withoutContent :=
        if properties.anchor.isSome || properties.tag.isSome then some (.empty properties, content)
        else none
      match content with
      | .scalar text style :: rest => return (.scalar properties style text, rest)
      | .flowSequenceStart :: behind =>
          let (items, rest) ← readFlowItems handles true calls behind
          return (.sequence properties items, rest)
      | .flowMappingStart :: behind =>
          let (entries, rest) ← readFlowEntries handles true calls behind
          return (.mapping properties entries, rest)
      | .blockSequenceStart :: behind =>
          if place = .flow then withoutContent
          else
            let (items, rest) ← readBlockItems handles calls behind
            return (.sequence properties items, rest)
      | .blockMappingStart :: behind =>
          if place = .flow then withoutContent
          else
            let (entries, rest) ← readBlockEntries handles calls behind
            return (.mapping properties entries, rest)
      | .blockEntry :: _ =>
          if place = .blockMapping then
            let (items, rest) ← readIndentless handles calls content
            return (.sequence properties items, rest)
          else withoutContent
      | _ => withoutContent

/-- Reads a node unless one of the given lexemes follows. -/
def readUnless (handles : Handles) (place : Place) (ends : List Lexeme) :
    Nat → List Lexeme → Option (Node String × List Lexeme)
  | 0, _ => none
  | calls + 1, lexemes =>
      if atLexeme ends lexemes then some (absent, lexemes)
      else read handles place calls lexemes

/-- Reads the value of an entry, which may be missing. -/
def readValue (handles : Handles) (place : Place) (ends : List Lexeme) :
    Nat → List Lexeme → Option (Node String × List Lexeme)
  | 0, _ => none
  | calls + 1, .value :: behind => readUnless handles place ends calls behind
  | _ + 1, lexemes => some (absent, lexemes)

/-- Reads the items of a sequence that is not indented further than the mapping it stands in. -/
def readIndentless (handles : Handles) :
    Nat → List Lexeme → Option (List (Node String) × List Lexeme)
  | 0, _ => none
  | calls + 1, .blockEntry :: behind => do
      let (item, behindItem) ←
        readUnless handles .block [.blockEntry, .key, .value, .blockEnd] calls behind
      let (items, rest) ← readIndentless handles calls behindItem
      return (item :: items, rest)
  | _ + 1, lexemes => some ([], lexemes)

/-- Reads the items of a block sequence up to its end. -/
def readBlockItems (handles : Handles) :
    Nat → List Lexeme → Option (List (Node String) × List Lexeme)
  | 0, _ => none
  | calls + 1, .blockEntry :: behind => do
      let (item, behindItem) ← readUnless handles .block [.blockEntry, .blockEnd] calls behind
      let (items, rest) ← readBlockItems handles calls behindItem
      return (item :: items, rest)
  | _ + 1, .blockEnd :: rest => some ([], rest)
  | _ + 1, _ => none

/-- Reads the entries of a block mapping up to its end. -/
def readBlockEntries (handles : Handles) :
    Nat → List Lexeme → Option (List (Node String × Node String) × List Lexeme)
  | 0, _ => none
  | calls + 1, .key :: behind => do
      let ends := [.key, .value, .blockEnd]
      let (key, behindKey) ← readUnless handles .blockMapping ends calls behind
      let (value, behindValue) ← readValue handles .blockMapping ends calls behindKey
      let (entries, rest) ← readBlockEntries handles calls behindValue
      return ((key, value) :: entries, rest)
  | _ + 1, .blockEnd :: rest => some ([], rest)
  | _ + 1, _ => none

/-- Reads the items of a flow sequence up to its end.  An entry among them is a mapping of its own;
if its key is missing, the lexeme that shows this is passed over. -/
def readFlowItems (handles : Handles) (isFirst : Bool) :
    Nat → List Lexeme → Option (List (Node String) × List Lexeme)
  | 0, _ => none
  | calls + 1, lexemes => do
      match ← passFlowEntry isFirst .flowSequenceEnd lexemes with
      | .flowSequenceEnd :: rest => return ([], rest)
      | .key :: behind =>
          let (key, behindKey) ←
            if atLexeme [.value, .flowEntry, .flowSequenceEnd] behind then
              some (absent, behind.drop 1)
            else read handles .flow calls behind
          let (value, behindValue) ←
            readValue handles .flow [.flowEntry, .flowSequenceEnd] calls behindKey
          let (items, rest) ← readFlowItems handles false calls behindValue
          return (.mapping { anchor := none, tag := none } [(key, value)] :: items, rest)
      | item =>
          let (item, behindItem) ← read handles .flow calls item
          let (items, rest) ← readFlowItems handles false calls behindItem
          return (item :: items, rest)

/-- Reads the entries of a flow mapping up to its end.  What is not marked as a key has no value. -/
def readFlowEntries (handles : Handles) (isFirst : Bool) :
    Nat → List Lexeme → Option (List (Node String × Node String) × List Lexeme)
  | 0, _ => none
  | calls + 1, lexemes => do
      match ← passFlowEntry isFirst .flowMappingEnd lexemes with
      | .flowMappingEnd :: rest => return ([], rest)
      | .key :: behind =>
          let (key, behindKey) ←
            readUnless handles .flow [.value, .flowEntry, .flowMappingEnd] calls behind
          let (value, behindValue) ←
            readValue handles .flow [.flowEntry, .flowMappingEnd] calls behindKey
          let (entries, rest) ← readFlowEntries handles false calls behindValue
          return ((key, value) :: entries, rest)
      | item =>
          let (key, behindKey) ← read handles .flow calls item
          let (entries, rest) ← readFlowEntries handles false calls behindKey
          return ((key, absent) :: entries, rest)

end

end Node

end Stencil.Yaml
