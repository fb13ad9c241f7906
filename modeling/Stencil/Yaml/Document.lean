import Stencil.Yaml.Node
import Stencil.Yaml.Node.Reader

/-!
# Documents

A text holds one document, with or without a marker at its start.  Its aliases can be replaced by
what they stand for, within limits: collections nest at most 128 levels, and aliases are followed
at most a hundred times as often as the document has events.
-/

namespace Stencil.Yaml

/-- A document. -/
structure Document where
  root : Node Nat
  /-- What the numbers of anchors stand for, later definitions first. -/
  definitions : List (Nat × Node Nat)

/-- What handles stand for unless a directive tells. -/
def Handles.standard : Handles :=
  [("!", .ofString "!"), ("!!", .ofString "tag:yaml.org,2002:")]

/-- Reads directives.  There is at most one version, which must be 1.1 or 1.2, and one meaning of a
handle. -/
def readDirectives (hasVersion : Bool) (handles : Handles) :
    List Lexeme → Option (Handles × List Lexeme)
  | .versionDirective major minor :: rest =>
      if hasVersion || major ≠ 1 || !(minor = 1 || minor = 2) then none
      else readDirectives true handles rest
  | .tagDirective handle replacement :: rest =>
      if (handles.lookup handle).isSome then none
      else readDirectives hasVersion ((handle, replacement) :: handles) rest
  | rest => some (handles ++ .standard, rest)

/-- Whether a document ends before it has any content. -/
def endsDocument : List Lexeme → Bool
  | [] => true
  | .versionDirective _ _ :: _ => true
  | .tagDirective _ _ :: _ => true
  | .documentStart :: _ => true
  | .documentEnd :: _ => true
  | _ => false

namespace Node

def readRoot (lexemes : List Lexeme) : Option (Node String × List Lexeme) := do
  let (handles, behind) ← readDirectives false [] lexemes
  let calls := 3 * lexemes.length + 3
  match behind with
  | .documentStart :: content =>
      if endsDocument content then return (absent, content)
      else read handles .block calls content
  | _ =>
      if behind.length = lexemes.length then read handles .block calls lexemes
      else none

/-- The root of the only document of a text.  A text without a document has an empty one. -/
def ofLexemes? (lexemes : List Lexeme) : Option (Node String) :=
  if lexemes.isEmpty then some absent
  else
    (readRoot lexemes).bind fun (root, rest) =>
      if rest.all (· = .documentEnd) then some root else none

end Node

namespace Document

/-- The document of a text, if the text can be read. -/
def read (text : String) : Option Document := do
  let lexemes ← Lexeme.ofText? text
  let root ← Node.ofLexemes? lexemes
  let (root, _) ← root.number []
  return { root, definitions := root.definitions.reverse }

/-- What a node is, which is another node in the case of an alias. -/
def follow (document : Document) : Node Nat → Option (Node Nat)
  | .alias target => document.definitions.lookup target
  | node => some node

/-- How often aliases may be followed. -/
def followLimit (document : Document) : Nat :=
  document.root.size * 100

end Document

/-- Replacing aliases, counting how often aliases may still be followed. -/
abbrev Expansion := StateT Nat Option

namespace Node

/-- The properties of a node that no alias can refer to. -/
def withoutAnchor (properties : Properties Nat) : Properties Empty :=
  { anchor := none, tag := properties.tag }

/-- Follows an alias. -/
def expandAlias (document : Document) : Node Nat → Expansion (Node Nat)
  | .alias target => fun remaining =>
      match remaining with
      | 0 => none
      | remaining + 1 => (document.follow (.alias target)).map fun node => (node, remaining)
  | node => pure node

/-- A node with its aliases replaced, its collections nested at most `depth` levels. -/
def expand (document : Document) (depth : Nat) (node : Node Nat) : Expansion (Node Empty) := do
  match ← expandAlias document node, depth with
  | .scalar properties style content, _ =>
      return .scalar (withoutAnchor properties) style content
  | .sequence properties items, depth + 1 =>
      return .sequence (withoutAnchor properties) (← items.mapM (expand document depth))
  | .mapping properties entries, depth + 1 =>
      let entries ← entries.mapM fun (key, value) => do
        return (← expand document depth key, ← expand document depth value)
      return .mapping (withoutAnchor properties) entries
  | _, _ => failure

end Node

/-- The root of a document with its aliases replaced. -/
def Document.expand (document : Document) : Option (Node Empty) :=
  (Node.expand document 128 document.root document.followLimit).map Prod.fst

end Stencil.Yaml
