/-!
# Paths and names

A path names a value of the data: it may step out of enclosing loops and then follows fields.  A
reference is a path of a checked template.  Each of its segments carries a mark that tells whether
the schema lets the value at this segment be absent.

Besides its binding a loop offers the index of the current element and whether that element is the
first or the last.  These names are reserved: no binding may take them.
-/

namespace Stencil

/-- A dotted path, behind a number of steps out of enclosing loops. -/
structure Path where
  /-- How many enclosing loops are left before the first segment is looked up. -/
  hops : Nat
  /-- The names, first to last. -/
  segments : List String
  deriving DecidableEq, Repr

namespace Path

/-- The steps out of loops as they are written. -/
def writtenHops : Nat → String
  | 0 => ""
  | hops + 1 => "../" ++ writtenHops hops

/-- Segments as they are written, each behind a dot. -/
def dotted : List String → String
  | [] => ""
  | segment :: rest => "." ++ segment ++ dotted rest

/-- A path as it is written; behind steps out of loops the first dot is left out. -/
def write : Nat → List String → String
  | 0, segments => dotted segments
  | hops + 1, [] => writtenHops (hops + 1)
  | hops + 1, segment :: rest => writtenHops (hops + 1) ++ segment ++ dotted rest

/-- The written form of a path that ends after its first `count` segments. -/
def textUpTo (path : Path) (count : Nat) : String :=
  write path.hops (path.segments.take count)

def text (path : Path) : String :=
  write path.hops path.segments

end Path

/-- A marked segment. -/
structure Step where
  name : String
  /-- Whether the value may be absent. -/
  optional : Bool
  deriving DecidableEq, Repr

/-- A path with marked segments. -/
structure Reference where
  hops : Nat
  steps : List Step
  deriving DecidableEq, Repr

/-- The path without its marks. -/
def Reference.path (reference : Reference) : Path :=
  { hops := reference.hops, segments := reference.steps.map Step.name }

/-- Marks the segments of a path, first to last; segments without a mark count as required. -/
def Step.markAll : List String → List Bool → List Step
  | [], _ => []
  | name :: names, [] => { name, optional := false } :: markAll names []
  | name :: names, mark :: marks => { name, optional := mark } :: markAll names marks

def Path.mark (path : Path) (marks : List Bool) : Reference :=
  { hops := path.hops, steps := Step.markAll path.segments marks }

/-- What a loop tells about its current element. -/
inductive Metadata where
  | index
  | first
  | last
  deriving DecidableEq, Repr

namespace Metadata

def all : List Metadata :=
  [.index, .first, .last]

def name : Metadata → String
  | .index => "index"
  | .first => "first"
  | .last => "last"

/-- The metadata a name stands for, if the name is reserved. -/
def ofName? (name : String) : Option Metadata :=
  all.find? fun metadata => metadata.name = name

def isReserved (name : String) : Bool :=
  (ofName? name).isSome

end Metadata

end Stencil
