/-!
# Type errors

A type error tells that a path of a template does not fit the schema.  For a name that is not
declared, a declared name that is close to it is suggested.  The distance of two texts is the least
number of characters that have to be inserted, deleted or replaced to get from one to the other.
It is computed row by row: a row holds the distances of one beginning of the first text from every
beginning of the second.
-/

namespace Stencil.Text

/-- The rest of a row below `above`, when the entry to the left is `left` and the first text is
one `character` longer than for the row above. -/
def nextEntries (character : Char) (left : Nat) : List Char → List Nat → List Nat
  | other :: others, diagonal :: upper :: above =>
      let entry :=
        min (diagonal + if character = other then 0 else 1) (min (left + 1) (upper + 1))
      entry :: nextEntries character entry others (upper :: above)
  | _, _ => []

/-- The row below `above`. -/
def nextRow (character : Char) (target : List Char) (above : List Nat) : List Nat :=
  let left := above.headD 0 + 1
  left :: nextEntries character left target above

def distance (source target : List Char) : Nat :=
  let firstRow := List.range (target.length + 1)
  (source.foldl (fun above character => nextRow character target above) firstRow).getLastD 0

end Stencil.Text

namespace Stencil

/-- A path that does not fit the schema. -/
inductive TypeError where
  /-- A name is not declared where it is used; `available` lists those that are. -/
  | fieldNotFound (segment path : String) (available : List String)
  /-- A loop runs over something other than a list. -/
  | notIterable (path expected found : String)
  /-- Something other than a scalar is to be written. -/
  | notInterpolable (path found : String)
  /-- A path leaves more loops than there are. -/
  | navigationOutOfRange (path : String) (hops depth : Nat)
  deriving DecidableEq, Repr

namespace TypeError

def message : TypeError → String
  | .fieldNotFound segment path available =>
      "field `" ++ segment ++ "` not found in `" ++ path ++ "` (available: " ++
        ", ".intercalate available ++ ")"
  | .notIterable path expected found =>
      "`" ++ path ++ "` is not iterable: expected " ++ expected ++ ", found " ++ found
  | .notInterpolable path found =>
      "`" ++ path ++ "` cannot be interpolated: expected scalar, found " ++ found
  | .navigationOutOfRange path hops depth =>
      "`" ++ path ++ "` goes up " ++ toString hops ++ " scope(s) but only " ++ toString depth ++
        " enclosing loop(s) exist"

def listing (errors : List TypeError) : String :=
  toString errors.length ++ " type error(s)" ++
    String.join (errors.map fun error => "\n  " ++ error.message)

/-- The farthest a suggested name may be from the name that was not found. -/
def suggestionRange : Nat := 2

/-- The first of the nearest names, among those within range, with its distance. -/
def nearest? (segment : String) : List String → Option (Nat × String)
  | [] => none
  | name :: rest =>
      let distance := Text.distance segment.toList name.toList
      let later := nearest? segment rest
      if distance ≤ suggestionRange then
        match later with
        | some (best, found) =>
            if best < distance then some (best, found) else some (distance, name)
        | none => some (distance, name)
      else later

/-- The declared name that is closest to a name that was not found. -/
def suggestion : TypeError → Option String
  | .fieldNotFound segment _ available => (nearest? segment available).map Prod.snd
  | _ => none

end TypeError

end Stencil
