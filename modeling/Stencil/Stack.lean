import Stencil.Data
import Stencil.Path

/-!
# Data in scope while rendering

Inside of loops a name may refer to a current element or to what a loop tells about it; everything
else is looked up in the data the template is rendered on.  A value that is missing or null stops
the rendering unless its segment may be absent.
-/

namespace Stencil

/-- Why data does not fit the schema of a template. -/
inductive Violation where
  /-- A path leaves more loops than are running. -/
  | tooManyHops (hops depth : Nat)
  | emptyPath
  /-- No value under the first segments of a path, which are given as they are written. -/
  | missing (written : String)
  /-- What a loop tells about its element has no fields. -/
  | metadataField (name : String)
  | notScalar
  | notList
  /-- What a loop tells about its element is no list. -/
  | metadataList
  deriving DecidableEq, Repr

def Violation.reason : Violation → String
  | .tooManyHops hops depth => toString hops ++ " hop(s) from depth " ++ toString depth
  | .emptyPath => "empty path"
  | .missing written => "`" ++ written ++ "` is missing"
  | .metadataField name => "loop metadata has no field `" ++ name ++ "`"
  | .notScalar => "expected a scalar"
  | .notList => "expected a list"
  | .metadataList => "loop metadata is not a list"

/-- A loop that is running. -/
structure Frame (δ : Type) where
  binding : String
  /-- The current element. -/
  element : δ
  /-- Its index, from 0. -/
  index : Nat
  /-- How many elements there are. -/
  length : Nat

/-- The data in scope. -/
structure Stack (δ : Type) where
  /-- The data the template is rendered on. -/
  root : δ
  /-- The running loops, innermost first. -/
  frames : List (Frame δ)

/-- What a path refers to while rendering. -/
inductive Found (δ : Type) where
  | value (data : δ)
  | index (number : Nat)
  | flag (holds : Bool)
  | absent

namespace Found

variable {δ : Type} [Data δ]

def ofOption : Option δ → Found δ
  | some data => .value data
  | none => .absent

def truthy : Found δ → Bool
  | .value data => Data.truthy data
  | .index number => number ≠ 0
  | .flag holds => holds
  | .absent => false

/-- Its text, if it is no list or object. -/
def text : Found δ → Option String
  | .value data => Data.text data
  | .index number => some (toString number)
  | .flag true => some "true"
  | .flag false => some "false"
  | .absent => some ""

/-- Counts null as absent, and absence as a violation unless the step allows for it. -/
def settle (reference : Reference) (position : Nat) (step : Step) (found : Found δ) :
    Except Violation (Found δ) :=
  let absent :=
    if step.optional then .ok .absent
    else .error (.missing (reference.path.textUpTo (position + 1)))
  match found with
  | .value data => if Data.isNull data then absent else .ok (.value data)
  | .absent => absent
  | other => .ok other

/-- Follows the steps of a reference from position `position` on.  Below something absent
everything is absent. -/
def follow (reference : Reference) (position : Nat) (found : Found δ) :
    List Step → Except Violation (Found δ)
  | [] => .ok found
  | step :: rest =>
      match found with
      | .absent => .ok .absent
      | .value data =>
          match settle reference position step (.ofOption (Data.child data step.name)) with
          | .error violation => .error violation
          | .ok next => follow reference (position + 1) next rest
      | _ => .error (.metadataField step.name)

end Found

namespace Frame

variable {δ : Type}

/-- What a running loop tells about its current element. -/
def metadata (frame : Frame δ) : Metadata → Found δ
  | .index => .index frame.index
  | .first => .flag (frame.index = 0)
  | .last => .flag (frame.index + 1 = frame.length)

end Frame

namespace Stack

variable {δ : Type} [Data δ]

/-- The data a template is rendered on, outside of all loops. -/
def ofRoot (root : δ) : Stack δ :=
  { root, frames := [] }

/-- The scope of one element of a loop. -/
def enter (stack : Stack δ) (binding : String) (element : δ) (index length : Nat) : Stack δ :=
  { stack with frames := { binding, element, index, length } :: stack.frames }

/-- What a name refers to inside of running loops. -/
def findIn (root : δ) (name : String) : List (Frame δ) → Found δ
  | [] => .ofOption (Data.child root name)
  | innermost :: outer =>
      if name = innermost.binding then .value innermost.element
      else
        match Metadata.ofName? name with
        | some metadata => innermost.metadata metadata
        | none => findIn root name outer

def resolve (stack : Stack δ) (reference : Reference) : Except Violation (Found δ) :=
  let depth := stack.frames.length
  if reference.hops > depth then .error (.tooManyHops reference.hops depth)
  else
    match reference.steps with
    | [] => .error .emptyPath
    | first :: rest =>
        let outside := stack.frames.drop reference.hops
        match Found.settle reference 0 first (findIn stack.root first.name outside) with
        | .error violation => .error violation
        | .ok found => Found.follow reference 1 found rest

end Stack

end Stencil
