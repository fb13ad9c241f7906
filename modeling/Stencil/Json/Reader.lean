import Stencil.Json.Lexeme

/-!
# Reading JSON values

The lexemes of a text are taken one after the other while the arrays and objects that are still
open are kept, innermost first.  There is a limit to how many may be open at once.  Of two entries
of an object with the same name the later one counts.
-/

namespace Stencil.Json

/-- An array or object that is still open. -/
inductive Container where
  /-- The items so far, in reverse order. -/
  | array (items : List Json)
  /-- The entries so far, and the name of the entry whose value is read. -/
  | object (entries : List (String × Json)) (name : String)

/-- What may come next.  The open containers are listed innermost first. -/
inductive Reading where
  /-- A value. -/
  | wantValue (inside : List Container)
  /-- The first item of an array, or its end. -/
  | wantItem (outside : List Container)
  /-- The first name in an object, or its end. -/
  | wantFirstName (outside : List Container)
  /-- Another name in an object with the given entries. -/
  | wantName (entries : List (String × Json)) (outside : List Container)
  /-- The colon behind a name. -/
  | wantColon (inside : List Container)
  /-- A comma or the end of the innermost container. -/
  | wantMore (innermost : Container) (outside : List Container)
  /-- Nothing: the value is complete. -/
  | done (value : Json)

namespace Reading

/-- A value is complete. -/
def complete (value : Json) : List Container → Reading
  | [] => .done value
  | .array items :: outside => .wantMore (.array (value :: items)) outside
  | .object entries name :: outside =>
      .wantMore (.object (Entries.insert name value entries) name) outside

/-- The innermost container is complete. -/
def close : Container → Json
  | .array items => .array items.reverse
  | .object entries _ => .object entries

/-- A value begins.  At most `depth` containers may be open. -/
def begin (depth : Nat) (inside : List Container) : Lexeme → Option Reading
  | .scalar value => some (complete value inside)
  | .string content => some (complete (.string content) inside)
  | .openArray => if inside.length < depth then some (.wantItem inside) else none
  | .openObject => if inside.length < depth then some (.wantFirstName inside) else none
  | _ => none

def step (depth : Nat) : Reading → Lexeme → Option Reading
  | .wantValue inside, lexeme => begin depth inside lexeme
  | .wantItem outside, .closeArray => some (complete (.array []) outside)
  | .wantItem outside, lexeme => begin depth (.array [] :: outside) lexeme
  | .wantFirstName outside, .closeObject => some (complete (.object []) outside)
  | .wantFirstName outside, .string name => some (.wantColon (.object [] name :: outside))
  | .wantName entries outside, .string name => some (.wantColon (.object entries name :: outside))
  | .wantColon inside, .colon => some (.wantValue inside)
  | .wantMore (.array items) outside, .comma => some (.wantValue (.array items :: outside))
  | .wantMore (.object entries _) outside, .comma => some (.wantName entries outside)
  | .wantMore (.array items) outside, .closeArray => some (complete (close (.array items)) outside)
  | .wantMore (.object entries name) outside, .closeObject =>
      some (complete (close (.object entries name)) outside)
  | _, _ => none

def steps (depth : Nat) (reading : Reading) : List Lexeme → Option Reading
  | [] => some reading
  | lexeme :: rest =>
      match reading.step depth lexeme with
      | none => none
      | some next => next.steps depth rest

end Reading

/-- Reads a text with at most `depth` containers in each other. -/
def readNested (depth : Nat) (text : String) : Option Json := do
  match Reading.steps depth (.wantValue []) (← lexemes text.toList) with
  | some (.done value) => some value
  | _ => none

/-- Reads a text; values nest at most 127 levels deep. -/
def read (text : String) : Option Json :=
  readNested 127 text

end Stencil.Json
