import Stencil.Schema.Shape
import Stencil.Yaml.Reader

/-!
# Shape documents in YAML

A shape document may be written in YAML, as long as its values have a counterpart in JSON.  A key
counts by its text, and of two entries with the same key the later one stays.
-/

namespace Stencil

namespace Json

/-- A scalar as a JSON value.  What is no finite number is null. -/
def ofYamlScalar : Yaml → Option Json
  | .null => some .null
  | .bool value => some (.bool value)
  | .number (.integer value) => some (.number (.integer value))
  | .number (.float value) =>
      some (if value.isFinite then .number (.float value) else .null)
  | .string content => some (.string content)
  | _ => none

mutual

/-- A node as a JSON value.  There is none for local tags. -/
def ofYamlNode : Yaml.Node Empty → Option Json
  | .alias target => target.elim
  | .scalar properties style content =>
      (Yaml.ofNode (.scalar properties style content)).bind ofYamlScalar
  | .sequence properties items =>
      if (Yaml.localTag? properties.tag).isSome then none
      else (ofYamlItems items).map .array
  | .mapping properties entries =>
      if (Yaml.localTag? properties.tag).isSome then none
      else (ofYamlEntries [] entries).map .object

def ofYamlItems : List (Yaml.Node Empty) → Option (List Json)
  | [] => some []
  | item :: rest => do
      let head ← ofYamlNode item
      let values ← ofYamlItems rest
      return head :: values

/-- Entries as JSON values, added to those before them. -/
def ofYamlEntries (before : List (String × Json)) :
    List (Yaml.Node Empty × Yaml.Node Empty) → Option (List (String × Json))
  | [] => some before
  | (.scalar _ _ name, node) :: rest => do
      let value ← ofYamlNode node
      ofYamlEntries (Entries.insert name value before) rest
  | _ => none

end

def readYaml (text : String) : Option Json := do
  let document ← Yaml.Document.read text
  ofYamlNode (← document.expand)

end Json

def Schema.ofYamlText (text : String) : Except SchemaError Schema :=
  match Json.readYaml text with
  | none => .error .yaml
  | some shape => ofShape shape

end Stencil
