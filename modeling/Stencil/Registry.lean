import Stencil.Config
import Stencil.Live
import Stencil.Schema.Yaml
import Stencil.Text.Quoted

/-!
# Registries

A registry holds templates by name.  A template is either fixed or follows a file.  What fails to
be registered leaves the registry as it was.
-/

namespace Stencil

/-- Why something cannot be loaded. -/
inductive LoadError where
  | file (error : FileError)
  /-- The file of a shape document does not describe a schema. -/
  | schema (path : String) (error : SchemaError)
  /-- The text is not a configuration. -/
  | config

/-- The wording of an error, for errors whose wording is fixed. -/
def LoadError.message? : LoadError → Option String
  | .file error => some error.message
  | .schema path error => error.message?.map fun message => "schema " ++ path ++ ": " ++ message
  | .config => none

/-- What a name is registered with. -/
inductive Registration where
  | fixed (template : Template)
  | live (live : Live)

def Registration.current : Registration → Template
  | .fixed template => template
  | .live followed => followed.template

/-- Templates by name. -/
structure Registry where
  registrations : List (String × Registration)

namespace Registry

def empty : Registry :=
  { registrations := [] }

/-- Registers something under a name, instead of what was registered before. -/
def insert (name : String) (registration : Registration) (registry : Registry) : Registry :=
  { registrations := Entries.insert name registration registry.registrations }

def get? (registry : Registry) (name : String) : Option Template :=
  (Entries.find? name registry.registrations).map Registration.current

def names (registry : Registry) : List String :=
  Entries.names registry.registrations

def register (name source : String) (schema : Schema) (registry : Registry) :
    Except CompileError Registry :=
  match Template.compile source schema with
  | .error error => .error error
  | .ok template => .ok (registry.insert name (.fixed template))

/-- The error of a file whose template is registered under a name. -/
def nameError (name : String) : FileError → FileError
  | .unreadable path fault => .unreadable path fault
  | .invalid _ error => .invalid name error

/-- Registers the template of a file, which follows the file if it is watched. -/
def registerFile (name path : String) (schema : Schema) (isWatched : Bool) (files : Files)
    (registry : Registry) : Except FileError Registry :=
  match Live.start path schema files with
  | .error error => .error (nameError name error)
  | .ok live =>
      .ok (registry.insert name (if isWatched then .live live.watch else .fixed live.template))

def readSchema (path : String) (files : Files) : Except LoadError Schema :=
  match readFile path files with
  | .error error => .error (.file error)
  | .ok text =>
      match Schema.ofYamlText text with
      | .error error => .error (.schema path error)
      | .ok schema => .ok schema

/-- Registers an entry of a configuration whose paths are looked up below a folder. -/
def registerEntry (folder : String) (isWatched : Bool) (files : Files) (registry : Registry)
    (entry : TemplateEntry) : Except LoadError Registry :=
  match readSchema (joinPath folder entry.schema) files with
  | .error error => .error error
  | .ok schema =>
      let path := joinPath folder entry.path
      match registry.registerFile entry.name path schema isWatched files with
      | .error error => .error (.file error)
      | .ok registry => .ok registry

/-- The registry of the templates of a configuration, registered in order. -/
def ofConfig (config : Config) (folder : String) (files : Files) : Except LoadError Registry :=
  config.templates.foldlM (registerEntry folder config.hotReload files) empty

def render {δ : Type} [Data δ] (registry : Registry) (name : String) (data : δ) :
    Except RenderError String :=
  match registry.get? name with
  | none => .error (.unknownTemplate name)
  | some template => template.render data

/-- Polls a registration.  The result tells whether there is a new template. -/
def pollOne (files : Files) : Registration → Bool × Registration
  | .fixed template => (false, .fixed template)
  | .live followed =>
      let (isNew, polled) := followed.poll files
      (isNew, .live polled)

/-- Polls registrations and counts the new templates. -/
def pollAll (files : Files) : List (String × Registration) → Nat × List (String × Registration)
  | [] => (0, [])
  | (name, registration) :: rest =>
      let (isNew, polled) := pollOne files registration
      let (count, others) := pollAll files rest
      ((if isNew then 1 else 0) + count, (name, polled) :: others)

/-- Polls all live templates and counts the new ones. -/
def poll (files : Files) (registry : Registry) : Nat × Registry :=
  let (count, registrations) := pollAll files registry.registrations
  (count, { registrations })

def describe (registry : Registry) : String :=
  "TemplateMap \x7b templates: " ++ Text.quoteList registry.names ++ " \x7d"

end Registry

def Config.load (path : String) (files : Files) : Except LoadError Config :=
  match readFile path files with
  | .error error => .error (.file error)
  | .ok text =>
      match Config.read text with
      | none => .error .config
      | some config => .ok config

end Stencil
