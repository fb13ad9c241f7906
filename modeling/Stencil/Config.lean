import Stencil.Yaml.Document.Content

/-!
# Configurations

A configuration names the environment, how often files are looked at, and the templates to load.
It is written in YAML.  What it does not mention has a default; what it mentions besides is ignored.
-/

namespace Stencil

/-- What templates are used for. -/
inductive Environment where
  | development
  | staging
  | production
  deriving DecidableEq, Repr

namespace Environment

def name : Environment → String
  | .development => "development"
  | .staging => "staging"
  | .production => "production"

def ofName? (written : String) : Option Environment :=
  [development, staging, production].find? fun environment => environment.name = written

end Environment

/-- A template to load. -/
structure TemplateEntry where
  name : String
  /-- The file of its text. -/
  path : String
  /-- The file of its shape document. -/
  schema : String
  deriving DecidableEq, Repr

/-- A configuration. -/
structure Config where
  environment : Environment
  /-- How many milliseconds pass between two looks at a file. -/
  interval : Nat
  templates : List TemplateEntry
  deriving DecidableEq, Repr

namespace Config

def standard : Config :=
  { environment := .production, interval := 500, templates := [] }

/-- Whether files are watched for changes. -/
def hotReload (config : Config) : Bool :=
  config.environment = .development

end Config

namespace TemplateEntry

/-- Reads the text of the entry of a name, which must not be missing. -/
def readText (document : Yaml.Document) (name : String) (entries : List (String × Yaml.Node Nat)) :
    Yaml.Expansion String := do
  match Yaml.findSingle name entries with
  | some (some node) => document.scalarText node
  | _ => failure

/-- Reads an entry of the list of templates.  Nothing of it may be missing. -/
def read (document : Yaml.Document) (node : Yaml.Node Nat) : Yaml.Expansion TemplateEntry := do
  let entries ← document.entries node
  let name ← readText document "name" entries
  let path ← readText document "path" entries
  let schema ← readText document "schema" entries
  return { name, path, schema }

end TemplateEntry

namespace Config

def readEnvironment (document : Yaml.Document) (node : Yaml.Node Nat) :
    Yaml.Expansion Environment := do
  liftM (Environment.ofName? (← document.choice node))

/-- Reads the interval, which must not be zero. -/
def readInterval (document : Yaml.Document) (node : Yaml.Node Nat) : Yaml.Expansion Nat := do
  let entries ← document.entries node
  Yaml.readSingle "interval_ms" entries standard.interval fun value => do
    let interval ← document.natural value
    if interval = 0 then failure else return interval

def readTemplates (document : Yaml.Document) (node : Yaml.Node Nat) :
    Yaml.Expansion (List TemplateEntry) := do
  let items ← document.items node
  items.mapM (TemplateEntry.read document)

def readDocument (document : Yaml.Document) : Yaml.Expansion Config := do
  let entries ← document.entries document.root
  let environment ←
    Yaml.readSingle "environment" entries standard.environment (readEnvironment document)
  let interval ← Yaml.readSingle "reload" entries standard.interval (readInterval document)
  let templates ← Yaml.readSingle "templates" entries standard.templates (readTemplates document)
  return { environment, interval, templates }

def ofDocument? (document : Yaml.Document) : Option Config :=
  (readDocument document).run' document.followLimit

def read (text : String) : Option Config :=
  (Yaml.Document.read text).bind ofDocument?

end Config

end Stencil
