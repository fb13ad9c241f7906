import Stencil.Data.Json
import Stencil.Data.Yaml
import Stencil.Proofs.Lookup
import Stencil.Proofs.Translation
import Stencil.Tree

/-!
# One value in all formats

A value that every data format can hold is put together in each of them; only YAML keeps its tags.
Templates render the same for all that comes out.
-/

namespace Stencil

/-- A value that every data format can hold.  Of two entries of a mapping with the same name the
later one counts, and any value may have a tag, also one that has a tag already. -/
inductive Value where
  | null
  | bool (value : Bool)
  | integer (value : Int64)
  | string (content : String)
  | list (items : List Value)
  | mapping (entries : List (String × Value))
  | tagged (tag : String) (value : Value)

/-- How values are put together in a data format. -/
structure Format (δ : Type) where
  null : δ
  bool : Bool → δ
  integer : Int64 → δ
  string : String → δ
  list : List δ → δ
  mapping : List (String × δ) → δ
  tagged : String → δ → δ

/-- JSON values have no tags. -/
def Json.format : Format Json where
  null := .null
  bool := .bool
  integer value := .number (.integer value.toInt)
  string := .string
  list := .array
  mapping entries := .object (Entries.ofList entries)
  tagged _ value := value

def Yaml.format : Format Yaml where
  null := .null
  bool := .bool
  integer value := .number (.integer value.toInt)
  string := .string
  list := .sequence
  mapping entries := .ofEntries (entries.map fun entry => (.string entry.1, entry.2))
  tagged := .tagged

/-- Data trees have no tags. -/
def Tree.format : Format Tree where
  null := .null
  bool := .bool
  integer value := .integer value.toInt
  string := .string
  list := .sequence
  mapping := .ofEntries
  tagged _ value := value

namespace Value

mutual

def build {δ : Type} (format : Format δ) : Value → δ
  | .null => format.null
  | .bool value => format.bool value
  | .integer value => format.integer value
  | .string content => format.string content
  | .list items => format.list (buildAll format items)
  | .mapping entries => format.mapping (buildEntries format entries)
  | .tagged tag value => format.tagged tag (build format value)

def buildAll {δ : Type} (format : Format δ) : List Value → List δ
  | [] => []
  | item :: rest => build format item :: buildAll format rest

def buildEntries {δ : Type} (format : Format δ) : List (String × Value) → List (String × δ)
  | [] => []
  | (name, value) :: rest => (name, build format value) :: buildEntries format rest

end

def child (value : Value) (name : String) : Option Value :=
  match value with
  | .mapping entries => Entries.find? name (Entries.ofList entries)
  | .tagged _ content => content.child name
  | _ => none

def children : Value → Option (List Value)
  | .list items => some items
  | .tagged _ content => content.children
  | _ => none

def text : Value → Option String
  | .bool true => some "true"
  | .bool false => some "false"
  | .integer value => some (toString value.toInt)
  | .string content => some content
  | .tagged _ content => content.text
  | _ => none

def truthy : Value → Bool
  | .null => false
  | .bool value => value
  | .integer value => value.toInt ≠ 0
  | .string content => !content.isEmpty
  | .list items => !items.isEmpty
  | .mapping _ => true
  | .tagged _ content => content.truthy

def isNull : Value → Bool
  | .null => true
  | .tagged _ content => content.isNull
  | _ => false

instance : Data Value where
  child := child
  children := children
  text := text
  truthy := truthy
  isNull := isNull

theorem buildAll_eq_map {δ : Type} (format : Format δ) (items : List Value) :
    buildAll format items = items.map (build format) := by
  induction items with
  | nil => rw [buildAll, List.map_nil]
  | cons item rest induction => rw [buildAll, induction, List.map_cons]

theorem buildEntries_eq_map {δ : Type} (format : Format δ) (entries : List (String × Value)) :
    buildEntries format entries = entries.map fun entry => (entry.1, build format entry.2) := by
  induction entries with
  | nil => rw [buildEntries, List.map_nil]
  | cons entry rest induction => rw [buildEntries, induction, List.map_cons]

end Value

/-- Any way to collect entries under names in which the latest entry of a name is found comes to
what is found in the entries by name. -/
theorem Entries.look_foldl
    {α β σ : Type} (change : α → β) (name : String) {look : σ → Option β}
    {put : σ → String × α → σ}
    (latest : ∀ collected pair,
      look (put collected pair) = if name = pair.1 then some (change pair.2) else look collected)
    (pairs : List (String × α)) {collected : σ} {entries : List (String × α)}
    (same : look collected = (find? name entries).map change) :
    look (pairs.foldl put collected) =
      (find? name
        (pairs.foldl (fun entries pair => insert pair.1 pair.2 entries) entries)).map change := by
  induction pairs generalizing collected entries with
  | nil => exact same
  | cons pair rest induction =>
      rw [List.foldl_cons, List.foldl_cons]
      apply induction
      rw [latest, find?_insert, same]
      split <;> rfl

theorem Entries.find?_ofList_map
    {α β : Type} (change : α → β) (name : String) (pairs : List (String × α)) :
    find? name (ofList (pairs.map fun pair => (pair.1, change pair.2))) =
      (find? name (ofList pairs)).map change := by
  rw [ofList, List.foldl_map]
  apply look_foldl change name
  · intro collected pair
    exact find?_insert pair.1 name (change pair.2) collected
  · rfl

theorem Yaml.find?_insert_string
    (name other : String) (value : Yaml) (entries : List (Yaml × Yaml)) :
    find? (.string other) (insert (.string name) value entries) =
      if other = name then some value else find? (.string other) entries := by
  induction entries with
  | nil => simp [insert, find?, isSame]
  | cons entry rest induction =>
      obtain ⟨head, old⟩ := entry
      unfold insert
      by_cases same : isSame (.string name) head = true
      · -- Only a string is the same key as a string.
        cases head with
        | string key =>
            obtain rfl : name = key := by simpa [isSame] using same
            by_cases found : other = name <;> simp [find?, isSame, found]
        | null | bool _ | number _ | sequence _ | mapping _ | tagged _ _ =>
            simp [isSame] at same
      · rw [if_neg same, find?, find?, induction]
        by_cases found : other = name
        · subst found
          simp [same]
        · rw [if_neg found, if_neg found]

theorem Yaml.child_ofEntries (name : String) (pairs : List (String × Yaml)) :
    (Yaml.ofEntries (pairs.map fun pair => (.string pair.1, pair.2))).child name =
      Entries.find? name (Entries.ofList pairs) := by
  have found : (Yaml.ofEntries (pairs.map fun pair => (.string pair.1, pair.2))).child name =
      (Entries.find? name (Entries.ofList pairs)).map id := by
    rw [ofEntries, child, List.foldl_map]
    apply Entries.look_foldl id name
    · intro collected pair
      exact find?_insert_string pair.1 name pair.2 collected
    · rfl
  rwa [Option.map_id] at found

def Answers.leaf {δ : Type} (text : Option String) (truthy isNull : Bool) : Answers δ where
  child _ := none
  children := none
  text := text
  truthy := truthy
  isNull := isNull

/-- What values answer that are put together in a format. -/
structure Format.Lawful {δ : Type} [Data δ] (format : Format δ) : Prop where
  null : Data.answers format.null = .leaf none false true
  bool (value : Bool) :
    Data.answers (format.bool value) = .leaf (some (if value then "true" else "false")) value false
  integer (value : Int64) :
    Data.answers (format.integer value) =
      .leaf (some (toString value.toInt)) (value.toInt ≠ 0) false
  string (content : String) :
    Data.answers (format.string content) = .leaf (some content) (!content.isEmpty) false
  list (items : List δ) :
    Data.answers (format.list items) =
      { child := fun _ => none, children := some items, text := none,
        truthy := !items.isEmpty, isNull := false }
  mapping (entries : List (String × δ)) :
    Data.answers (format.mapping entries) =
      { child := fun name => Entries.find? name (Entries.ofList entries), children := none,
        text := none, truthy := true, isNull := false }
  tagged (tag : String) (value : δ) : Data.answers (format.tagged tag value) = Data.answers value

theorem Json.lawful_format : Json.format.Lawful where
  null := rfl
  bool value := by cases value <;> rfl
  integer value := Answers.ext rfl rfl rfl decide_not.symm rfl
  string _ := rfl
  list _ := rfl
  mapping _ := rfl
  tagged _ _ := rfl

theorem Yaml.lawful_format : Yaml.format.Lawful where
  null := rfl
  bool value := by cases value <;> rfl
  integer value := Answers.ext rfl rfl rfl decide_not.symm rfl
  string _ := rfl
  list _ := rfl
  mapping entries :=
    Answers.ext (funext fun name => child_ofEntries name entries) rfl rfl rfl rfl
  tagged _ _ := rfl

theorem Tree.lawful_format : Tree.format.Lawful where
  null := rfl
  bool value := by cases value <;> rfl
  integer _ := rfl
  string _ := rfl
  list _ := rfl
  mapping _ := rfl
  tagged _ _ := rfl

theorem Format.Lawful.translates_build
    {δ : Type} [Data δ] {format : Format δ} (lawful : format.Lawful) :
    Data.Translates (Value.build format)
  | .null => by
      rw [Value.build, lawful.null]
      rfl
  | .bool value => by
      rw [Value.build, lawful.bool]
      cases value <;> rfl
  | .integer value => by
      rw [Value.build, lawful.integer]
      rfl
  | .string content => by
      rw [Value.build, lawful.string]
      rfl
  | .list items => by
      rw [Value.build, lawful.list, Value.buildAll_eq_map]
      cases items <;> rfl
  | .mapping entries => by
      have child := fun name => Entries.find?_ofList_map (Value.build format) name entries
      rw [Value.build, lawful.mapping, Value.buildEntries_eq_map]
      exact Answers.ext (funext child) rfl rfl rfl rfl
  | .tagged tag value => by
      rw [Value.build, lawful.tagged]
      exact translates_build lawful value

/-- Templates render a value the same in all formats. -/
theorem Template.renderTo_in_all_formats (template : Template) (value : Value) (sink : Sink) :
    template.renderTo (value.build Json.format) sink =
        template.renderTo (value.build Yaml.format) sink ∧
      template.renderTo (value.build Json.format) sink =
        template.renderTo (value.build Tree.format) sink := by
  have json := renderTo_of_translates Json.lawful_format.translates_build template value sink
  have yaml := renderTo_of_translates Yaml.lawful_format.translates_build template value sink
  have tree := renderTo_of_translates Tree.lawful_format.translates_build template value sink
  exact ⟨json.trans yaml.symm, json.trans tree.symm⟩

end Stencil
