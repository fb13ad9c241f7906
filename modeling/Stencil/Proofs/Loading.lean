import Stencil.Proofs.Registrations

/-!
# Registries of configurations

The entries of a configuration are registered one after the other, each with the schema that its
shape document describes.  Either all of them are in the registry or there is none, and then the
first entry that is refused decides the error.
-/

namespace Stencil

namespace TemplateEntry

/-- The shape document of an entry can be read and describes a schema. -/
def Describes (folder : String) (files : Files) (entry : TemplateEntry) (schema : Schema) : Prop :=
  ∃ text, files.read (joinPath folder entry.schema) = .ok text ∧
    Schema.ofYamlText text = .ok schema

/-- The files of an entry give a schema, and a template that compiles with it. -/
structure Loads (folder : String) (files : Files) (entry : TemplateEntry) (schema : Schema)
    (template : Template) : Prop where
  described : entry.Describes folder files schema
  compiled : ∃ source, files.read (joinPath folder entry.path) = .ok source ∧
    Template.compile source schema = .ok template

/-- The error of an entry at the first of its steps that fails.  A template that does not compile
is called by the name of the entry, a file by its path. -/
inductive Refused (folder : String) (files : Files) (entry : TemplateEntry) : LoadError → Prop where
  | shapeUnreadable {fault : FileFault}
      (unread : files.read (joinPath folder entry.schema) = .error fault) :
      Refused folder files entry (.file (.unreadable (joinPath folder entry.schema) fault))
  | noSchema {text : String} {error : SchemaError}
      (read : files.read (joinPath folder entry.schema) = .ok text)
      (undescribed : Schema.ofYamlText text = .error error) :
      Refused folder files entry (.schema (joinPath folder entry.schema) error)
  | templateUnreadable {schema : Schema} {fault : FileFault}
      (described : entry.Describes folder files schema)
      (unread : files.read (joinPath folder entry.path) = .error fault) :
      Refused folder files entry (.file (.unreadable (joinPath folder entry.path) fault))
  | noTemplate {schema : Schema} {source : String} {error : CompileError}
      (described : entry.Describes folder files schema)
      (read : files.read (joinPath folder entry.path) = .ok source)
      (uncompiled : Template.compile source schema = .error error) :
      Refused folder files entry (.file (.invalid entry.name error))

/-- The last entry of a name. -/
def latest? (name : String) (entries : List TemplateEntry) : Option TemplateEntry :=
  entries.reverse.find? fun entry => entry.name = name

/-- What an entry is registered with. -/
def registration (folder : String) (isWatched : Bool) (files : Files) (entry : TemplateEntry)
    (schema : Schema) (template : Template) : Registration :=
  let path := joinPath folder entry.path
  if isWatched then
    .live { path, schema, template, state := .watching, handled := files.modified? path,
            isWatched := true }
  else .fixed template

section

variable {folder name : String} {files : Files} {entry : TemplateEntry} {isWatched : Bool}
  {schema : Schema} {template : Template} {registry : Registry} {error : LoadError}

theorem current_registration :
    (entry.registration folder isWatched files schema template).current = template := by
  cases isWatched <;> rfl

theorem readSchema_eq_ok_iff :
    Registry.readSchema (joinPath folder entry.schema) files = .ok schema ↔
      entry.Describes folder files schema := by
  unfold Registry.readSchema readFile Describes
  cases files.read (joinPath folder entry.schema) with
  | error fault => simp
  | ok text => cases described : Schema.ofYamlText text <;> simp [described]

theorem Loads.registerFile (loads : entry.Loads folder files schema template) :
    registry.registerFile entry.name (joinPath folder entry.path) schema isWatched files =
      .ok (registry.insert entry.name
        (entry.registration folder isWatched files schema template)) := by
  obtain ⟨source, read, compiled⟩ := loads.compiled
  have started : Template.ofFile (joinPath folder entry.path) schema files = .ok template := by
    simp [Template.ofFile, readFile, read, compiled]
  unfold Registry.registerFile Live.start
  rw [started]
  cases isWatched <;> rfl

theorem Loads.registerEntry (loads : entry.Loads folder files schema template) :
    Registry.registerEntry folder isWatched files registry entry =
      .ok (registry.insert entry.name
        (entry.registration folder isWatched files schema template)) := by
  simp only [Registry.registerEntry, readSchema_eq_ok_iff.mpr loads.described, loads.registerFile]

theorem Refused.registerEntry (refused : entry.Refused folder files error) :
    Registry.registerEntry folder isWatched files registry entry = .error error := by
  cases refused with
  | shapeUnreadable unread => simp [Registry.registerEntry, Registry.readSchema, readFile, unread]
  | noSchema read undescribed =>
      simp [Registry.registerEntry, Registry.readSchema, readFile, read, undescribed]
  | templateUnreadable described unread =>
      simp [Registry.registerEntry, readSchema_eq_ok_iff.mpr described, Registry.registerFile,
        Live.start, Template.ofFile, readFile, unread, Registry.nameError]
  | noTemplate described read uncompiled =>
      simp [Registry.registerEntry, readSchema_eq_ok_iff.mpr described, Registry.registerFile,
        Live.start, Template.ofFile, readFile, read, uncompiled, Registry.nameError]

theorem loads_or_refused (folder : String) (files : Files) (entry : TemplateEntry) :
    (∃ schema template, entry.Loads folder files schema template) ∨
      ∃ error, entry.Refused folder files error := by
  cases read : files.read (joinPath folder entry.schema) with
  | error fault => exact .inr ⟨_, .shapeUnreadable read⟩
  | ok text =>
      cases described : Schema.ofYamlText text with
      | error error => exact .inr ⟨_, .noSchema read described⟩
      | ok schema =>
          have describes : entry.Describes folder files schema := ⟨text, read, described⟩
          cases readSource : files.read (joinPath folder entry.path) with
          | error fault => exact .inr ⟨_, .templateUnreadable describes readSource⟩
          | ok source =>
              cases compiled : Template.compile source schema with
              | error error => exact .inr ⟨_, .noTemplate describes readSource compiled⟩
              | ok template =>
                  exact .inl ⟨schema, template, describes, source, readSource, compiled⟩

theorem Loads.unique {otherSchema : Schema} {other : Template}
    (left : entry.Loads folder files schema template)
    (right : entry.Loads folder files otherSchema other) :
    schema = otherSchema ∧ template = other := by
  have sameSchema : schema = otherSchema := by
    have described := readSchema_eq_ok_iff.mpr left.described
    exact Except.ok.inj (described.symm.trans (readSchema_eq_ok_iff.mpr right.described))
  subst sameSchema
  obtain ⟨source, read, compiled⟩ := left.compiled
  obtain ⟨otherSource, otherRead, otherCompiled⟩ := right.compiled
  obtain rfl := Except.ok.inj (read.symm.trans otherRead)
  exact ⟨rfl, Except.ok.inj (compiled.symm.trans otherCompiled)⟩

theorem Refused.unique {other : LoadError} (left : entry.Refused folder files error)
    (right : entry.Refused folder files other) : error = other := by
  have refused : Registry.registerEntry folder false files .empty entry = .error error :=
    left.registerEntry
  exact Except.error.inj (refused.symm.trans right.registerEntry)

theorem Loads.not_refused (loads : entry.Loads folder files schema template) :
    ¬ entry.Refused folder files error := by
  intro refused
  have rejected : Registry.registerEntry folder false files .empty entry = .error error :=
    refused.registerEntry
  rw [loads.registerEntry] at rejected
  cases rejected

theorem latest?_cons (name : String) (entry : TemplateEntry) (rest : List TemplateEntry) :
    latest? name (entry :: rest) =
      (latest? name rest).or (if entry.name = name then some entry else none) := by
  simp [latest?, List.find?_append, List.find?_singleton]

theorem isSome_latest? {entries : List TemplateEntry} :
    (latest? name entries).isSome ↔ ∃ entry ∈ entries, entry.name = name := by
  simp [latest?, List.find?_isSome]

end

end TemplateEntry

theorem exists_split_cons_iff {α : Type} {passes stops : α → Prop} {head : α} {rest : List α} :
    (∃ before item after, head :: rest = before ++ item :: after ∧
        (∀ earlier ∈ before, passes earlier) ∧ stops item) ↔
      stops head ∨ (passes head ∧ ∃ before item after, rest = before ++ item :: after ∧
        (∀ earlier ∈ before, passes earlier) ∧ stops item) := by
  constructor
  · rintro ⟨before, item, after, whole, passed, stopped⟩
    cases before with
    | nil =>
        obtain ⟨rfl, rfl⟩ := List.cons.inj whole
        exact .inl stopped
    | cons first before =>
        obtain ⟨rfl, rfl⟩ := List.cons.inj whole
        obtain ⟨passedFirst, further⟩ := List.forall_mem_cons.mp passed
        exact .inr ⟨passedFirst, before, item, after, rfl, further, stopped⟩
  · rintro (stopped | ⟨passedHead, before, item, after, rfl, passed, stopped⟩)
    · exact ⟨[], head, rest, rfl, by simp, stopped⟩
    · exact ⟨head :: before, item, after, rfl, List.forall_mem_cons.mpr ⟨passedHead, passed⟩,
        stopped⟩

namespace Registry

/-- Entries are registered one after the other, each with the schema of its shape document. -/
inductive RegistersAll (folder : String) (isWatched : Bool) (files : Files) :
    List TemplateEntry → Registry → Registry → Prop where
  | nil (registry : Registry) : RegistersAll folder isWatched files [] registry registry
  | cons {entry : TemplateEntry} {rest : List TemplateEntry} {schema : Schema}
      {registry registered last : Registry}
      (described : entry.Describes folder files schema)
      (first : registry.registerFile entry.name (joinPath folder entry.path) schema isWatched
        files = .ok registered)
      (later : RegistersAll folder isWatched files rest registered last) :
      RegistersAll folder isWatched files (entry :: rest) registry last

section

variable {folder name : String} {isWatched : Bool} {files : Files} {entry : TemplateEntry}
  {entries : List TemplateEntry} {registry registered last : Registry} {error : LoadError}

theorem registerEntry_eq_ok_iff :
    registerEntry folder isWatched files registry entry = .ok registered ↔
      ∃ schema, entry.Describes folder files schema ∧
        registry.registerFile entry.name (joinPath folder entry.path) schema isWatched files =
          .ok registered := by
  simp only [← TemplateEntry.readSchema_eq_ok_iff]
  unfold registerEntry
  cases readSchema (joinPath folder entry.schema) files with
  | error error => simp
  | ok schema =>
      cases first : registry.registerFile entry.name (joinPath folder entry.path) schema isWatched
        files <;> simp [first]

theorem foldlM_eq_ok_iff :
    entries.foldlM (registerEntry folder isWatched files) registry = .ok last ↔
      RegistersAll folder isWatched files entries registry last := by
  induction entries generalizing registry with
  | nil =>
      constructor
      · intro accepted
        cases accepted
        exact .nil _
      · intro all
        cases all
        rfl
  | cons entry rest induction =>
      rw [List.foldlM_cons]
      constructor
      · intro accepted
        cases entered : registerEntry folder isWatched files registry entry with
        | error error =>
            rw [entered] at accepted
            cases accepted
        | ok registered =>
            rw [entered] at accepted
            obtain ⟨schema, described, first⟩ := registerEntry_eq_ok_iff.mp entered
            exact .cons described first (induction.mp accepted)
      · intro all
        cases all with
        | cons described first later =>
            rw [registerEntry_eq_ok_iff.mpr ⟨_, described, first⟩]
            exact induction.mpr later

/-- The first refused entry decides the error. -/
theorem foldlM_eq_error_iff :
    entries.foldlM (registerEntry folder isWatched files) registry = .error error ↔
      ∃ before entry after, entries = before ++ entry :: after ∧
        (∀ earlier ∈ before, ∃ schema template, earlier.Loads folder files schema template) ∧
        entry.Refused folder files error := by
  induction entries generalizing registry with
  | nil =>
      constructor
      · intro rejected
        cases rejected
      · rintro ⟨before, entry, after, whole, _⟩
        cases before <;> cases whole
  | cons head rest induction =>
      rw [List.foldlM_cons, exists_split_cons_iff]
      rcases head.loads_or_refused folder files with ⟨schema, template, loads⟩ | ⟨first, refused⟩
      · rw [loads.registerEntry]
        refine induction.trans ⟨fun later => .inr ⟨⟨schema, template, loads⟩, later⟩, ?_⟩
        rintro (refused | ⟨_, later⟩)
        · exact absurd refused loads.not_refused
        · exact later
      · rw [refused.registerEntry]
        constructor
        · intro rejected
          cases rejected
          exact .inl refused
        · rintro (again | ⟨⟨_, _, loads⟩, _⟩)
          · rw [refused.unique again]
            rfl
          · exact absurd refused loads.not_refused

theorem exists_loads_of_registerFile {schema : Schema}
    (described : entry.Describes folder files schema)
    (first : registry.registerFile entry.name (joinPath folder entry.path) schema isWatched files =
      .ok registered) :
    ∃ schema template, entry.Loads folder files schema template ∧
      registered = registry.insert entry.name
        (entry.registration folder isWatched files schema template) := by
  have entered := registerEntry_eq_ok_iff.mpr ⟨schema, described, first⟩
  rcases entry.loads_or_refused folder files with ⟨schema, template, loads⟩ | ⟨error, refused⟩
  · rw [loads.registerEntry] at entered
    cases entered
    exact ⟨schema, template, loads, rfl⟩
  · rw [refused.registerEntry] at entered
    cases entered

namespace RegistersAll

theorem exists_loads (all : RegistersAll folder isWatched files entries registry last) :
    ∀ entry ∈ entries, ∃ schema template, entry.Loads folder files schema template := by
  induction all with
  | nil registry => simp
  | cons described first _ induction =>
      obtain ⟨schema, template, loads, _⟩ := exists_loads_of_registerFile described first
      exact List.forall_mem_cons.mpr ⟨⟨schema, template, loads⟩, induction⟩

theorem ordered (all : RegistersAll folder isWatched files entries registry last)
    (ordered : Entries.Ordered registry.registrations) : Entries.Ordered last.registrations := by
  induction all with
  | nil registry => exact ordered
  | cons described first _ induction =>
      obtain ⟨_, _, _, rfl⟩ := exists_loads_of_registerFile described first
      exact induction (ordered.insert _ _)

/-- A name has what the last of its entries loads, or what it had before. -/
theorem find?_cases (all : RegistersAll folder isWatched files entries registry last)
    (name : String) :
    (TemplateEntry.latest? name entries = none ∧ last.find? name = registry.find? name) ∨
      ∃ entry schema template, TemplateEntry.latest? name entries = some entry ∧
        entry.Loads folder files schema template ∧
        last.find? name = some (entry.registration folder isWatched files schema template) := by
  induction all with
  | nil registry => exact .inl ⟨rfl, rfl⟩
  | @cons entry rest _ registry _ last described first _ induction =>
      obtain ⟨schema, template, loads, rfl⟩ := exists_loads_of_registerFile described first
      rw [find?_insert] at induction
      rw [TemplateEntry.latest?_cons]
      rcases induction with ⟨absent, unchanged⟩ | ⟨latest, found⟩
      · rw [absent, unchanged]
        by_cases same : entry.name = name
        · exact .inr ⟨entry, schema, template, by simp [same], loads, by simp [same]⟩
        · exact .inl ⟨by simp [same], by simp [Ne.symm same]⟩
      · obtain ⟨laterSchema, laterTemplate, isLatest, later⟩ := found
        exact .inr ⟨latest, laterSchema, laterTemplate, by simp [isLatest], later⟩

theorem get?_eq_some_iff (all : RegistersAll folder isWatched files entries empty last)
    {template : Template} :
    last.get? name = some template ↔
      ∃ entry schema, TemplateEntry.latest? name entries = some entry ∧
        entry.Loads folder files schema template := by
  rw [get?_eq]
  rcases all.find?_cases name with ⟨absent, missing⟩ | ⟨entry, schema, loaded, latest, loads, found⟩
  · rw [missing, absent]
    simp [find?, empty, Entries.find?]
  · rw [found, latest, Option.map_some, TemplateEntry.current_registration]
    constructor
    · rintro ⟨⟩
      exact ⟨entry, schema, rfl, loads⟩
    · rintro ⟨_, _, ⟨⟩, other⟩
      rw [(loads.unique other).2]

theorem mem_names_iff (all : RegistersAll folder isWatched files entries empty last) :
    name ∈ last.names ↔ ∃ entry ∈ entries, entry.name = name := by
  rw [← TemplateEntry.isSome_latest?]
  refine Entries.mem_names_iff.trans ?_
  show (last.find? name).isSome ↔ _
  rcases all.find?_cases name with ⟨absent, missing⟩ | ⟨_, _, _, latest, _, found⟩
  · rw [missing, absent]
    simp [find?, empty, Entries.find?]
  · simp [found, latest]

theorem watches_eq (all : RegistersAll folder isWatched files entries empty last)
    (member : name ∈ last.names) : last.watches name = isWatched := by
  have registered := TemplateEntry.isSome_latest?.mpr (all.mem_names_iff.mp member)
  unfold watches
  rcases all.find?_cases name with ⟨absent, _⟩ | ⟨_, _, _, _, _, found⟩
  · simp [absent] at registered
  · rw [found]
    cases isWatched <;> rfl

end RegistersAll

end

theorem exists_ofConfig_iff (config : Config) (folder : String) (files : Files) :
    (∃ registry, ofConfig config folder files = .ok registry) ↔
      ∀ entry ∈ config.templates, ∃ schema template,
        entry.Loads folder files schema template := by
  constructor
  · rintro ⟨registry, loaded⟩
    exact (foldlM_eq_ok_iff.mp loaded).exists_loads
  · intro loads
    cases loaded : ofConfig config folder files with
    | ok registry => exact ⟨registry, rfl⟩
    | error error =>
        obtain ⟨before, entry, after, whole, _, refused⟩ := foldlM_eq_error_iff.mp loaded
        obtain ⟨_, _, loadsEntry⟩ := loads entry (by simp [whole])
        exact absurd refused loadsEntry.not_refused

/-- A configuration gives a registry if all of its entries load: the one that comes of registering
them in order, where the last entry of a name decides, and files are watched while developing.
Otherwise it gives the error of the first entry that is refused. -/
theorem ofConfig_in_order (config : Config) (folder : String) (files : Files) :
    ((∃ registry, ofConfig config folder files = .ok registry) ↔
      ∀ entry ∈ config.templates, ∃ schema template,
        entry.Loads folder files schema template) ∧
    (∀ registry, ofConfig config folder files = .ok registry ↔
      RegistersAll folder config.hotReload files config.templates empty registry) ∧
    (∀ registry, ofConfig config folder files = .ok registry →
      (∀ name template, registry.get? name = some template ↔
        ∃ entry schema, TemplateEntry.latest? name config.templates = some entry ∧
          entry.Loads folder files schema template) ∧
      registry.names.Nodup ∧
      (∀ name, name ∈ registry.names ↔ ∃ entry ∈ config.templates, entry.name = name) ∧
      ∀ name ∈ registry.names,
        registry.watches name = true ↔ config.environment = .development) ∧
    ∀ error, ofConfig config folder files = .error error ↔
      ∃ before entry after, config.templates = before ++ entry :: after ∧
        (∀ earlier ∈ before, ∃ schema template, earlier.Loads folder files schema template) ∧
        entry.Refused folder files error := by
  refine ⟨exists_ofConfig_iff config folder files, fun _ => foldlM_eq_ok_iff, ?_,
    fun _ => foldlM_eq_error_iff⟩
  intro registry loaded
  have all := foldlM_eq_ok_iff.mp loaded
  have ordered : Entries.Ordered registry.registrations := all.ordered List.Pairwise.nil
  refine ⟨fun _ _ => all.get?_eq_some_iff, ordered.nodup, fun _ => all.mem_names_iff, ?_⟩
  intro name member
  rw [all.watches_eq member, Config.hotReload, decide_eq_true_iff]

/-- A folder with a shape document that declares nothing and the texts of two pages. -/
def noticeFiles : Files :=
  let shaped := Files.empty.write "site/shape" "{}".toUTF8 1
  (shaped.write "site/old" "Hello".toUTF8 1).write "site/new" "Welcome".toUTF8 1

def noticeEntry (path : String) : TemplateEntry :=
  { name := "page", path, schema := "shape" }

/-- A page that is listed with an old text and then with a new one. -/
def noticeConfig (further : List TemplateEntry) : Config where
  environment := .development
  interval := 500
  templates := noticeEntry "old" :: noticeEntry "new" :: further

theorem noticeEntry_described (path : String) :
    (noticeEntry path).Describes "site" noticeFiles { fields := [] } := by
  have read : noticeFiles.read (joinPath "site" "shape") = .ok "{}" := by cbv
  have empty : ((Schema.ofYamlText "{}").toOption.any fun schema => schema.fields.isEmpty) =
      true := by
    decide +kernel
  refine ⟨"{}", read, ?_⟩
  cases described : Schema.ofYamlText "{}" with
  | error error => simp [described, Except.toOption] at empty
  | ok schema =>
      obtain ⟨fields⟩ := schema
      simp only [described, Except.toOption, Option.any_some, List.isEmpty_iff] at empty
      rw [empty]

def noticeTemplate (text : String) : Template where
  nodes := [.text text]
  schema := { fields := [] }

theorem noticeEntry_old :
    (noticeEntry "old").Loads "site" noticeFiles { fields := [] } (noticeTemplate "Hello") :=
  ⟨noticeEntry_described "old", "Hello", by cbv, by cbv⟩

theorem noticeEntry_new :
    (noticeEntry "new").Loads "site" noticeFiles { fields := [] } (noticeTemplate "Welcome") :=
  ⟨noticeEntry_described "new", "Welcome", by cbv, by cbv⟩

/-- The new text stays and is watched.  With a third entry whose text is lost there is no
registry. -/
theorem notice_loaded_or_lost :
    (∃ registry, ofConfig (noticeConfig []) "site" noticeFiles = .ok registry ∧
      registry.get? "page" = some (noticeTemplate "Welcome") ∧
      registry.watches "page" = true) ∧
    ofConfig (noticeConfig [noticeEntry "lost"]) "site" noticeFiles =
      .error (.file (.unreadable "site/lost" .notFound)) := by
  obtain ⟨accepted, _, holds, _⟩ := ofConfig_in_order (noticeConfig []) "site" noticeFiles
  obtain ⟨_, _, _, rejected⟩ :=
    ofConfig_in_order (noticeConfig [noticeEntry "lost"]) "site" noticeFiles
  constructor
  · obtain ⟨registry, loaded⟩ := accepted.mpr (by
      simp only [noticeConfig, List.forall_mem_cons]
      exact ⟨⟨_, _, noticeEntry_old⟩, ⟨_, _, noticeEntry_new⟩, by simp⟩)
    obtain ⟨get, _, names, watched⟩ := holds registry loaded
    have member : "page" ∈ registry.names := (names "page").mpr ⟨_, List.mem_cons_self, rfl⟩
    exact ⟨registry, loaded, (get "page" _).mpr ⟨_, _, rfl, noticeEntry_new⟩,
      (watched "page" member).mpr rfl⟩
  · have lost : noticeFiles.read (joinPath "site" "lost") = .error .notFound := by cbv
    refine (rejected _).mpr
      ⟨[noticeEntry "old", noticeEntry "new"], noticeEntry "lost", [], rfl, ?_, ?_⟩
    · simp only [List.forall_mem_cons]
      exact ⟨⟨_, _, noticeEntry_old⟩, ⟨_, _, noticeEntry_new⟩, by simp⟩
    · have joined : joinPath "site" "lost" = "site/lost" := by cbv
      rw [← joined]
      exact .templateUnreadable (noticeEntry_described "lost") lost

end Registry

end Stencil
