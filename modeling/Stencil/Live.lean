import Stencil.Files
import Stencil.Template

/-!
# Live templates

A live template is compiled from a file and follows its changes.  When it is polled and the time of
the file is another than the one seen last, it is compiled again with the same schema.  If that
fails, the template compiled last stays.
-/

namespace Stencil

/-- Why a file has no template. -/
inductive FileError where
  | unreadable (path : String) (fault : FileFault)
  /-- The text of the template of a name does not compile. -/
  | invalid (name : String) (error : CompileError)

def FileError.message : FileError → String
  | .unreadable path fault => "io error on " ++ path ++ ": " ++ fault.reason
  | .invalid name error => "template " ++ name ++ ": " ++ error.message

def readFile (path : String) (files : Files) : Except FileError String :=
  match files.read path with
  | .error fault => .error (.unreadable path fault)
  | .ok text => .ok text

/-- The template of the text of a file.  It is called by the path of the file. -/
def Template.ofFile (path : String) (schema : Schema) (files : Files) :
    Except FileError Template :=
  match readFile path files with
  | .error error => .error error
  | .ok text =>
      match Template.compile text schema with
      | .error error => .error (.invalid path error)
      | .ok template => .ok template

/-- What a live template is doing. -/
inductive WatchState where
  | unwatched
  | watching
  | recompiling
  /-- The file was compiled last without success. -/
  | failed (error : FileError)

/-- A template that follows the changes of a file. -/
structure Live where
  path : String
  schema : Schema
  /-- The template compiled last. -/
  template : Template
  state : WatchState
  /-- The time of the file when it was compiled last, with or without success. -/
  handled : Option FileTime
  /-- Whether the file is watched. -/
  isWatched : Bool

namespace Live

def start (path : String) (schema : Schema) (files : Files) : Except FileError Live :=
  match Template.ofFile path schema files with
  | .error error => .error error
  | .ok template =>
      .ok { path, schema, template, state := .unwatched, handled := files.modified? path,
            isWatched := false }

/-- The state while nothing is wrong. -/
def settled (live : Live) : WatchState :=
  if live.isWatched then .watching else .unwatched

/-- Compiles the file again.  The result tells whether there is a new template. -/
def recompile (files : Files) (live : Live) : Bool × Live :=
  match Template.ofFile live.path live.schema files with
  | .ok template => (true, { live with template, state := live.settled })
  | .error error => (false, { live with state := .failed error })

/-- Looks at the file and compiles it again if its time is another than the one handled last.  A
file that is not there changes nothing.  The result tells whether there is a new template. -/
def poll (files : Files) (live : Live) : Bool × Live :=
  match files.modified? live.path with
  | none => (false, live)
  | some time =>
      if live.handled = some time then (false, live)
      else { live with handled := some time, state := .recompiling }.recompile files

/-- Starts to watch the file.  A failure stays visible. -/
def watch (live : Live) : Live :=
  if live.isWatched then live
  else
    match live.state with
    | .unwatched => { live with isWatched := true, state := .watching }
    | _ => { live with isWatched := true }

/-- Stops watching the file, if it is watched. -/
def unwatch (live : Live) : Live :=
  if live.isWatched then { live with isWatched := false, state := .unwatched } else live

end Live

end Stencil
