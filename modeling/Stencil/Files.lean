import Stencil.Text.Basic

/-!
# Files

Templates, shape documents and configurations are read from files.  The state of a file tree holds
what is in each file and when it was changed last.  A file has the time it was stamped with; the
time of a folder differs from that of every file and of every other folder.
-/

namespace Stencil

/-- When a file or a folder was changed last. -/
inductive FileTime where
  | stamped (seconds : Int)
  /-- The time of a folder, by a number of its own. -/
  | folder (serial : Nat)
  deriving DecidableEq, Repr

/-- What stands at a place of a file tree. -/
inductive FileEntry where
  | file (content : ByteArray) (time : FileTime)
  | folder (time : FileTime)

/-- Why a file cannot be read. -/
inductive FileFault where
  | notFound
  | notFolder
  | isFolder
  | notText
  /-- No path has a character of code zero in it. -/
  | nulInPath
  | longName
  deriving DecidableEq, Repr

def FileFault.reason : FileFault → String
  | .notFound => "No such file or directory (os error 2)"
  | .notFolder => "Not a directory (os error 20)"
  | .isFolder => "Is a directory (os error 21)"
  | .notText => "stream did not contain valid UTF-8"
  | .nulInPath => "file name contained an unexpected NUL byte"
  | .longName => "File name too long (os error 36)"

def FileEntry.time : FileEntry → FileTime
  | .file _ time => time
  | .folder time => time

/-- The path of a name that is looked up below a folder.  A name that starts at the root stays as
it is. -/
def joinPath (folder name : String) : String :=
  if name.startsWith "/" then name
  else if folder = "" || folder.endsWith "/" then folder ++ name
  else folder ++ "/" ++ name

def stepsOf (path : String) : List String :=
  (Text.splitAt '/' path.toList).map String.ofList

/-- How many octets a name may have. -/
def nameLimit : Nat := 255

/-- How many octets a path may have. -/
def pathLimit : Nat := 4095

/-- Whether a step leads to nothing with a name of its own: it stays, or leads to the folder
around. -/
def isNameless (step : String) : Bool :=
  step = "" || step = "." || step = ".."

/-- The place that steps lead to.  Names follow each other, and a double dot takes one back. -/
def placeOfSteps : List String → List String → List String
  | place, [] => place
  | place, step :: rest =>
      if step = "" || step = "." then placeOfSteps place rest
      else if step = ".." then placeOfSteps place.dropLast rest
      else placeOfSteps (place ++ [step]) rest

/-- The state of a file tree.  Entries are found by the names of the folders around them and their
own. -/
structure Files where
  entries : List (List String × FileEntry)
  /-- A number that no folder has as its time. -/
  serial : Nat

namespace Files

def empty : Files :=
  { entries := [], serial := 0 }

def find? (files : Files) (place : List String) : Option FileEntry :=
  files.entries.lookup place

/-- Follows steps outside the tree, where there are folders, but none with a known name. -/
def resolveOutside : List String → Except FileFault (List String)
  | [] => .ok []
  | step :: rest =>
      if isNameless step then resolveOutside rest
      else if nameLimit < step.utf8ByteSize then .error .longName
      else .error .notFound

/-- Follows steps from a place to what they lead to. -/
def resolve (files : Files) (place : List String) : List String → Except FileFault (List String)
  | [] => .ok place
  | step :: rest =>
      if step = "" || step = "." then files.resolve place rest
      else if step = ".." then
        if place.isEmpty then resolveOutside rest else files.resolve place.dropLast rest
      else if nameLimit < step.utf8ByteSize then .error .longName
      else
        let inside := place ++ [step]
        match files.find? inside with
        | none => .error .notFound
        | some (.folder _) => files.resolve inside rest
        | some (.file _ _) => if rest.isEmpty then .ok inside else .error .notFolder

/-- The place a path leads to.  A path from the root stays outside the tree. -/
def locate (files : Files) (path : String) : Except FileFault (List String) :=
  if path.contains '\x00' then .error .nulInPath
  else if pathLimit < path.utf8ByteSize then .error .longName
  else if path.startsWith "/" then resolveOutside (stepsOf path)
  else files.resolve [] (stepsOf path)

def read (files : Files) (path : String) : Except FileFault String :=
  match files.locate path with
  | .error fault => .error fault
  | .ok place =>
      match files.find? place with
      | some (.file content _) =>
          match String.fromUTF8? content with
          | some text => .ok text
          | none => .error .notText
      | _ => .error .isFolder

/-- When a file or a folder was changed last, if there is one. -/
def modified? (files : Files) (path : String) : Option FileTime :=
  match files.locate path with
  | .error _ => none
  | .ok place => (files.find? place).map FileEntry.time

/-- The place a path names, without looking at what stands there. -/
def placeOf (path : String) : List String :=
  placeOfSteps [] (stepsOf path)

/-- Removes what stands at a place and below it. -/
def removeAt (place : List String) (files : Files) : Files :=
  { files with entries := files.entries.filter fun entry => !place.isPrefixOf entry.1 }

/-- Makes the folders on the way to a place, behind those around it. -/
def makeFoldersAt (around : List String) (files : Files) : List String → Files
  | [] => files
  | step :: rest =>
      let place := around ++ [step]
      let made :=
        match files.find? place with
        | some _ => files
        | none =>
            { entries := (place, .folder (.folder files.serial)) :: files.entries
              serial := files.serial + 1 }
      made.makeFoldersAt place rest

def makeFolder (path : String) (files : Files) : Files :=
  files.makeFoldersAt [] (placeOf path)

/-- Puts a file in place, instead of what stands there. -/
def write (path : String) (content : ByteArray) (seconds : Int) (files : Files) : Files :=
  let place := placeOf path
  let prepared := (files.makeFoldersAt [] place.dropLast).removeAt place
  { prepared with entries := (place, .file content (.stamped seconds)) :: prepared.entries }

/-- Removes a file, or a folder and all that is in it. -/
def remove (path : String) (files : Files) : Files :=
  files.removeAt (placeOf path)

end Files

end Stencil
