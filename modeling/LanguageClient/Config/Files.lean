import LanguageClient.Config.Arguments
import LanguageClient.Text.Letter
import LanguageClient.Text.Split
import LanguageClient.Toml.Document
import LanguageClient.Toml.Json

/-! Settings from files. A file may extend another one, whose settings then lie below its own. -/

set_option autoImplicit false
namespace LanguageClient.Config

/-- Where a file or a directory is: the names on the way from the root. -/
abbrev Location := List String

def Location.path (location : Location) : String := "/" ++ "/".intercalate location

/-- The files of a system with their texts, and directories that may hold none. -/
structure FileTree where
  files : List (Location × String)
  directories : List Location

namespace FileTree

def text? (tree : FileTree) (location : Location) : Option String := tree.files.lookup location

def isDirectory (tree : FileTree) (location : Location) : Bool :=
  location.isEmpty || tree.directories.any location.isPrefixOf
    || tree.files.any fun (file, _) => location.isPrefixOf file && location != file

def exists? (tree : FileTree) (location : Location) : Bool :=
  (tree.text? location).isSome || tree.isDirectory location

inductive Reach where
  | found (location : Location)
  | missing
  /-- No path of this form can be followed. -/
  | blocked
  deriving DecidableEq, Repr

def nameLimit : Nat := 255

def pathLimit : Nat := 4095

/-- Follows the names of a path. Only a directory can be passed through. -/
def follow (tree : FileTree) (location : Location) : List String → Reach
  | [] => .found location
  | name :: rest =>
      if !tree.isDirectory location then .blocked
      else if name = "" ∨ name = "." then tree.follow location rest
      else if name = ".." then tree.follow location.dropLast rest
      else if nameLimit < name.utf8ByteSize then .blocked
      else if tree.exists? (location ++ [name]) then tree.follow (location ++ [name]) rest
      else .missing

def locate (tree : FileTree) (directory : Location) (path : String) : Reach :=
  if path.isEmpty then .missing
  else if pathLimit < path.utf8ByteSize then .blocked
  else tree.follow (if path.startsWith "/" then [] else directory) (Text.splitOn '/' path)

end FileTree

inductive LoadFault where
  | arguments (fault : ArgumentFault)
  /-- A file that is not there, is no file, or does not hold settings. -/
  | file (path : String)
  /-- The files on the way to one that extends itself. -/
  | cyclicExtends (paths : List String)
  /-- A setting has a value of the wrong kind. -/
  | mismatch
  | several (faults : List LoadFault)
  deriving Repr

def foreignExtensions : List String := ["json", "json5", "yaml", "yml"]

def extension? (name : String) : Option String :=
  match Text.splitOn '.' name with
  | [] | [_] => none
  | "" :: [_] => none
  | parts => parts.getLast?

/-- The entries of a file. They must be TOML of the newer edition to be read at all, and of the
older one to be settings. -/
def readFile (location : Location) (text : String) : Except LoadFault (List (String × Json.Value)) :=
  let extension := ((location.getLast?.bind extension?).map Text.lowerAscii).getD ""
  if foreignExtensions.contains extension then .error (.file location.path)
  else match Toml.read .v11 text, Toml.read .v10 text with
    | none, _ => .error (.file location.path)
    | some _, none => .error .mismatch
    | some _, some table => .ok (Toml.entriesToJson table)

def besides (location : Location) (path : String) : String :=
  if path.startsWith "/" then path
  else if location.dropLast.isEmpty then "/" ++ path
  else Location.path location.dropLast ++ "/" ++ path

/-- The layers of a file: those of the file that it extends, and its own. Files that are
being read are in `opened`; there are at most `room` others. -/
def layersOf (tree : FileTree) : Nat → List Location → Location → Except LoadFault (List Layer)
  | 0, _, location => .error (.file location.path)
  | room + 1, opened, location =>
      if opened.contains location then
        .error (.cyclicExtends ((opened ++ [location]).map Location.path))
      else match tree.text? location with
        | none => .error (.file location.path)
        | some text => do
            let entries ← readFile location text
            let layer := Layer.ofEntries entries
            match entries.lookup "extends" with
            | none => return [layer]
            | some (.string path) =>
                if path.isEmpty then .error (.file location.path)
                else match tree.locate location.dropLast path with
                  | .found parent =>
                      -- What is extended comes first, and what extends it wins.
                      return (← layersOf tree room (opened ++ [location]) parent) ++ [layer]
                  | .missing | .blocked => .error (.file (besides location path))
            | some _ => .error (.file location.path)

def loadFile (tree : FileTree) (directory : Location) (path : String) :
    Except LoadFault (Option (List Layer)) :=
  match tree.locate directory path with
  | .missing => .ok none
  | .blocked => .error (.file path)
  | .found location =>
      if (tree.text? location).isSome then
        (layersOf tree (tree.files.length + 1) [] location).map some
      else .error (.file path)

end LanguageClient.Config
