import LanguageClient.Config.Files
import LanguageClient.Config.Variables

/-! Loading settings: from a file, from variables and from the command line, the later
over the earlier.

The file is the first one that can be read, of those that the command line or a variable
names and those in the usual places.
-/

set_option autoImplicit false
namespace LanguageClient.Config

structure Surroundings where
  tree : FileTree
  workingDirectory : Location
  environment : List (String × String)

namespace Surroundings

def lookUp (s : Surroundings) (name : String) : Option String := s.environment.lookup name

def join (directory path : String) : String :=
  if directory.isEmpty || directory.endsWith "/" then directory ++ path
  else directory ++ "/" ++ path

def fileName : String := ".courier.toml"

def placesBelow (directory : String) : List String :=
  [join directory "courier/config.toml", join directory fileName]

def optionalPaths (s : Surroundings) : List String :=
  let named := ((s.lookUp "COURIER_CONFIG_PATH").filter (!·.isEmpty)).toList
  let listed := Text.splitOn ':' ((s.lookUp "XDG_CONFIG_DIRS").getD "")
  let directories := (s.lookUp "XDG_CONFIG_HOME").toList ++ listed.filter (!·.isEmpty)
    ++ (s.lookUp "APPDATA").toList ++ (s.lookUp "LOCALAPPDATA").toList
  let home := (s.lookUp "HOME").toList
  named ++ directories.flatMap placesBelow
    ++ home.flatMap (fun directory =>
      placesBelow (join directory ".config") ++ [join directory fileName])
    ++ [join s.workingDirectory.path fileName]

/-- The paths that are tried, each once. A path that the command line names must lead to a
file. -/
def candidates (s : Surroundings) (required : Option String) : List (String × Bool) :=
  let optional := s.optionalPaths.map (·, false)
  ((required.toList.map (·, true)) ++ optional).foldl (fun kept candidate =>
    if kept.any fun other => other.1 = candidate.1 then kept else kept ++ [candidate]) []

structure Search where
  layers : Option (List Layer) := none
  /-- Faults that count in any case. -/
  grave : List LoadFault := []
  /-- Faults that count only if no file can be read. -/
  slight : List LoadFault := []

def search (s : Surroundings) : List (String × Bool) → Search
  | [] => {}
  | (path, required) :: rest =>
      match loadFile s.tree s.workingDirectory path with
      | .ok (some layers) => { layers := some layers }
      | .ok none =>
          let found := s.search rest
          if required then { found with grave := .file path :: found.grave } else found
      | .error fault =>
          let found := s.search rest
          if required then { found with grave := fault :: found.grave }
          else { found with slight := fault :: found.slight }

end Surroundings

def LoadFault.together : List LoadFault → LoadFault
  | [fault] => fault
  | faults => .several faults

/-- Loads the settings. All faults are reported: those of the command line first, then those
of files, and last that the layers do not fit. -/
def load (s : Surroundings) (arguments : List String) : Except LoadFault Config :=
  let read := Arguments.read arguments
  let (given, faults) : Option Arguments × List LoadFault := match read with
    | .ok given => (some given, [])
    | .error fault => (none, [.arguments fault])
  let found := s.search (s.candidates (given.bind (·.configPath)))
  let faults := faults ++ found.grave ++ if found.layers.isSome then [] else found.slight
  let layers := found.layers.getD [] ++ Layer.ofVariables s.environment
    :: (given.bind Arguments.layer?).toList
  match ofLayers? layers with
  | some config => if faults.isEmpty then .ok config else .error (.together faults)
  | none => .error (.together (faults ++ [.mismatch]))

end LanguageClient.Config
