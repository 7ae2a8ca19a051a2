import LanguageClient.Config.Load
import Mathlib

/-! The file that settings come from: the first that the paths lead to. -/

set_option autoImplicit false
namespace LanguageClient.Config

/-- The name of a file does not say that it is in a format that cannot be read. -/
def Location.Readable (location : Location) : Prop :=
  ¬ ((location.getLast?.bind extension?).map Text.lowerAscii).getD "" ∈ foreignExtensions

namespace Surroundings

/-- The paths lead to the file at a location before any other. -/
def Finds (s : Surroundings) (required : Option String) (location : Location) : Prop :=
  ∃ sooner path demanded later, s.candidates required = sooner ++ (path, demanded) :: later ∧
    (∀ candidate ∈ sooner, candidate.2 = false ∧ s.tree.locate s.workingDirectory candidate.1 = .missing) ∧
      s.tree.locate s.workingDirectory path = .found location

def FindsNone (s : Surroundings) : Prop :=
  ∀ candidate ∈ s.candidates none, candidate.2 = false ∧ s.tree.locate s.workingDirectory candidate.1 = .missing

end Surroundings

section Search

variable {s : Surroundings} {location : Location} {text : String} {entries : List (String × Json.Value)}

theorem readFile_of_read {newer older : Toml.Table} (readable : location.Readable)
    (first : Toml.read .v11 text = some newer) (second : Toml.read .v10 text = some older) :
    readFile location text = .ok (Toml.entriesToJson older) := by
  have native : foreignExtensions.contains (((location.getLast?.bind extension?).map Text.lowerAscii).getD "") =
      false := by
    rw [← Bool.not_eq_true, List.contains_iff_mem]
    exact readable
  simp only [readFile, native, Bool.false_eq_true, if_false, first, second]

theorem layersOf_whole (tree : FileTree) (room : Nat) (there : tree.text? location = some text)
    (read : readFile location text = .ok entries) (whole : entries.lookup "extends" = none) :
    layersOf tree (room + 1) [] location = .ok [Layer.ofEntries entries] := by
  simp only [layersOf, there, read, List.contains_nil, Bool.false_eq_true, if_false, bind, Except.bind, whole]
  rfl

theorem search_missing (candidates : List (String × Bool)) (sooner : List (String × Bool))
    (missing : ∀ candidate ∈ sooner,
      candidate.2 = false ∧ s.tree.locate s.workingDirectory candidate.1 = .missing) :
    s.search (sooner ++ candidates) = s.search candidates := by
  induction sooner with
  | nil => rfl
  | cons candidate sooner ih =>
    obtain ⟨⟨optional, astray⟩, others⟩ := List.forall_mem_cons.mp missing
    obtain ⟨path, demanded⟩ := candidate
    -- Only a path that must lead to a file would leave a fault behind.
    obtain rfl : demanded = false := optional
    have astray : s.tree.locate s.workingDirectory path = .missing := astray
    have nothing : loadFile s.tree s.workingDirectory path = .ok none := by rw [loadFile, astray]
    rw [List.cons_append, Surroundings.search, nothing]
    exact ih others

theorem search_of_finds {required : Option String} (finds : s.Finds required location)
    (there : s.tree.text? location = some text) (read : readFile location text = .ok entries)
    (whole : entries.lookup "extends" = none) :
    s.search (s.candidates required) = { layers := some [Layer.ofEntries entries] } := by
  obtain ⟨sooner, path, demanded, later, candidates, missing, leads⟩ := finds
  have loaded : loadFile s.tree s.workingDirectory path = .ok (some [Layer.ofEntries entries]) := by
    simp only [loadFile, leads, there, Option.isSome_some, if_true, layersOf_whole _ _ there read whole]
    rfl
  rw [candidates, search_missing _ _ missing, Surroundings.search, loaded]

theorem search_of_findsNone (none : s.FindsNone) : s.search (s.candidates .none) = {} := by
  have search := search_missing [] (s.candidates .none) none
  rwa [List.append_nil] at search

end Search

theorem foldl_keeps (first : String × Bool) (kept rest : List (String × Bool)) :
    ∃ later, rest.foldl (fun kept candidate =>
      if kept.any fun other => other.1 = candidate.1 then kept else kept ++ [candidate]) (first :: kept) =
        first :: later := by
  induction rest generalizing kept with
  | nil => exact ⟨kept, rfl⟩
  | cons candidate rest ih =>
    rw [List.foldl_cons]
    split
    · exact ih kept
    · exact ih (kept ++ [candidate])

theorem finds_named {s : Surroundings} {path : String} {location : Location}
    (named : s.lookUp "COURIER_CONFIG_PATH" = some path) (nonempty : path.isEmpty = false)
    (leads : s.tree.locate s.workingDirectory path = .found location) : s.Finds none location := by
  have first : ((s.lookUp "COURIER_CONFIG_PATH").filter (!·.isEmpty)).toList = [path] := by
    simp [named, nonempty]
  have paths : ∃ rest, s.optionalPaths = path :: rest := by
    simp only [Surroundings.optionalPaths, first, List.cons_append]
    exact ⟨_, rfl⟩
  obtain ⟨rest, paths⟩ := paths
  obtain ⟨later, kept⟩ := foldl_keeps (path, false) [] (rest.map (·, false))
  refine ⟨[], path, false, later, ?_, List.forall_mem_nil _, leads⟩
  rw [Surroundings.candidates, paths]
  exact kept

def filed (text : String) (environment : List (String × String)) : Surroundings where
  tree := ⟨[(["c.toml"], text)], []⟩
  workingDirectory := []
  environment := ("COURIER_CONFIG_PATH", "/c.toml") :: environment

theorem readable_toml : Location.Readable ["c.toml"] := by
  unfold Location.Readable
  decide

theorem finds_filed (text : String) (environment : List (String × String)) :
    (filed text environment).Finds none ["c.toml"] := by
  refine finds_named rfl rfl ?_
  cbv

end LanguageClient.Config
