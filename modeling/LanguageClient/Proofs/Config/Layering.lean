import LanguageClient.Proofs.Config.Files
import Mathlib.Data.List.Forall2
import Mathlib.Data.Option.Basic

/-! What files, variables and a command line say together.

Where every source says things of the right kinds, settings load: each one has the value that the
highest of the sources gives it, and the lists of lenient notifications are put one behind the
other. The command line is the exception: it says whether messages are traced even if it has no
switch for that, and says nothing at all if it repeats the filter and the format that are there anyway.
-/

set_option autoImplicit false
namespace LanguageClient

open Json (Value)

/-! Lenient notifications. -/

/-- A list names a method if one of its entries does, blanks around the names aside. -/
def Named (entries : List String) (method : String) : Prop :=
  ∃ entry ∈ entries, Text.trim entry = Text.trim method

section Policies

variable {config : Config} {method : String}

theorem any_iff_named (entries : List String) (method : String) :
    entries.any (fun entry => Text.trim entry == Text.trim method) = true ↔ Named entries method := by
  simp only [List.any_eq_true, beq_iff_eq, Named]

theorem policy_of_named (named : Named config.lenientNotifications method) :
    config.policyFor method = .defaultWhenAbsent := by
  rw [Config.policyFor, if_pos ((any_iff_named _ _).mpr named)]

theorem policy_of_unnamed (unnamed : ¬ Named config.lenientNotifications method) :
    config.policyFor method = .required := by
  rw [Config.policyFor, if_neg fun found => unnamed ((any_iff_named _ _).mp found)]

theorem policy_of_alike {other : Config}
    (alike : Named config.lenientNotifications method ↔ Named other.lenientNotifications method) :
    other.policyFor method = config.policyFor method := by
  by_cases named : Named config.lenientNotifications method
  · rw [policy_of_named named, policy_of_named (alike.mp named)]
  · rw [policy_of_unnamed named, policy_of_unnamed fun other => named (alike.mpr other)]

theorem lenient_iff_named :
    config.policyFor method = .defaultWhenAbsent ↔ Named config.lenientNotifications method := by
  refine ⟨fun lenient => ?_, policy_of_named⟩
  by_contra unnamed
  cases (policy_of_unnamed unnamed).symm.trans lenient

end Policies

namespace Config

/-! What sources say. -/

/-- What a source says about the settings; what it leaves out is `none`. -/
structure Saying where
  logFilter : Option String := none
  logFormat : Option LogFormat := none
  traceMessages : Option Bool := none
  lenientNotifications : Option (List String) := none

inductive Lists : Value → List String → Prop where
  | array {entries : List String} : Lists (.array (entries.map .string)) entries
  | single {entry : String} : Lists (.string entry) [entry]

/-- What a layer says, with values of the right kinds. -/
structure Layer.Says (layer : Layer) (saying : Saying) : Prop where
  logFilter : layer.logFilter = saying.logFilter.map .string
  logFormat : layer.logFormat = saying.logFormat.map fun format => .string format.name
  traceMessages : layer.traceMessages = saying.traceMessages.map .boolean
  lenientNotifications : Option.Rel Lists layer.lenientNotifications saying.lenientNotifications

/-- What a command line says: nothing if it is redundant, else at least whether messages are traced. -/
def Arguments.saying? (a : Arguments) : Option Saying :=
  if a = redundant then none
  else some
    { logFilter := a.logFilter
      logFormat := a.logFormat
      traceMessages := some a.traceMessages
      lenientNotifications := if a.lenientNotifications.isEmpty then none else some a.lenientNotifications }

/-- The three sources: a file with those that it extends, the variables, and the command line. -/
structure Sources where
  files : List Saying
  environment : Saying
  arguments : Arguments

namespace Sources

def sayings (sources : Sources) : List Saying :=
  sources.files ++ sources.environment :: sources.arguments.saying?.toList

/-- The settings that the sources make up: what the highest of them says, and all lists. -/
def config (sources : Sources) : Config :=
  let fallback : Config := {}
  { logFilter := (sources.sayings.filterMap Saying.logFilter).getLastD fallback.logFilter
    logFormat := (sources.sayings.filterMap Saying.logFormat).getLastD fallback.logFormat
    traceMessages := (sources.sayings.filterMap Saying.traceMessages).getLastD fallback.traceMessages
    lenientNotifications := (sources.sayings.filterMap Saying.lenientNotifications).flatten }

def Lists (sources : Sources) (method : String) : Prop :=
  ∃ saying ∈ sources.sayings, ∃ entries, saying.lenientNotifications = some entries ∧ Named entries method

/-- Each list of one has a list of the other with at least its entries. -/
def Within (sources others : Sources) : Prop :=
  ∀ saying ∈ sources.sayings, ∀ entries, saying.lenientNotifications = some entries →
    ∃ saying ∈ others.sayings, ∃ more, saying.lenientNotifications = some more ∧ entries ⊆ more

end Sources

/-- A command line can be read, and no file is at fault. -/
structure Faultless (s : Surroundings) (arguments : List String) (given : Arguments) : Prop where
  read : Arguments.read arguments = .ok given
  grave : (s.search (s.candidates given.configPath)).grave = []
  slight : (s.search (s.candidates given.configPath)).layers = none →
    (s.search (s.candidates given.configPath)).slight = []

/-- All layers, the uppermost last. -/
def layersAround (s : Surroundings) (given : Arguments) : List Layer :=
  (s.search (s.candidates given.configPath)).layers.getD [] ++
    Layer.ofVariables s.environment :: given.layer?.toList

/-- What is around a program, with its arguments, presents the sources. -/
structure Presents (s : Surroundings) (arguments : List String) (sources : Sources) : Prop where
  faultless : Faultless s arguments sources.arguments
  files : List.Forall₂ Layer.Says
    ((s.search (s.candidates sources.arguments.configPath)).layers.getD []) sources.files
  environment : (Layer.ofVariables s.environment).Says sources.environment

/-! Layers. -/

section Layers

variable {layers : List Layer} {sayings : List Saying}

theorem says_arguments (a : Arguments) : List.Forall₂ Layer.Says a.layer?.toList a.saying?.toList := by
  unfold Arguments.layer? Arguments.saying?
  split
  · exact .nil
  · refine .cons ⟨rfl, rfl, rfl, ?_⟩ .nil
    dsimp only
    split
    · exact .none
    · exact .some .array

theorem filterMap_says {α : Type} {value : α → Value} {setting : Layer → Option Value}
    {said : Saying → Option α}
    (same : ∀ layer saying, layer.Says saying → setting layer = (said saying).map value)
    (told : List.Forall₂ Layer.Says layers sayings) :
    layers.filterMap setting = (sayings.filterMap said).map value := by
  induction told with
  | nil => rfl
  | cons first _ ih =>
    rw [List.filterMap_cons, List.filterMap_cons, same _ _ first, ih]
    cases said _ <;> rfl

/-- A value that nothing below it shows through hides all that lies below. -/
theorem foldl_overlay {α : Type} {value : α → Value} (hides : ∀ below a, overlay below (value a) = value a)
    (said : List α) (fallback : α) :
    (said.map value).foldl overlay (value fallback) = value (said.getLastD fallback) := by
  induction said generalizing fallback with
  | nil => rfl
  | cons a said ih => rw [List.map_cons, List.foldl_cons, hides, ih, List.getLastD_cons]

theorem combine_says {α : Type} {value : α → Value} {setting : Layer → Option Value}
    {said : Saying → Option α}
    (same : ∀ layer saying, layer.Says saying → setting layer = (said saying).map value)
    (hides : ∀ below a, overlay below (value a) = value a) (told : List.Forall₂ Layer.Says layers sayings)
    (fallback : α) :
    combine layers setting (value fallback) = value ((sayings.filterMap said).getLastD fallback) := by
  rw [combine, filterMap_says same told, foldl_overlay hides]

theorem gather_lists {value : Value} {entries : List String} (lists : Lists value entries) (items : List Value) :
    gather items value = items ++ entries.map .string := by
  cases lists <;> rfl

theorem gather_says (told : List.Forall₂ Layer.Says layers sayings) (items : List Value) :
    (layers.filterMap (·.lenientNotifications)).foldl gather items =
      items ++ (sayings.filterMap Saying.lenientNotifications).flatten.map .string := by
  -- From the lowest layer up; `items` are those of the layers below.
  induction told generalizing items with
  | nil => exact (List.append_nil _).symm
  | @cons layer saying _ _ first _ ih =>
    have listed := first.lenientNotifications
    rcases given : layer.lenientNotifications with _ | value <;>
      rcases entered : saying.lenientNotifications with _ | entries <;>
      rw [given, entered] at listed
    · rw [List.filterMap_cons_none given, List.filterMap_cons_none entered, ih]
    · cases listed
    · cases listed
    · obtain ⟨lists⟩ := listed
      rw [List.filterMap_cons_some given, List.filterMap_cons_some entered, List.foldl_cons, ih,
        gather_lists lists, List.flatten_cons, List.map_append, List.append_assoc]

theorem strings_of_strings (entries : List String) :
    (entries.map Value.string).mapM Value.string? = some entries := by
  induction entries with
  | nil => rfl
  | cons entry entries ih =>
    rw [List.map_cons, List.mapM_cons, ih]
    rfl

theorem format_of_name (format : LogFormat) : format? (.string format.name) = some format := by
  cases format <;> rfl

theorem ofLayers_says (told : List.Forall₂ Layer.Says layers sayings) :
    ofLayers? layers = some
      { logFilter := (sayings.filterMap Saying.logFilter).getLastD "info"
        logFormat := (sayings.filterMap Saying.logFormat).getLastD .json
        traceMessages := (sayings.filterMap Saying.traceMessages).getLastD false
        lenientNotifications := (sayings.filterMap Saying.lenientNotifications).flatten } := by
  have filter := combine_says (fun _ _ said => said.logFilter) (fun below a => by cases below <;> rfl) told "info"
  have format := combine_says (fun _ _ said => said.logFormat) (fun below a => by cases below <;> rfl) told .json
  have traced := combine_says (fun _ _ said => said.traceMessages) (fun below a => by cases below <;> rfl) told false
  have lenient := gather_says told []
  simp only [ofLayers?, filter, format, traced, lenient, List.nil_append, strings_of_strings, format_of_name]
  rfl

end Layers

/-! Loading. -/

section Load

variable {s : Surroundings} {arguments : List String} {sources : Sources}

theorem load_of_faultless {given : Arguments} (h : Faultless s arguments given) :
    load s arguments = match ofLayers? (layersAround s given) with
      | some config => .ok config
      | none => .error .mismatch := by
  have faultless : (if (s.search (s.candidates given.configPath)).layers.isSome then []
      else (s.search (s.candidates given.configPath)).slight) = ([] : List LoadFault) := by
    cases found : (s.search (s.candidates given.configPath)).layers with
    | none => exact h.slight found
    | some layers => rfl
  simp only [load, h.read, Option.bind_some, h.grave, faultless, List.append_nil, List.isEmpty_nil, if_true]
  rfl

theorem load_of_presents (h : Presents s arguments sources) : load s arguments = .ok sources.config := by
  have told : List.Forall₂ Layer.Says (layersAround s sources.arguments) sources.sayings :=
    List.rel_append h.files (.cons h.environment (says_arguments _))
  rw [load_of_faultless h.faultless, ofLayers_says told]
  rfl

theorem lists_iff (sources : Sources) (method : String) :
    Named sources.config.lenientNotifications method ↔ sources.Lists method := by
  simp only [Sources.config, Sources.Lists, Named, List.mem_flatten, List.mem_filterMap]
  constructor
  · rintro ⟨entry, ⟨entries, ⟨saying, member, said⟩, listed⟩, same⟩
    exact ⟨saying, member, entries, said, entry, listed, same⟩
  · rintro ⟨saying, member, entries, said, entry, listed, same⟩
    exact ⟨entry, ⟨entries, ⟨saying, member, said⟩, listed⟩, same⟩

theorem Sources.Within.lists {others : Sources} (within : sources.Within others) {method : String}
    (listed : sources.Lists method) : others.Lists method := by
  obtain ⟨saying, member, entries, said, entry, listed, same⟩ := listed
  obtain ⟨other, there, more, told, kept⟩ := within saying member entries said
  exact ⟨other, there, more, told, entry, kept listed, same⟩

/-- What is loaded is what the highest source says, of the lenient notifications all of it. A method
is lenient exactly if some source lists it, and stays so when any of the lists grow. -/
theorem layered (h : Presents s arguments sources) : load s arguments = .ok sources.config ∧
    (∀ method, sources.config.policyFor method = .defaultWhenAbsent ↔ sources.Lists method) ∧
      ∀ {t : Surroundings} {further : List String} {others : Sources}, Presents t further others →
        sources.Within others → ∃ config, load t further = .ok config ∧
          ∀ method, sources.config.policyFor method = .defaultWhenAbsent →
            config.policyFor method = .defaultWhenAbsent := by
  have lenient (sources : Sources) (method : String) :
      sources.config.policyFor method = .defaultWhenAbsent ↔ sources.Lists method :=
    lenient_iff_named.trans (lists_iff sources method)
  refine ⟨load_of_presents h, lenient sources, fun presents within => ⟨_, load_of_presents presents, ?_⟩⟩
  exact fun method listed => (lenient _ method).mpr (within.lists ((lenient _ method).mp listed))

theorem presents_filed {text : String} {environment : List (String × String)} {newer older : Toml.Table}
    {saying : Saying}
    (first : Toml.read .v11 text = some newer) (second : Toml.read .v10 text = some older)
    (whole : (Toml.entriesToJson older).lookup "extends" = none)
    (file : (Layer.ofEntries (Toml.entriesToJson older)).Says saying) (only : sources.files = [saying])
    (around : (Layer.ofVariables (filed text environment).environment).Says sources.environment)
    (read : Arguments.read arguments = .ok sources.arguments) (free : sources.arguments.configPath = none) :
    Presents (filed text environment) arguments sources := by
  have found := search_of_finds (finds_filed text environment) rfl (readFile_of_read readable_toml first second) whole
  rw [← free] at found
  refine ⟨⟨read, congrArg Surroundings.Search.grave found, fun absent => ?_⟩, ?_, around⟩
  · cases (congrArg Surroundings.Search.layers found).symm.trans absent
  · rw [found, only]
    exact .cons file .nil

theorem read_traces : Toml.read .v11 "trace_messages = true" = some [("trace_messages", .boolean true)] ∧
    Toml.read .v10 "trace_messages = true" = some [("trace_messages", .boolean true)] := by
  refine ⟨?_, ?_⟩ <;> rfl

/-- Two lists are put together; the flag of the file does not count. -/
theorem layered_in_three :
    let s := filed "trace_messages = true" [("COURIER_LENIENT_NOTIFICATIONS", "e,f")]
    let arguments := ["--log-format=Compact", "--lenient-notifications", "c"]
    let sources : Sources :=
      { files := [{ traceMessages := some true }]
        environment := { lenientNotifications := some ["e", "f"] }
        arguments := { logFormat := some .compact, lenientNotifications := ["c"] } }
    Presents s arguments sources ∧ load s arguments = .ok ⟨"info", .compact, false, ["e", "f", "c"]⟩ := by
  intro s arguments sources
  have environment : Layer.ofVariables s.environment =
      { lenientNotifications := some (.array [.string "e", .string "f"]) } := by
    rfl
  have presents : Presents s arguments sources := by
    refine presents_filed read_traces.1 read_traces.2 rfl ⟨rfl, rfl, rfl, .none⟩ rfl ?_ rfl rfl
    rw [environment]
    exact ⟨rfl, rfl, rfl, .some (@Lists.array ["e", "f"])⟩
  exact ⟨presents, (layered presents).1⟩

/-- A file alone sets the flag, and it is not set. -/
theorem flag_of_file_ignored :
    let sources : Sources := ⟨[{ traceMessages := some true }], {}, {}⟩
    Presents (filed "trace_messages = true" []) [] sources ∧
      load (filed "trace_messages = true" []) [] = .ok { traceMessages := false } := by
  intro sources
  have presents : Presents (filed "trace_messages = true" []) [] sources :=
    presents_filed read_traces.1 read_traces.2 rfl ⟨rfl, rfl, rfl, .none⟩ rfl ⟨rfl, rfl, rfl, .none⟩ rfl rfl
  exact ⟨presents, load_of_presents presents⟩

end Load

end Config
end LanguageClient
