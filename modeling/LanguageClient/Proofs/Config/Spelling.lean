import LanguageClient.Proofs.Config.Layering
import LanguageClient.Proofs.Config.Variables

/-! What a text means that is given as the only setting, by a file, a variable or the command line.

As a filter it is taken as it is, but a variable guesses at what it holds. As a format it must be a
name; only the command line does not look at its case.
-/

set_option autoImplicit false
namespace LanguageClient

open Json (Value)

def LogFormat.ofName? (text : String) : Option LogFormat := all.find? (·.name == text)

namespace Config

/-- The settings that hold a text. -/
inductive Setting where
  | logFilter
  | logFormat
  deriving DecidableEq

namespace Setting

def key : Setting → String
  | logFilter => "log_filter"
  | logFormat => "log_format"

def variableName : Setting → String
  | logFilter => "COURIER_LOG_FILTER"
  | logFormat => "COURIER_LOG_FORMAT"

def switch : Setting → Switch
  | logFilter => .logFilter
  | logFormat => .logFormat

def argument (setting : Setting) (text : String) : String := "--" ++ setting.switch.long ++ "=" ++ text

def layer (value : Value) : Setting → Layer
  | logFilter => { logFilter := some value }
  | logFormat => { logFormat := some value }

def config? (value : Value) : Setting → Option Config
  | logFilter => value.string?.map fun text => { logFilter := text }
  | logFormat => (format? value).map fun format => { logFormat := format }

end Setting

def orFault (fault : LoadFault) : Option Config → Except LoadFault Config
  | some config => .ok config
  | none => .error fault

inductive Source where
  | file
  | environment
  | commandLine
  deriving DecidableEq

namespace Source

def value? (source : Source) (setting : Setting) (text : String) : Option Value :=
  match source, setting with
  | file, _ => some (.string text)
  | environment, _ => some (ofVariable text)
  | commandLine, .logFilter => some (.string text)
  | commandLine, .logFormat => (LogFormat.ofText? text).map fun format => .string format.name

/-- The format that a source takes a text for. Blanks around the text of a variable do not count. -/
def format? (source : Source) (text : String) : Option LogFormat :=
  match source with
  | file => LogFormat.ofName? text
  | environment => LogFormat.ofName? (Text.trim text)
  | commandLine => LogFormat.ofText? text

def fault : Source → LoadFault
  | commandLine => .arguments .badValue
  | _ => .mismatch

end Source

/-- Variables that say nothing about the settings. -/
structure Silent (environment : List (String × String)) : Prop where
  layer : Layer.ofVariables environment = {}

/-- A source gives a text for a setting, and nothing else is said about the settings. -/
inductive Gives (setting : Setting) (text : String) : Source → Surroundings → List String → Prop where
  | file {s : Surroundings} {arguments : List String} {path : Option String} {location : Location}
      {document : String} {entries : Toml.Table} :
      Arguments.read arguments = .ok { configPath := path } → s.Finds path location → location.Readable →
      s.tree.text? location = some document → Toml.read .v11 document = some entries →
      Toml.read .v10 document = some [(setting.key, .string text)] → Silent s.environment →
      Gives setting text .file s arguments
  | environment {s : Surroundings} {sooner later : List (String × String)} :
      s.FindsNone → s.environment = sooner ++ (setting.variableName, text) :: later → Silent sooner → Silent later →
      Gives setting text .environment s []
  | commandLine {s : Surroundings} :
      s.FindsNone → Silent s.environment → Gives setting text .commandLine s [setting.argument text]

/-! Layers. -/

section Layers

theorem ofLayers_only (setting : Setting) (value : Value) {layers : List Layer}
    (filter : layers.filterMap (·.logFilter) = (setting.layer value).logFilter.toList)
    (format : layers.filterMap (·.logFormat) = (setting.layer value).logFormat.toList)
    (traced : layers.filterMap (·.traceMessages) = [.boolean false])
    (lenient : layers.filterMap (·.lenientNotifications) = []) :
    ofLayers? layers = setting.config? value := by
  have hides (text : String) : overlay (.string text) value = value := by cases value <;> rfl
  have fallback : format? (.string ({} : Config).logFormat.name) = some .json := rfl
  cases setting with
  | logFilter =>
    simp only [ofLayers?, combine, filter, format, traced, lenient]
    simp only [Setting.layer, Option.toList, List.foldl_cons, List.foldl_nil, hides, fallback, Setting.config?]
    cases value.string? <;> rfl
  | logFormat =>
    simp only [ofLayers?, combine, filter, format, traced, lenient]
    simp only [Setting.layer, Option.toList, List.foldl_cons, List.foldl_nil, hides, Setting.config?]
    cases format? value <;> rfl

theorem entryOf?_variable (setting : Setting) (text : String) :
    entryOf? (setting.variableName, text) = some (setting.key, ofVariable text) := by
  have path : pathOf? setting.variableName = some [setting.key] := by cases setting <;> rfl
  simp only [entryOf?, path, bind, Option.bind, List.foldr_nil, pure]

theorem layer_of_entries {sooner later : List (String × Value)} (first : Layer.ofEntries sooner = {})
    (last : Layer.ofEntries later = {}) (setting : Setting) (value : Value) :
    Layer.ofEntries (later ++ (setting.key, value) :: sooner) = setting.layer value := by
  have only {name : String} (first : sooner.lookup name = none) (last : later.lookup name = none) :
      (later ++ (setting.key, value) :: sooner).lookup name = if name == setting.key then some value else none := by
    rw [List.lookup_append, last, Option.none_or, List.lookup_cons, first]
    cases name == setting.key <;> rfl
  obtain ⟨filter, format, traced, lenient⟩ := Layer.mk.inj first
  obtain ⟨filter', format', traced', lenient'⟩ := Layer.mk.inj last
  rw [Layer.ofEntries, only filter filter', only format format', only traced traced', only lenient lenient']
  cases setting <;> rfl

theorem layer_of_variable {sooner later : List (String × String)} (first : Silent sooner) (last : Silent later)
    (setting : Setting) (text : String) :
    Layer.ofVariables (sooner ++ (setting.variableName, text) :: later) = setting.layer (ofVariable text) := by
  have entries : ((sooner ++ (setting.variableName, text) :: later).filterMap entryOf?).reverse =
      (later.filterMap entryOf?).reverse ++
        (setting.key, ofVariable text) :: (sooner.filterMap entryOf?).reverse := by
    rw [List.filterMap_append, List.filterMap_cons_some (entryOf?_variable setting text), List.reverse_append,
      List.reverse_cons, List.append_assoc, List.singleton_append]
  rw [Layer.ofVariables, entries, layer_of_entries first.layer last.layer]

theorem layer_of_entry (setting : Setting) (text : String) :
    Layer.ofEntries (Toml.entriesToJson [(setting.key, .string text)]) = setting.layer (.string text) := by
  cases setting <;> rfl

end Layers

/-! Formats. -/

section Formats

variable {text : String}

theorem ofName?_name (format : LogFormat) : LogFormat.ofName? format.name = some format := by
  cases format <;> rfl

theorem eq_of_ofName? {format : LogFormat} (named : LogFormat.ofName? text = some format) : text = format.name := by
  have same := List.find?_some (p := fun format : LogFormat => format.name == text) named
  exact (beq_iff_eq.mp same).symm

theorem format_of_string (text : String) : format? (.string text) = LogFormat.ofName? text := by
  cases named : LogFormat.ofName? text with
  | some format =>
    rw [eq_of_ofName? named, format_of_name]
  | none =>
    have unnamed : (LogFormat.all.map LogFormat.name).idxOf? text = none := by
      rw [List.idxOf?_eq_none_iff, List.mem_map]
      rintro ⟨format, -, rfl⟩
      cases (ofName?_name format).symm.trans named
    have decoded : LogFormat.schema.decode (.string text) =
        Schema.decodeVariant (LogFormat.all.map LogFormat.name) text := rfl
    rw [format?, decoded, Schema.decodeVariant, unnamed]
    rfl

theorem not_guessed_name (format : LogFormat) : ¬ Guessed format.name := by
  have comma : ',' ∉ format.name.toList := by cases format <;> decide
  have flag : ¬ (Text.lowerAscii format.name = "true" ∨ Text.lowerAscii format.name = "false") := by
    cases format <;> decide
  have number : (format.name.toList.all fun c => decide (Text.InNumber c)) = false := by cases format <;> decide
  have closed : opens format.name.toList = false := by cases format <;> decide
  rintro (⟨listed, -⟩ | flagged | numeric | enclosed)
  · exact comma listed
  · exact flag flagged
  · have digits : (format.name.toList.all fun c => decide (Text.InNumber c)) = true :=
      List.all_eq_true.mpr fun c member => decide_eq_true (inNumber_of_numeric numeric c member)
    cases number.symm.trans digits
  · cases closed.symm.trans enclosed.opens

theorem trimmed_name (format : LogFormat) : Text.Trimmed format.name := by
  cases format <;> rfl

theorem format_of_variable (bare : ¬ Enclosed (Text.trim text)) :
    format? (ofVariable text) = LogFormat.ofName? (Text.trim text) := by
  have inner := Text.trimmed_trim text
  rw [← ofVariable_trim]
  by_cases guessed : Guessed (Text.trim text)
  · rcases ofVariable_of_guessed inner guessed with foreign | ⟨enclosed, -⟩
    · rw [foreign.format]
      cases named : LogFormat.ofName? (Text.trim text) with
      | none => rfl
      | some format => exact absurd (eq_of_ofName? named ▸ guessed) (not_guessed_name format)
    · exact absurd enclosed bare
  · rw [ofVariable_of_not_guessed inner guessed, format_of_string]

end Formats

/-! Loading. -/

theorem readLong_value (a : Arguments) {switch : Switch} (takes : switch.takesValue = true) (value : List Char) :
    a.readLong none (switch.long.toList ++ '=' :: value) =
      (a.set switch (.ofList value)).map fun a => (a, none) := by
  cases switch with
  | logFilter => rfl
  | logFormat => rfl
  | lenientNotifications => rfl
  | configPath => rfl
  | traceMessages => cases takes
  | help => cases takes

theorem read_value {switch : Switch} (takes : switch.takesValue = true) (value : String) :
    Arguments.read ["--" ++ switch.long ++ "=" ++ value] = Arguments.set {} switch value := by
  have chars : ("--" ++ switch.long ++ "=" ++ value).toList =
      '-' :: '-' :: (switch.long.toList ++ '=' :: value.toList) := by
    simp
  obtain ⟨c, rest, behind⟩ : ∃ c rest, switch.long.toList ++ '=' :: value.toList = c :: rest :=
    List.exists_cons_of_ne_nil (by simp)
  have step : Arguments.read ["--" ++ switch.long ++ "=" ++ value] =
      (Arguments.readLong {} none (switch.long.toList ++ '=' :: value.toList)).bind
        fun next => next.1.readFrom next.2 [] := by
    rw [Arguments.read, Arguments.readFrom.eq_def]
    dsimp only
    rw [chars, behind]
    rfl
  rw [step, readLong_value {} takes, String.ofList_toList]
  cases Arguments.set {} switch value <;> rfl

section Load

variable {s : Surroundings} {arguments : List String} {setting : Setting} {text : String}

theorem load_layers {given : Arguments} (h : Faultless s arguments given) {layers : List Layer}
    (around : layersAround s given = layers) : load s arguments = orFault .mismatch (ofLayers? layers) := by
  rw [load_of_faultless h, around]
  cases ofLayers? layers <;> rfl

theorem load_fileless {given : Arguments} (nowhere : s.FindsNone) (read : Arguments.read arguments = .ok given)
    (free : given.configPath = none) :
    load s arguments = orFault .mismatch (ofLayers? (Layer.ofVariables s.environment :: given.layer?.toList)) := by
  have found := search_of_findsNone nowhere
  rw [← free] at found
  refine load_layers ⟨read, congrArg Surroundings.Search.grave found, fun _ => ?_⟩ ?_
  · exact congrArg Surroundings.Search.slight found
  · rw [layersAround, found]
    rfl

theorem load_file {path : Option String} {location : Location} {document : String} {entries : Toml.Table}
    (read : Arguments.read arguments = .ok { configPath := path }) (finds : s.Finds path location)
    (readable : location.Readable) (there : s.tree.text? location = some document)
    (newer : Toml.read .v11 document = some entries)
    (older : Toml.read .v10 document = some [(setting.key, .string text)]) (silent : Silent s.environment) :
    load s arguments = orFault .mismatch (setting.config? (.string text)) := by
  have whole : (Toml.entriesToJson [(setting.key, .string text)]).lookup "extends" = none := by cases setting <;> rfl
  have found := search_of_finds finds there (readFile_of_read readable newer older) whole
  rw [layer_of_entry] at found
  have faultless : Faultless s arguments { configPath := path } := by
    refine ⟨read, congrArg Surroundings.Search.grave found, fun absent => ?_⟩
    cases (congrArg Surroundings.Search.layers found).symm.trans absent
  have other : { configPath := path } ≠ Arguments.redundant := fun same => by
    cases congrArg Arguments.logFilter same
  have layers : layersAround s { configPath := path } =
      [setting.layer (.string text), {}, { traceMessages := some (.boolean false) }] := by
    rw [layersAround, found, silent.layer, Arguments.layer?, if_neg other]
    rfl
  rw [load_layers faultless layers]
  apply congrArg (orFault .mismatch)
  apply ofLayers_only <;> cases setting <;> rfl

theorem load_environment {sooner later : List (String × String)} (nowhere : s.FindsNone)
    (holds : s.environment = sooner ++ (setting.variableName, text) :: later) (first : Silent sooner)
    (last : Silent later) : load s [] = orFault .mismatch (setting.config? (ofVariable text)) := by
  have read : Arguments.read [] = .ok {} := rfl
  rw [load_fileless nowhere read rfl, holds, layer_of_variable first last]
  apply congrArg (orFault .mismatch)
  apply ofLayers_only <;> cases setting <;> rfl

theorem load_argument {given : Arguments} {value : Value} (nowhere : s.FindsNone) (silent : Silent s.environment)
    (read : Arguments.read arguments = .ok given) (free : given.configPath = none)
    (layer : given.layer? = some { setting.layer value with traceMessages := some (.boolean false) }) :
    load s arguments = orFault .mismatch (setting.config? value) := by
  rw [load_fileless nowhere read free, silent.layer, layer]
  apply congrArg (orFault .mismatch)
  apply ofLayers_only <;> cases setting <;> rfl

theorem load_unread {fault : ArgumentFault} (nowhere : s.FindsNone) (silent : Silent s.environment)
    (unread : Arguments.read arguments = .error fault) : load s arguments = .error (.arguments fault) := by
  have found := search_of_findsNone nowhere
  simp only [load, unread, Option.bind_none, found, silent.layer]
  rfl

theorem load_filter_argument (nowhere : s.FindsNone) (silent : Silent s.environment) :
    load s [Setting.logFilter.argument text] = .ok { logFilter := text } := by
  have read : Arguments.read [Setting.logFilter.argument text] = .ok { logFilter := some text } :=
    @read_value .logFilter rfl text
  have other : { logFilter := some text } ≠ Arguments.redundant := fun same => by
    cases congrArg Arguments.logFormat same
  exact @load_argument s _ .logFilter _ (.string text) nowhere silent read rfl (if_neg other)

theorem load_format_argument (nowhere : s.FindsNone) (silent : Silent s.environment) :
    load s [Setting.logFormat.argument text] =
      orFault (.arguments .badValue) ((LogFormat.ofText? text).map fun format => { logFormat := format }) := by
  have set : Arguments.read [Setting.logFormat.argument text] = Arguments.set {} .logFormat text :=
    @read_value .logFormat rfl text
  simp only [Arguments.set, Option.isSome_none, Bool.false_eq_true, if_false] at set
  cases named : LogFormat.ofText? text with
  | none =>
    rw [named] at set
    exact load_unread nowhere silent set
  | some format =>
    rw [named] at set
    have other : { logFormat := some format } ≠ Arguments.redundant := fun same => by
      cases congrArg Arguments.logFilter same
    rw [@load_argument s _ .logFormat _ (.string format.name) nowhere silent set rfl (if_neg other), Setting.config?,
      format_of_name]
    rfl

theorem load_of_gives {source : Source} (given : Gives setting text source s arguments) :
    load s arguments =
      orFault source.fault ((source.value? setting text).bind fun value => setting.config? value) := by
  cases given with
  | file read finds readable there newer older silent =>
    exact load_file read finds readable there newer older silent
  | environment nowhere holds first last => exact load_environment nowhere holds first last
  | commandLine nowhere silent =>
    cases setting with
    | logFilter => exact load_filter_argument nowhere silent
    | logFormat =>
      rw [load_format_argument nowhere silent, Source.value?]
      cases LogFormat.ofText? text with
      | none => rfl
      | some format =>
        rw [Option.map_some, Option.map_some, Option.bind_some, Setting.config?, format_of_name]
        rfl

end Load

/-! Every text can be given. -/

def bare (environment : List (String × String)) : Surroundings where
  tree := ⟨[], []⟩
  workingDirectory := []
  environment := environment

theorem findsNone_bare {environment : List (String × String)}
    (candidates : (bare environment).candidates none = [("/.courier.toml", false)]) :
    (bare environment).FindsNone := by
  have astray : (bare environment).tree.locate (bare environment).workingDirectory "/.courier.toml" = .missing := by
    cbv
  intro candidate member
  rw [candidates, List.mem_singleton] at member
  rw [member]
  exact ⟨rfl, astray⟩

theorem candidates_bare (setting : Setting) (text : String) :
    (bare [(setting.variableName, text)]).candidates none = [("/.courier.toml", false)] := by
  cases setting <;> cbv

theorem bare_key (setting : Setting) : Toml.Bare setting.key := by
  cases setting
  · exact ⟨by decide, List.all_eq_true.mp (by decide)⟩
  · exact ⟨by decide, List.all_eq_true.mp (by decide)⟩

theorem gives_filed {setting : Setting} {text document : String} {entries : Toml.Table}
    (newer : Toml.read .v11 document = some entries)
    (older : Toml.read .v10 document = some [(setting.key, .string text)]) :
    Gives setting text .file (filed document []) [] :=
  .file rfl (finds_filed document []) readable_toml rfl newer older ⟨rfl⟩

theorem gives_line (setting : Setting) (text : String) :
    Gives setting text .file (filed (Toml.entryLine setting.key text) []) [] := by
  have read (edition : Toml.Edition) {room : Nat} (names : edition.names = room + 1) :
      Toml.read edition (Toml.entryLine setting.key text) = some [(setting.key, .string text)] :=
    Toml.read_entryLine (bare_key setting) names text
  exact gives_filed (read .v11 rfl) (read .v10 rfl)

theorem gives_variable (setting : Setting) (text : String) :
    Gives setting text .environment (bare [(setting.variableName, text)]) [] :=
  @Gives.environment setting text _ [] [] (findsNone_bare (candidates_bare setting text)) rfl ⟨rfl⟩ ⟨rfl⟩

theorem gives_argument (setting : Setting) (text : String) :
    Gives setting text .commandLine (bare []) [setting.argument text] :=
  have nowhere : (bare []).FindsNone := findsNone_bare (by cbv)
  .commandLine nowhere ⟨rfl⟩

theorem gives_alone (setting : Setting) (text : String) (source : Source) :
    ∃ s arguments, Gives setting text source s arguments := by
  cases source with
  | file => exact ⟨_, _, gives_line setting text⟩
  | environment => exact ⟨_, _, gives_variable setting text⟩
  | commandLine => exact ⟨_, _, gives_argument setting text⟩

section Texts

variable {source : Source} {s : Surroundings} {arguments : List String} {text : String}

theorem filter_alone (given : Gives .logFilter text source s arguments) :
    load s arguments = .ok { logFilter := text } ↔ (source = .environment → Text.Trimmed text ∧ ¬ Guessed text) := by
  rw [load_of_gives given]
  cases source with
  | file => exact ⟨fun _ other => (nomatch other), fun _ => rfl⟩
  | commandLine => exact ⟨fun _ other => (nomatch other), fun _ => rfl⟩
  | environment =>
    rw [Source.value?, Option.bind_some]
    refine ⟨fun loaded _ => (ofVariable_iff text).mp ?_, fun whole => ?_⟩
    · cases value : ofVariable text with
      | string s =>
        rw [value] at loaded
        exact congrArg Value.string (congrArg Config.logFilter (Except.ok.inj loaded))
      | _ =>
        rw [value] at loaded
        cases loaded
    · rw [(ofVariable_iff text).mpr (whole rfl)]
      rfl

theorem guess_alone (given : Gives .logFilter text .environment s arguments) (guessed : Guessed (Text.trim text))
    (closed : ¬ Enclosed (Text.trim text)) : load s arguments = .error .mismatch := by
  rcases ofVariable_of_guessed (Text.trimmed_trim text) guessed with foreign | ⟨enclosed, -⟩
  · rw [load_of_gives given, Source.value?, Option.bind_some, Setting.config?, ← ofVariable_trim, foreign.string]
    rfl
  · exact absurd enclosed closed

theorem format_alone (given : Gives .logFormat text source s arguments)
    (closed : source = .environment → ¬ Enclosed (Text.trim text)) :
    load s arguments = orFault source.fault ((source.format? text).map fun format => { logFormat := format }) := by
  rw [load_of_gives given]
  cases source with
  | file => rw [Source.value?, Option.bind_some, Setting.config?, format_of_string, Source.format?]
  | environment =>
    rw [Source.value?, Option.bind_some, Setting.config?, format_of_variable (closed rfl), Source.format?]
  | commandLine =>
    rw [Source.value?, Source.format?]
    cases LogFormat.ofText? text with
    | none => rfl
    | some format =>
      rw [Option.map_some, Option.map_some, Option.bind_some, Setting.config?, format_of_name, Option.map_some]

theorem name_alone {format : LogFormat} (same : text = format.name)
    (given : Gives .logFormat text source s arguments) : load s arguments = .ok { logFormat := format } := by
  subst same
  have closed : ¬ Enclosed (Text.trim format.name) := by
    rw [show Text.trim format.name = format.name from trimmed_name format]
    exact fun enclosed => not_guessed_name format (.enclosed enclosed)
  have named : source.format? format.name = some format := by
    cases source <;> cases format <;> rfl
  rw [format_alone given fun _ => closed, named]
  rfl

/-- What a text means as the only setting. -/
structure Meaning (text : String) : Prop where
  /-- Any source can give the text. -/
  given : ∀ setting source, ∃ s arguments, Gives setting text source s arguments
  /-- The source makes a value of it, and the settings are that value's. -/
  value : ∀ {setting source s arguments}, Gives setting text source s arguments →
    load s arguments =
      orFault source.fault ((source.value? setting text).bind fun value => setting.config? value)
  /-- A filter is the text as it is; a variable must have no blanks around it, and nothing to guess. -/
  filter : ∀ {source s arguments}, Gives .logFilter text source s arguments →
    (load s arguments = .ok { logFilter := text } ↔ (source = .environment → Text.Trimmed text ∧ ¬ Guessed text))
  /-- A guess is refused, unless it is what brackets or quotes enclose. -/
  guess : ∀ {s arguments}, Gives .logFilter text .environment s arguments → Guessed (Text.trim text) →
    ¬ Enclosed (Text.trim text) → load s arguments = .error .mismatch
  /-- A format is a name, and only the command line does not look at its case. -/
  format : ∀ {source s arguments}, Gives .logFormat text source s arguments →
    (source = .environment → ¬ Enclosed (Text.trim text)) →
      load s arguments = orFault source.fault ((source.format? text).map fun format => { logFormat := format })
  /-- A name as it is stands for its format everywhere. -/
  name : ∀ {format : LogFormat} {source s arguments}, text = format.name →
    Gives .logFormat text source s arguments → load s arguments = .ok { logFormat := format }

theorem meaning_alone (text : String) : Meaning text where
  given setting source := gives_alone setting text source
  value := load_of_gives
  filter := filter_alone
  guess := guess_alone
  format := format_alone
  name := name_alone

/-- A filter of two directives is what a file says, and is refused in a variable. -/
theorem directives_alone :
    let text := "courier_lsp::wire=info,warn"
    let line := filed (Toml.entryLine "log_filter" text) []
    let held := bare [("COURIER_LOG_FILTER", text)]
    (Gives .logFilter text .file line [] ∧ load line [] = .ok { logFilter := text }) ∧
      Gives .logFilter text .environment held [] ∧ load held [] = .error .mismatch := by
  intro text line held
  have file : Gives .logFilter text .file line [] := gives_line .logFilter text
  have holds : Gives .logFilter text .environment held [] := gives_variable .logFilter text
  have begins : opens (Text.trim text).toList = false := by decide
  have closed : ¬ Enclosed (Text.trim text) := fun enclosed => by cases begins.symm.trans enclosed.opens
  have guessed : Guessed (Text.trim text) := .list (by decide) begins
  refine ⟨⟨file, ((meaning_alone text).filter file).mpr fun other => (nomatch other)⟩, holds, ?_⟩
  exact (meaning_alone text).guess holds guessed closed

/-- A format in capitals, which the command line takes, is refused in a file. -/
theorem capitals_refused :
    let line := filed "log_format = \"COMPACT\"" []
    LogFormat.ofText? "COMPACT" = some .compact ∧
      (Gives .logFormat "COMPACT" .commandLine (bare []) ["--log-format=COMPACT"] ∧
        load (bare []) ["--log-format=COMPACT"] = .ok { logFormat := .compact }) ∧
      Gives .logFormat "COMPACT" .file line [] ∧ load line [] = .error .mismatch := by
  intro line
  have argument : Gives .logFormat "COMPACT" .commandLine (bare []) ["--log-format=COMPACT"] :=
    gives_argument .logFormat "COMPACT"
  have newer : Toml.read .v11 "log_format = \"COMPACT\"" = some [("log_format", .string "COMPACT")] := by rfl
  have older : Toml.read .v10 "log_format = \"COMPACT\"" = some [("log_format", .string "COMPACT")] := by rfl
  have file : Gives .logFormat "COMPACT" .file line [] := gives_filed newer older
  refine ⟨rfl, ⟨argument, ?_⟩, file, ?_⟩
  · rw [load_of_gives argument]
    rfl
  · rw [load_of_gives file]
    rfl

end Texts

end Config
end LanguageClient
