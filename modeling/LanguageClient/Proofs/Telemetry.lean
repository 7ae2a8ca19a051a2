import LanguageClient.Proofs.Log.Filter
import LanguageClient.Session.Trace
import LanguageClient.Telemetry

/-! What the tracing of messages adds to a filter.

The rule of the wire target comes after those of the text. It touches no event of any other target.
On the wire target it gives way to nothing but a directive for this very target that picks events by
a field: such a one ranks above it, and decides about the events that have the field.
-/

set_option autoImplicit false
namespace LanguageClient

open Log (Directive Filter Rule Site Target Threshold)
open Log.Filter (prevail)

namespace Log.Directive

def narrows (d : Directive) (site : Site) : Bool :=
  decide (d.target = some Target.wire.name) && d.span.isNone &&
    match d.field with
    | some (name, none) => site.fields.contains name
    | _ => false

def fieldName (d : Directive) : String := (d.field.map Prod.fst).getD ""

/-- Of two directives with a field: the one whose field comes later in the order of names, else the
one that is written later. -/
def latter (best : Option Directive) (d : Directive) : Option Directive :=
  match best with
  | some other => if d.fieldName < other.fieldName then best else some d
  | none => some d

/-- The directive that decides about an event of the wire target in place of the tracing. -/
def deciding (directives : List Directive) (site : Site) : Option Directive :=
  (directives.filter (·.narrows site)).foldl latter none

theorem latter_eq (best : Option Directive) (d : Directive) : latter best d = best ∨ latter best d = some d := by
  unfold latter
  split
  · split
    · exact .inl rfl
    · exact .inr rfl
  · exact .inr rfl

theorem mem_latter {directives : List Directive} {best : Option Directive} {d : Directive}
    (decides : directives.foldl latter best = some d) : d ∈ directives ∨ best = some d := by
  induction directives generalizing best with
  | nil => exact .inr decides
  | cons first rest ih =>
    rcases ih decides with later | now
    · exact .inl (List.mem_cons_of_mem _ later)
    · rcases latter_eq best first with kept | taken
      · exact .inr (kept.symm.trans now)
      · cases taken.symm.trans now
        exact .inl List.mem_cons_self

theorem narrows_of_deciding {directives : List Directive} {site : Site} {d : Directive}
    (decides : deciding directives site = some d) : d ∈ directives ∧ d.narrows site = true := by
  rcases mem_latter decides with member | nothing
  · exact List.mem_filter.mp member
  · cases nothing

end Log.Directive

section Rank

variable {rule other : Rule} {site : Site}

theorem size_of_prefix {front text : String} (starts : front.isPrefixOf text = true) :
    front.utf8ByteSize ≤ text.utf8ByteSize ∧ (front.utf8ByteSize = text.utf8ByteSize → front = text) := by
  obtain ⟨rest, split⟩ := String.startsWith_string_iff.mp starts
  obtain rfl : front ++ String.ofList rest = text := by
    apply String.toList_inj.mp
    simpa using split
  rw [String.utf8ByteSize_append]
  refine ⟨Nat.le_add_right _ _, fun level => ?_⟩
  have empty : String.ofList rest = "" := String.utf8ByteSize_eq_zero_iff.mp (by omega)
  rw [empty, String.append_empty]

theorem wireRule_applies (at_wire : site.target = Target.wire.name) : wireRule.applies site = true := by
  have starts : Target.wire.name.isPrefixOf site.target = true := by
    rw [at_wire]
    exact String.startsWith_string_iff.mpr (List.prefix_refl _)
  simpa [Rule.applies, wireRule] using starts

/-- Of the rules that apply on the wire target only those for this very target that have a field rank
above the rule of the tracing. -/
theorem above_wireRule (at_wire : site.target = Target.wire.name) (applies : rule.applies site = true) :
    wireRule.rank < rule.rank ↔ rule.target = some Target.wire.name ∧ rule.field.isSome = true := by
  rw [← Rule.outranks_iff]
  obtain ⟨target, field, threshold⟩ := rule
  cases target with
  | none => simp [Rule.outranks, Rule.targetLength, wireRule]
  | some target =>
    obtain ⟨bounded, whole⟩ : target.utf8ByteSize ≤ Target.wire.name.utf8ByteSize ∧ _ := by
      apply size_of_prefix
      simp_all [Rule.applies]
    by_cases same : target = Target.wire.name
    · cases field <;> simp [Rule.outranks, Rule.targetLength, wireRule, same]
    · have shorter : target.utf8ByteSize < Target.wire.name.utf8ByteSize :=
        Nat.lt_of_le_of_ne bounded fun level => same (whole level)
      have apart : target.utf8ByteSize ≠ Target.wire.name.utf8ByteSize := Nat.ne_of_lt shorter
      have behind : ¬ Target.wire.name.utf8ByteSize < target.utf8ByteSize := Nat.not_lt.mpr bounded
      simp [Rule.outranks, Rule.targetLength, wireRule, same, apart, behind]

def precedes (site : Site) (rule : Rule) : Bool := rule.applies site && decide (wireRule.rank < rule.rank)

theorem precedes_ofDirective (at_wire : site.target = Target.wire.name) {d : Directive}
    (made : Rule.ofDirective? d = some rule) : precedes site rule = d.narrows site := by
  obtain ⟨target, span, field, threshold⟩ := d
  unfold Rule.ofDirective? at made
  split at made
  · rename_i unspanned unfielded
    cases made
    have below : precedes site ⟨target, none, threshold⟩ = false := by
      cases applies : Rule.applies ⟨target, none, threshold⟩ site with
      | false => simp [precedes, applies]
      | true =>
        have lower := mt (above_wireRule at_wire applies).mp (by simp)
        simp [precedes, lower]
    simp_all [Directive.narrows]
  · -- With a field it does so where its target is the wire target, and its field is there if it applies.
    rename_i name unspanned fielded
    cases made
    simp only at unspanned fielded
    subst unspanned fielded
    cases applies : Rule.applies ⟨target, some name, threshold⟩ site with
    | true =>
      have higher := above_wireRule at_wire applies
      have has : site.fields.contains name = true := by simp_all [Rule.applies]
      simp_all [precedes, Directive.narrows]
    | false =>
      have starts := wireRule_applies at_wire
      have lacks : target = some Target.wire.name → site.fields.contains name = false := by
        rintro rfl
        simp_all [Rule.applies, wireRule]
      simp_all [precedes, Directive.narrows]
  · cases made

/-- Two rules that go before the rule of the tracing differ in their fields only. -/
theorem rank_lt_of_narrows {d e : Directive} (first : d.narrows site = true) (second : e.narrows site = true)
    (made : Rule.ofDirective? d = some rule) (remade : Rule.ofDirective? e = some other) :
    rule.rank < other.rank ↔ d.fieldName < e.fieldName := by
  obtain ⟨target, span, field, threshold⟩ := d
  obtain ⟨target', span', field', threshold'⟩ := e
  simp only [Directive.narrows, Bool.and_eq_true, decide_eq_true_eq, Option.isNone_iff_eq_none] at first second
  obtain ⟨⟨rfl, rfl⟩, fielded⟩ := first
  obtain ⟨⟨rfl, rfl⟩, fielded'⟩ := second
  split at fielded
  · split at fielded'
    · cases made
      cases remade
      rw [← Rule.outranks_iff]
      simp [Rule.outranks, Rule.targetLength, Directive.fieldName]
    · cases fielded'
  · cases fielded

theorem made_of_narrows {d : Directive} (narrows : d.narrows site = true) :
    ∃ rule, Rule.ofDirective? d = some rule ∧ rule.threshold = d.threshold := by
  obtain ⟨target, span, field, threshold⟩ := d
  simp only [Directive.narrows, Bool.and_eq_true, Option.isNone_iff_eq_none] at narrows
  obtain ⟨⟨-, rfl⟩, fielded⟩ := narrows
  split at fielded
  · exact ⟨_, rfl, rfl⟩
  · cases fielded

end Rank

section Deciding

variable {directives : List Directive} {site : Site}

/-- Among the rules of some directives that go before the rule of the tracing, the one prevails that
is made of the directive that decides. -/
theorem prevail_directives (at_wire : site.target = Target.wire.name) (directives : List Directive)
    {best : Option Directive} (narrow : ∀ d ∈ best, d.narrows site = true) :
    (directives.filterMap Rule.ofDirective?).foldl (prevail (precedes site)) (best.bind Rule.ofDirective?) =
      ((directives.filter (·.narrows site)).foldl Directive.latter best).bind Rule.ofDirective? := by
  induction directives generalizing best with
  | nil => rfl
  | cons d rest ih =>
    cases narrows : d.narrows site with
    | false =>
      rw [List.filter_cons_of_neg (by simp [narrows])]
      cases made : Rule.ofDirective? d with
      | none => rw [List.filterMap_cons_none made, ih narrow]
      | some rule =>
        have passed : prevail (precedes site) (best.bind Rule.ofDirective?) rule = best.bind Rule.ofDirective? := by
          simp [prevail, precedes_ofDirective at_wire made, narrows]
        rw [List.filterMap_cons_some made, List.foldl_cons, passed, ih narrow]
    | true =>
      -- It takes part in both folds, and in either the order of the field names decides.
      obtain ⟨rule, made, -⟩ := made_of_narrows narrows
      have prevailing : prevail (precedes site) (best.bind Rule.ofDirective?) rule =
          (Directive.latter best d).bind Rule.ofDirective? := by
        cases best with
        | none => simp [prevail, Directive.latter, precedes_ofDirective at_wire made, narrows, made]
        | some other =>
          have narrow := narrow other rfl
          obtain ⟨rule', made', -⟩ := made_of_narrows narrow
          have order := rank_lt_of_narrows narrows narrow made made'
          by_cases earlier : d.fieldName < other.fieldName <;>
            simp [prevail, Directive.latter, precedes_ofDirective at_wire made, narrows, made, made', order, earlier]
      have still : ∀ e ∈ Directive.latter best d, e.narrows site = true := by
        intro e member
        rcases Directive.latter_eq best d with kept | taken
        · exact narrow e (kept ▸ member)
        · cases taken.symm.trans member
          exact narrows
      have kept : (d :: rest).filter (·.narrows site) = d :: rest.filter (·.narrows site) :=
        List.filter_cons_of_pos narrows
      rw [kept, List.filterMap_cons_some made, List.foldl_cons, List.foldl_cons, prevailing, ih still]

theorem found_above (at_wire : site.target = Target.wire.name) (directives : List Directive) :
    ((Filter.ofDirectives directives).rules.find? (·.applies site)).filter
        (fun rule => wireRule.rank < rule.rank) =
      (Directive.deciding directives site).bind Rule.ofDirective? := by
  unfold Filter.ofDirectives
  split
  · -- Without directives there is one rule, for errors of all targets.
    rename_i empty
    obtain rfl : directives = [] := List.isEmpty_iff.mp empty
    have below : ¬ wireRule.rank < Rule.rank ⟨none, none, .least .error⟩ := by
      rw [← Rule.outranks_iff]
      simp [Rule.outranks, Rule.targetLength, wireRule]
    simp [Rule.applies, Directive.deciding, below, Option.filter]
  · -- Directives without a selector come first and rank below; the others keep their order.
    have ranked : Filter.Ranked (⟨[], directives.filter Directive.selects⟩ : Log.Filter).rules := List.Pairwise.nil
    rw [Filter.find?_foldl ranked (fun _ _ same => Rule.applies_congr same site), Filter.prevail_above,
      List.filterMap_append, List.foldl_append]
    have plain : ∀ rule ∈ (directives.filter (!·.selects)).filterMap Rule.ofDirective?,
        precedes site rule = false := by
      intro rule member
      obtain ⟨d, kept, made⟩ := List.mem_filterMap.mp member
      rw [precedes_ofDirective at_wire made]
      obtain ⟨-, plain⟩ := List.mem_filter.mp kept
      simp only [Directive.selects, Bool.not_eq_true', Bool.or_eq_false_iff] at plain
      cases field : d.field <;> simp_all [Directive.narrows]
    have narrowing : (directives.filter Directive.selects).filter (·.narrows site) =
        directives.filter (·.narrows site) := by
      rw [List.filter_filter]
      apply List.filter_congr
      intro d _
      cases field : d.field <;> simp [Directive.narrows, Directive.selects, field]
    have none_before : ∀ d ∈ (none : Option Directive), d.narrows site = true :=
      fun d member => absurd member (Option.not_mem_none d)
    have deciding := prevail_directives at_wire (directives.filter Directive.selects) none_before
    rw [narrowing] at deciding
    change List.foldl (prevail (precedes site)) (List.foldl (prevail (precedes site)) none _) _ = _
    rw [Filter.foldl_unreached plain]
    exact deciding

theorem decides_unreached (plain : Filter) (elsewhere : Target.wire.name.isPrefixOf site.target = false)
    (ranked : Filter.Ranked plain.rules) : (plain.add wireRule).decides site = plain.decides site := by
  have unreached : wireRule.applies site = false := by simp [Rule.applies, wireRule, elsewhere]
  have found := Filter.find?_insert ranked wireRule (fun _ _ same => Rule.applies_congr same site)
  rw [Filter.prevail_unreached unreached] at found
  simp only [Filter.decides, Filter.add, found]

theorem decides_wire (at_wire : site.target = Target.wire.name) (urgent : site.level = .info)
    (directives : List Directive) : ((Filter.ofDirectives directives).add wireRule).decides site =
      (Directive.deciding directives site).all (·.threshold.admits .info) := by
  have reached := wireRule_applies at_wire
  have opens : wireRule.threshold.admits .info = true := rfl
  have above := found_above at_wire directives
  have found := Filter.find?_insert (Filter.ranked_ofDirectives directives) wireRule
    (fun _ _ same => Rule.applies_congr same site)
  rw [Filter.prevail_reached reached] at found
  simp only [Filter.decides, Filter.add, found, urgent]
  -- A rule above that of the tracing is there if and only if a directive decides in its place.
  cases best : (Filter.ofDirectives directives).rules.find? (·.applies site) with
  | none =>
    rw [best] at above
    cases decides : Directive.deciding directives site with
    | none => exact opens
    | some d =>
      obtain ⟨rule, made, -⟩ := made_of_narrows (Directive.narrows_of_deciding decides).2
      simp [decides, made] at above
  | some rule =>
    rw [best] at above
    cases decides : Directive.deciding directives site with
    | none =>
      have below : ¬ wireRule.rank < rule.rank := by simpa [decides, Option.filter] using above
      simp only [if_neg below]
      exact opens
    | some d =>
      obtain ⟨made, remade, same⟩ := made_of_narrows (Directive.narrows_of_deciding decides).2
      by_cases higher : wireRule.rank < rule.rank
      · obtain rfl : rule = made := by simpa [decides, remade, Option.filter, higher] using above
        simp only [if_pos higher, Option.all_some, same]
      · simp [decides, remade, Option.filter, higher] at above

end Deciding

theorem site_of_traced {s : Session} {method sent : String} {payload : List UInt8} {params : Option Json.Value}
    {attachment : Nat} {response : Rpc.Response} {record : Log.Record}
    (traced : .log record ∈ s.traceInbound method payload ++ s.traceOutbound sent params ++
      s.traceResponse attachment response) :
    record.site.level = .info ∧ record.site.target = Target.wire.name := by
  have of_wire {on : Bool} {message : String} {fields : List (String × Log.Field)}
      (member : .log record ∈ Session.wire on message fields) :
      record.site.level = .info ∧ record.site.target = Target.wire.name := by
    cases on with
    | false => cases member
    | true =>
      cases List.mem_singleton.mp member
      exact ⟨rfl, rfl⟩
  rcases List.mem_append.mp traced with message | response
  · rcases List.mem_append.mp message with inbound | outbound
    · exact of_wire inbound
    · exact of_wire outbound
  · exact of_wire response

namespace Config

section Opening

variable {config : Config} {directives : List Directive}

theorem filter_of_read (read : Filter.readDirectives config.logFilter = .ok directives) (traced : Bool) :
    ({ config with traceMessages := traced }).filter =
      .ok (if traced then (Filter.ofDirectives directives).add wireRule else Filter.ofDirectives directives) := by
  simp only [Config.filter, Filter.read, read]
  rfl

theorem enables_wire {site : Site} (at_wire : site.target = Target.wire.name) (urgent : site.level = .info)
    (spans : List Directive → List Threshold) :
    ((Filter.ofDirectives directives).add wireRule).enables spans site =
      ((spans (Filter.ofDirectives directives).selectors).any (·.admits .info) ||
        (Directive.deciding directives site).all (·.threshold.admits .info)) := by
  rw [Filter.enables, decides_wire at_wire urgent directives, urgent]
  rfl

theorem deciding_admits {site : Site}
    (admitted : ∀ d ∈ directives, d.narrows site = true → d.threshold.admits .info = true) :
    (Directive.deciding directives site).all (·.threshold.admits .info) = true := by
  cases picked : Directive.deciding directives site with
  | none => rfl
  | some d =>
    obtain ⟨member, narrows⟩ := Directive.narrows_of_deciding picked
    exact admitted d member narrows

end Opening

/-- The tracing of messages opens the wire target and nothing else. An event of another target is let
through with it just as without it. An event of the wire target is let through, unless a directive for
this very target picks it by a field and refuses it. -/
theorem wire_opened (config : Config) {filter : Filter} (accepted : config.filter = .ok filter) :
    ∃ directives plain opened, Filter.readDirectives config.logFilter = .ok directives ∧
      ({ config with traceMessages := false }).filter = .ok plain ∧
      ({ config with traceMessages := true }).filter = .ok opened ∧
      (∀ spans site, Target.wire.name.isPrefixOf site.target = false →
        opened.enables spans site = plain.enables spans site) ∧
      (∀ spans site, site.level = .info → site.target = Target.wire.name →
        opened.enables spans site = ((spans plain.selectors).any (·.admits .info) ||
          (Directive.deciding directives site).all (·.threshold.admits .info)) ∧
        ((∀ d ∈ directives, d.narrows site = true → d.threshold.admits .info = true) →
          opened.enables spans site = true)) ∧
      ∀ (s : Session) method payload sent params attachment response record,
        .log record ∈ s.traceInbound method payload ++ s.traceOutbound sent params ++
            s.traceResponse attachment response →
          opened.admits record = (Directive.deciding directives record.site).all (·.threshold.admits .info) := by
  cases read : Filter.readDirectives config.logFilter with
  | error fault =>
    rw [Config.filter, Filter.read, read] at accepted
    cases accepted
  | ok directives =>
    refine ⟨directives, _, _, rfl, filter_of_read read false, filter_of_read read true,
      fun spans site elsewhere => ?_,
      fun spans site urgent at_wire => ⟨enables_wire at_wire urgent spans, fun admitted => ?_⟩, ?_⟩
    · have same := decides_unreached _ elsewhere (Filter.ranked_ofDirectives directives)
      exact congrArg (_ || ·) same
    · rw [if_pos rfl, enables_wire at_wire urgent, deciding_admits admitted, Bool.or_true]
    · -- What is traced is seen in no span, so the directives alone decide it.
      intro s method payload sent params attachment response record traced
      obtain ⟨urgent, at_wire⟩ := site_of_traced traced
      exact enables_wire at_wire urgent fun _ => []

example : (Directive.read "courier_lsp::wire=info".toList).toOption.bind Rule.ofDirective? = some wireRule := by
  rfl

/-- Where nothing else is let through, the wire target is. -/
theorem wire_opened_alone :
    ∃ opened, ({ logFilter := "off", traceMessages := true } : Config).filter = .ok opened ∧
      (∀ spans site, site.level = .info → site.target = Target.wire.name → opened.enables spans site = true) ∧
        ∀ site, Target.wire.name.isPrefixOf site.target = false → opened.enables (fun _ => []) site = false := by
  have accepted : ({ logFilter := "off" } : Config).filter = .ok ⟨[⟨none, none, .off⟩], []⟩ := by rfl
  have reads : Filter.readDirectives "off" = .ok [{ threshold := .off }] := by rfl
  obtain ⟨directives, plain, opened, read, without, traced, elsewhere, at_wire, -⟩ :=
    wire_opened { logFilter := "off" } accepted
  obtain rfl := Except.ok.inj (reads.symm.trans read)
  obtain rfl := Except.ok.inj (accepted.symm.trans without)
  refine ⟨opened, traced, fun spans site urgent target => ?_, fun site target => ?_⟩
  · exact (at_wire spans site urgent target).2 (by simp [Directive.narrows])
  · rw [elsewhere _ site target]
    rfl

/-- A directive for a field of the wire target closes it to what comes in, traced or not. -/
theorem wire_closed_by_field :
    ∃ filter record, ({ logFilter := "courier_lsp::wire[\x7bpayload\x7d]=off", traceMessages := true } :
        Config).filter = .ok filter ∧
      (Session.overScript { traceMessages := true }).attach.traceInbound "initialized" [] = [.log record] ∧
      record.site.level = .info ∧ record.site.target = Target.wire.name ∧ filter.admits record = false := by
  let selector : Directive := ⟨some Target.wire.name, none, some ("payload", none), .off⟩
  let record : Log.Record := ⟨.info, .wire, "message",
    [("direction", .text "inbound"), ("method", .text "initialized"), ("payload", .shown "")]⟩
  have decides : ((Filter.ofDirectives [selector]).add wireRule).decides record.site = false :=
    decides_wire rfl rfl [selector]
  exact ⟨(Filter.ofDirectives [selector]).add wireRule, record, by rfl, by rfl, rfl, rfl, decides⟩

end Config
end LanguageClient
