import LanguageClient.Proofs.Config.Layering
import LanguageClient.Proofs.Payload
import LanguageClient.Proofs.Session.Reading
import LanguageClient.Proofs.Session.Revision

/-! How far leniency goes.

Two sessions may list different notifications as lenient. They part only at a notification that
one of the lists names, that goes to a handler, leaves its params out and is of a method whose
params are never null. There the strict session misses the params, and the lenient one reads them
from an object without members.
-/

set_option autoImplicit false
namespace LanguageClient

open Json (Value)

/-! Params that are left out. -/

namespace Payload

variable {schema : Schema} {payload : List UInt8} {cause : Json.Cause}

/-- Only where params are left out and null will not do the policy matters. -/
theorem decode_indifferent (first second : ParamsPolicy)
    (settled : params payload = .ok none → ∃ d, schema.decode .null = .ok d) :
    decode schema first payload = decode schema second payload := by
  unfold decode
  cases found : params payload with
  | error e => rfl
  | ok content =>
    cases content with
    | some v => rfl
    | none =>
      obtain ⟨d, accepted⟩ := settled found
      simp only [decodeParams, decodeAbsent, accepted]

theorem decode_missing (absent : params payload = .ok none) (choosy : schema.decode .null = .error cause) :
    decode schema .required payload = .error .missingParams := by
  simp only [decode, absent, decodeParams, decodeAbsent, choosy, ParamsPolicy.allowsAbsent, Bool.false_eq_true,
    if_false]

theorem decode_lenient (absent : params payload = .ok none) (choosy : schema.decode .null = .error cause) :
    decode schema .defaultWhenAbsent payload = (schema.decode (.object [])).mapError valueError := by
  simp only [decode, absent, decodeParams, decodeAbsent, choosy, ParamsPolicy.allowsAbsent, if_true]

end Payload

/-! Other lists. -/

def Session.relisted (s : Session) (entries : List String) : Session :=
  { s with config := { s.config with lenientNotifications := entries } }

def Turn.relisted (turn : Turn) (entries : List String) : Turn :=
  { turn with session := turn.session.relisted entries }

def Moment.relisted (m : Moment) (entries : List String) : Moment :=
  { m with session := m.session.relisted entries }

section Relisting

theorem handler_under_some {ρ : Type} (handler : Handler Op ρ) : handler.under some = handler := by
  simp only [Handler.under, List.filterMap_some]

theorem supply_under_some (supply : Supply Op) : supply.under some = supply := by
  cases supply <;> rfl

theorem op_under_some (op : Op) : op.under some = op := by
  have input (input : List (Supply Op)) : input.map (·.under some) = input := by
    rw [funext supply_under_some, List.map_id']
  cases op <;> simp only [Op.under, handler_under_some, List.filterMap_some, input]

variable (entries : List String)

def relisting : Revision where
  config c := { c with lenientNotifications := entries }
  tracing := id
  event := some
  op := some
  configured _ := rfl
  wire _ _ _ := List.filterMap_some
  told _ := rfl
  kept _ _ := rfl
  shaped o _ := congrArg some (op_under_some o).symm
  switched _ := .inl rfl

theorem relisting_completion (c : Completion) : (relisting entries).completion c = c := by
  have after : c.after.filterMap (relisting entries).op = c.after := List.filterMap_some
  rw [Revision.completion, after]

theorem relisting_held (h : Held) : (relisting entries).held h = h := by
  cases h with
  | completion c => exact congrArg Held.completion (relisting_completion entries c)
  | _ => rfl

theorem relisting_task (task : Task) : (relisting entries).task task = some task := by
  cases task with
  | finish c outcome => exact congrArg (fun c => some (Task.finish c outcome)) (relisting_completion entries c)
  | release h => exact congrArg (fun h => some (Task.release h)) (relisting_held entries h)
  | receive phase bytes input =>
    have same : input.map (·.under (relisting entries).op) = input := by
      rw [show (fun supply : Supply Op => supply.under (relisting entries).op) = fun supply => supply from
        funext supply_under_some, List.map_id']
    exact congrArg (fun input => some (Task.receive phase bytes input)) same
  | _ => rfl

theorem relabel_same {κ α : Type} {f : α → α} (same : ∀ a, f a = a) (list : List (κ × α)) :
    relabel f list = list := by
  simp only [relabel, same, List.map_id']

theorem relisting_transport (transport : Transport) : (relisting entries).transport transport = transport := by
  cases transport with
  | scripted peer => rfl
  | connection c =>
    have pending := relabel_same (relisting_completion entries) c.pending
    simp only [Revision.transport, Revision.connection, pending]

theorem relisting_session (s : Session) : (relisting entries).session s = s.relisted entries := by
  have handled {ρ : Type} (slot : Option (Handler Op ρ)) : slot.map (·.under (relisting entries).op) = slot := by
    cases slot with
    | none => rfl
    | some handler => exact congrArg some (handler_under_some handler)
  have former : s.formerTracing.map (relisting entries).tracing = s.formerTracing := List.map_id _
  simp only [Revision.session, handled, former, relisting_transport, relabel_same (relisting_held entries)]
  rfl

theorem relisting_turn (turn : Turn) : (relisting entries).turn turn = turn.relisted entries := by
  have tasks : turn.tasks.filterMap (relisting entries).task = turn.tasks := by
    rw [funext (relisting_task entries), List.filterMap_some]
  have events : turn.events.filterMap (relisting entries).event = turn.events := List.filterMap_some
  rw [Revision.turn, relisting_session, tasks, events]
  rfl

end Relisting

namespace Session

/-- A notification for a handler that leaves its params out, although its method demands some. -/
structure Omits (s : Session) (kind : ServerNotification) (handler : NotificationHandler) (method : String)
    (payload : List UInt8) : Prop where
  known : ServerNotification.ofName? method = some kind
  handled : s.notificationHandler = some handler
  absent : Payload.params payload = .ok none
  choosy : ∃ cause, kind.params.decode .null = .error cause

/-- Such a notification, named by only one of the lists. -/
structure Divides (s : Session) (entries : List String) (kind : ServerNotification)
    (handler : NotificationHandler) (method : String) (payload : List UInt8) : Prop
    extends Omits s kind handler method payload where
  apart : ¬ (Named s.config.lenientNotifications method ↔ Named entries method)

def Undivided (entries : List String) (m : Moment) : Prop :=
  ∀ method payload, m.session.notice? m.task = some (method, payload) → ∀ kind handler,
    ¬ Divides m.session entries kind handler method payload

/-- A notification that cannot be read: it is acknowledged with the reason, and the handler is not called. -/
def declined (s : Session) (route : Route) (method : String) (payload : List UInt8) (e : ExchangeError) : Turn :=
  (({ session := s.admitted, events := s.traceInbound method payload } : Turn).emit
    [dispatchLog .warn "failed to decode notification" method [("error", .shown e.message)]]).andThen
    (·.acknowledge s.received route method (.error e))

def given (s : Session) (handler : NotificationHandler) (route : Route) (kind : ServerNotification)
    (method : String) (payload : List UInt8) (content : Data) : Turn :=
  (({ session := s.admitted, events := s.traceInbound method payload } : Turn).emit
    [dispatchLog .debug "dispatching notification" method []]).andThen
    (·.callNotification handler ⟨kind, content⟩ ⟨s.received, kind, route⟩)

/-- A notification read as if its params were an object without members. -/
def supplied (s : Session) (handler : NotificationHandler) (route : Route) (kind : ServerNotification)
    (method : String) (payload : List UInt8) : Turn :=
  match kind.params.decode (.object []) with
  | .ok content => s.given handler route kind method payload content
  | .error cause => s.declined route method payload (.undecodable ⟨cause, none⟩)

section Omissions

variable {s : Session} {kind : ServerNotification} {handler : NotificationHandler} {method : String}
  {payload : List UInt8}

theorem Omits.strict (omits : Omits s kind handler method payload)
    (unnamed : ¬ Named s.config.lenientNotifications method) (route : Route) :
    s.handleNotification route method payload = s.declined route method payload .missingParams := by
  obtain ⟨known, handled, absent, cause, choosy⟩ := omits
  simp only [handleNotification, known, handled, ServerNotification.Message.decode, policy_of_unnamed unnamed,
    Payload.decode_missing absent choosy, Except.map, declined]
  rfl

theorem Omits.lenient (omits : Omits s kind handler method payload)
    (named : Named s.config.lenientNotifications method) (route : Route) :
    s.handleNotification route method payload = s.supplied handler route kind method payload := by
  obtain ⟨known, handled, absent, cause, choosy⟩ := omits
  simp only [handleNotification, known, handled, ServerNotification.Message.decode, policy_of_named named,
    Payload.decode_lenient absent choosy, supplied]
  cases kind.params.decode (.object []) <;> rfl

theorem step_of_notice {task : Task} (noticed : s.notice? task = some (method, payload)) :
    ∃ route notes tail, s.step task =
      ((s.noted notes).andThen (·.handleNotification route method payload)).andThen (readOn tail) := by
  unfold notice? at noticed
  split at noticed
  · cases noticed
    refine ⟨.direct, [], [], ?_⟩
    rw [andThen_readOn_nil]
    rfl
  · rename_i phase bytes input
    split at noticed
    · rename_i body arrived
      split at noticed
      · rename_i attached read
        cases noticed
        refine ⟨.wire, (Frame.next phase bytes input.isEmpty).notes,
          [.receive .start (Frame.next phase bytes input.isEmpty).rest input], ?_⟩
        have routed : s.route payload = s.handleNotification .wire method payload := by
          simp only [route, read, attached, if_true]
        simp only [step, receive, arrived, Turn.andThen, routed, noted, readOn]
      · cases noticed
    · cases noticed
  · cases noticed

end Omissions

section Lists

variable {s t : Session} {entries : List String} {tasks agenda : List Task} {ms : List Moment}

theorem relisting_reads {method : String} {payload : List UInt8}
    (undivided : ∀ kind handler, ¬ Divides s entries kind handler method payload) :
    (relisting entries).Reads s method payload := by
  intro kind known handled
  obtain ⟨handler, there⟩ := Option.ne_none_iff_exists'.mp handled
  unfold ServerNotification.Message.decode
  by_cases alike : Named s.config.lenientNotifications method ↔ Named entries method
  · have policy := @policy_of_alike s.config method ((relisting entries).config s.config) alike
    rw [policy]
  · -- Then the params are there, or null will do.
    refine congrArg (Except.map _) (Payload.decode_indifferent _ _ fun absent => ?_)
    cases choosy : kind.params.decode .null with
    | ok d => exact ⟨d, rfl⟩
    | error cause => exact absurd ⟨⟨known, there, absent, cause, choosy⟩, alike⟩ (undivided kind handler)

/-- Unless its notification divides the lists, a step is the same under both of them. -/
theorem step_relisted (s : Session) (task : Task) (rest : List Task)
    (undivided : Undivided entries ⟨s, task, rest⟩) :
    (s.relisted entries).step task = (s.step task).relisted entries := by
  have same := (relisting entries).step (relisting_task entries task) fun method payload noticed =>
    relisting_reads (undivided method payload noticed)
  rw [relisting_turn, relisting_session] at same
  exact same.symm

theorem listed_step (s : Session) (task : Task) :
    (s.step task).session.config.lenientNotifications = s.config.lenientNotifications := by
  have undivided : Undivided s.config.lenientNotifications ⟨s, task, []⟩ :=
    fun _ _ _ _ _ divides => divides.apart Iff.rfl
  have same := step_relisted s task [] undivided
  exact congrArg (fun turn : Turn => turn.session.config.lenientNotifications) same

theorem listed_of_course (course : Course s tasks ms t agenda) :
    t.config.lenientNotifications = s.config.lenientNotifications ∧
      ∀ m ∈ ms, m.session.config.lenientNotifications = s.config.lenientNotifications := by
  induction course with
  | start => exact ⟨rfl, by simp⟩
  | @step ms u task rest _ ih =>
    obtain ⟨last, all⟩ := ih
    refine ⟨(listed_step u task).trans last, fun m member => ?_⟩
    rcases List.mem_append.mp member with before | now
    · exact all m before
    · rw [List.mem_singleton.mp now]
      exact last
  | call _ _ _ ih => exact ih
  | letGo _ _ ih => exact ih

theorem course_relisted (course : Course s tasks ms t agenda) (undivided : ∀ m ∈ ms, Undivided entries m) :
    Course (s.relisted entries) tasks (ms.map (·.relisted entries)) (t.relisted entries) agenda ∧
      seen (ms.map (·.relisted entries)) = seen ms := by
  induction course with
  | start => exact ⟨.start, rfl⟩
  | @step ms u task rest _ ih =>
    obtain ⟨course, same⟩ := ih fun m member => undivided m (List.mem_append_left _ member)
    have alike := step_relisted u task rest (undivided _ (by simp))
    have next := Course.step course
    rw [alike] at next
    have events : (Moment.relisted ⟨u, task, rest⟩ entries).turn.events =
        (Moment.turn ⟨u, task, rest⟩).events := by
      show ((u.relisted entries).step task).events = _
      rw [alike]
      rfl
    rw [List.map_append, List.map_singleton, seen_append, seen_append, seen_singleton, seen_singleton, same,
      events]
    exact ⟨next, rfl⟩
  | call op _ free ih =>
    obtain ⟨course, same⟩ := ih undivided
    exact ⟨.call op course free, same⟩
  | letGo _ free ih =>
    obtain ⟨course, same⟩ := ih undivided
    exact ⟨.letGo course free, same⟩

theorem run_relisted (n : Nat) (s : Session) (tasks : List Task)
    (undivided : ∀ m ∈ trail n s tasks, Undivided entries m) :
    (s.relisted entries).run n tasks = (s.run n tasks).relisted entries := by
  induction n generalizing s tasks with
  | zero => rfl
  | succ n ih =>
    cases tasks with
    | nil => rfl
    | cons task rest =>
      have alike := step_relisted s task rest (undivided _ List.mem_cons_self)
      have later := ih _ _ fun m member => undivided m (List.mem_cons_of_mem _ member)
      simp only [run, alike]
      exact congrArg (fun turn : Turn => { turn with events := (s.step task).events ++ turn.events }) later

end Lists

/-! Lists that name the same. -/

def Padded (entry other : String) : Prop :=
  ∃ before after, (∀ c ∈ before, Text.isBlank c = true) ∧ (∀ c ∈ after, Text.isBlank c = true) ∧
    other.toList = before ++ (entry.toList ++ after)

/-- A list whose entries may stand in another order, more than once, and between blanks. -/
structure Recast (entries others : List String) : Prop where
  kept : ∀ entry ∈ entries, ∃ other ∈ others, Padded entry other
  own : ∀ other ∈ others, ∃ entry ∈ entries, Padded entry other

section Recast

variable {entries others : List String}

theorem Padded.trim {entry other : String} (padded : Padded entry other) : Text.trim other = Text.trim entry := by
  obtain ⟨before, after, first, last, same⟩ := padded
  rw [Text.trim, Text.trim, same, Text.trimChars_blank first last]

theorem Recast.named (recast : Recast entries others) (method : String) :
    Named entries method ↔ Named others method := by
  constructor
  · rintro ⟨entry, listed, same⟩
    obtain ⟨other, there, padded⟩ := recast.kept entry listed
    exact ⟨other, there, padded.trim.trans same⟩
  · rintro ⟨other, listed, same⟩
    obtain ⟨entry, there, padded⟩ := recast.own other listed
    exact ⟨entry, there, padded.trim.symm.trans same⟩

theorem Recast.undivided {s t : Session} {tasks agenda : List Task} {ms : List Moment}
    (recast : Recast s.config.lenientNotifications others) (course : Course s tasks ms t agenda) :
    ∀ m ∈ ms, Undivided others m := by
  intro m member method payload _ kind handler divides
  refine divides.apart ?_
  rw [(listed_of_course course).2 m member]
  exact recast.named method

end Recast

/-- How far it reaches that a session lists other notifications as lenient. -/
structure Confined (s : Session) (entries : List String) : Prop where
  /-- Whatever comes in or goes out, a step is the same, unless a notification divides the lists. -/
  alike : ∀ task, Undivided entries ⟨s, task, []⟩ →
    (s.relisted entries).step task = (s.step task).relisted entries
  /-- Of the two sessions, the one that does not name the notification misses its params. -/
  strict : ∀ t ∈ [s, s.relisted entries], ∀ task kind handler method payload,
    t.notice? task = some (method, payload) → Divides s entries kind handler method payload →
      ¬ Named t.config.lenientNotifications method → ∃ route notes tail, t.step task =
        ((t.noted notes).andThen (·.declined route method payload .missingParams)).andThen (readOn tail)
  /-- The other one reads them from an object without members. -/
  lenient : ∀ t ∈ [s, s.relisted entries], ∀ task kind handler method payload,
    t.notice? task = some (method, payload) → Divides s entries kind handler method payload →
      Named t.config.lenientNotifications method → ∃ route notes tail, t.step task =
        ((t.noted notes).andThen (·.supplied handler route kind method payload)).andThen (readOn tail)
  courses : ∀ tasks ms t agenda, Course s tasks ms t agenda → (∀ m ∈ ms, Undivided entries m) →
    Course (s.relisted entries) tasks (ms.map (·.relisted entries)) (t.relisted entries) agenda ∧
      seen (ms.map (·.relisted entries)) = seen ms
  runs : ∀ n tasks, (∀ m ∈ trail n s tasks, Undivided entries m) →
    (s.relisted entries).run n tasks = (s.run n tasks).relisted entries
  /-- Neither order nor repetition of entries matters, nor do blanks around them. -/
  recast : Recast s.config.lenientNotifications entries →
    (∀ tasks ms t agenda, Course s tasks ms t agenda →
      Course (s.relisted entries) tasks (ms.map (·.relisted entries)) (t.relisted entries) agenda ∧
        seen (ms.map (·.relisted entries)) = seen ms) ∧
      ∀ n tasks, (s.relisted entries).run n tasks = (s.run n tasks).relisted entries

theorem omits_of_divides {s t : Session} {entries : List String} {kind : ServerNotification}
    {handler : NotificationHandler} {method : String} {payload : List UInt8}
    (divides : Divides s entries kind handler method payload) (either : t ∈ [s, s.relisted entries]) :
    Omits t kind handler method payload := by
  obtain ⟨known, handled, absent, choosy⟩ := divides.toOmits
  have same : t.notificationHandler = s.notificationHandler := by
    rcases List.mem_cons.mp either with rfl | other
    · rfl
    · rw [List.mem_singleton.mp other]
      rfl
  exact ⟨known, same.trans handled, absent, choosy⟩

/-- Leniency reaches no further than to the notifications that it is meant for. -/
theorem confined (s : Session) (entries : List String) : Confined s entries where
  alike := fun task undivided => step_relisted s task [] undivided
  strict := by
    intro t either task kind handler method payload noticed divides unnamed
    obtain ⟨route, notes, tail, same⟩ := step_of_notice noticed
    refine ⟨route, notes, tail, same.trans ?_⟩
    simp only [Turn.andThen, noted, (omits_of_divides divides either).strict unnamed]
  lenient := by
    intro t either task kind handler method payload noticed divides named
    obtain ⟨route, notes, tail, same⟩ := step_of_notice noticed
    refine ⟨route, notes, tail, same.trans ?_⟩
    simp only [Turn.andThen, noted, (omits_of_divides divides either).lenient named]
  courses := fun _ _ _ _ course undivided => course_relisted course undivided
  runs := fun n tasks undivided => run_relisted n s tasks undivided
  recast := fun recast =>
    ⟨fun _ _ _ _ course => course_relisted course (recast.undivided course),
      fun n tasks => run_relisted n s tasks (recast.undivided (Course.of_run n s tasks))⟩

/-- Diagnostics without params: missing for one session, and without a document for the other. -/
theorem confined_to_diagnostics :
    let handler : NotificationHandler := ⟨none, false, [], .acknowledge (.ok ())⟩
    let s : Session := { overStream {} with attached := true, notificationHandler := some handler }
    let entries := [" textDocument/publishDiagnostics\n"]
    let method := "textDocument/publishDiagnostics"
    let payload := Json.octets (Rpc.writeNotification method none)
    Divides s entries .publishDiagnostics handler method payload ∧
      (∃ route notes tail, s.step (.perform (.notify method payload)) =
        ((s.noted notes).andThen (·.declined route method payload .missingParams)).andThen (readOn tail)) ∧
      ∃ route notes tail, (s.relisted entries).step (.perform (.notify method payload)) =
        (((s.relisted entries).noted notes).andThen
          (·.supplied handler route .publishDiagnostics method payload)).andThen (readOn tail) := by
  intro handler s entries method payload
  have unnamed : ¬ Named s.config.lenientNotifications method := by
    rintro ⟨entry, listed, -⟩
    cases listed
  have named : Named (s.relisted entries).config.lenientNotifications method := ⟨_, List.mem_cons_self, by decide⟩
  have absent : Payload.params payload = .ok none := Payload.params_notification fun v same => by cases same
  have divides : Divides s entries .publishDiagnostics handler method payload :=
    ⟨⟨by decide, rfl, absent, _, rfl⟩, fun alike => unnamed (alike.mpr named)⟩
  have bounds := confined s entries
  exact ⟨divides, bounds.strict s (by simp) _ _ _ _ _ rfl divides unnamed,
    bounds.lenient _ (by simp) _ _ _ _ _ rfl divides named⟩

end Session
end LanguageClient
