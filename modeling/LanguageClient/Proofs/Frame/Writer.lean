import LanguageClient.Frame.Writer

/-! Frames written to a sink.

A write that goes well has passed on all its octets, in order, and leaves nothing behind in
the buffer, whatever the sink did meanwhile. To a sink that takes everything, be it bit by
bit, every write goes well.
-/

set_option autoImplicit false
namespace LanguageClient.Frame

def Reaction.takes : Reaction → Bool
  | .accept most => 0 < most
  | .refuse _ => false

structure Sink.Generous (sink : Sink) : Prop where
  reactions : sink.reactions.all Reaction.takes = true
  failing : sink.failing = none

theorem offer_ok {failing : Option StreamError} {detail : String} {reactions : List Reaction}
    {bytes : List UInt8} (went : (offer failing detail reactions bytes).outcome = .ok ()) :
    (offer failing detail reactions bytes).taken = bytes ∧
      (offer failing detail reactions bytes).left = [] := by
  -- One reaction after the other, each on what the ones before it have left.
  induction reactions generalizing bytes with
  | nil =>
    cases bytes with
    | nil => exact ⟨rfl, rfl⟩
    | cons octet bytes =>
      cases failing with
      | none => exact ⟨rfl, rfl⟩
      | some error => cases went
  | cons reaction rest ih =>
    cases bytes with
    | nil => exact ⟨rfl, rfl⟩
    | cons octet bytes =>
      cases reaction with
      | accept most =>
        by_cases stalls : most = 0
        · simp only [offer, if_pos stalls] at went
          cases went
        · simp only [offer, if_neg stalls] at went ⊢
          obtain ⟨taken, left⟩ := ih went
          refine ⟨?_, left⟩
          rw [taken, List.take_append_drop]
      | refuse error =>
        by_cases interrupted : error.fault = .interrupted
        · simp only [offer, if_pos interrupted] at went ⊢
          exact ih went
        · simp only [offer, if_neg interrupted] at went
          cases went

theorem offer_generous {detail : String} {reactions : List Reaction} (bytes : List UInt8)
    (generous : reactions.all Reaction.takes = true) :
    (offer none detail reactions bytes).outcome = .ok () ∧
      (offer none detail reactions bytes).reactions.all Reaction.takes = true := by
  induction reactions generalizing bytes with
  | nil => cases bytes <;> simp [offer]
  | cons reaction rest ih =>
    cases bytes with
    | nil => exact ⟨rfl, generous⟩
    | cons octet bytes =>
      simp only [List.all_cons, Bool.and_eq_true] at generous
      obtain ⟨takes, later⟩ := generous
      cases reaction with
      | refuse error => cases takes
      | accept most =>
        have some : most ≠ 0 := by
          simp only [Reaction.takes, decide_eq_true_eq] at takes
          omega
        simp only [offer, if_neg some]
        exact ih _ later

namespace Writer

variable {w v : Writer} {bytes body : List UInt8}

/-- The octets on their way: those in the sink, then those in the buffer. -/
def passed (w : Writer) : List UInt8 := w.sink.taken ++ w.buffer

/-! Writes that go well. -/

theorem drain_ok (went : w.drain.2 = .ok ()) :
    w.drain.1.passed = w.passed ∧ w.drain.1.buffer = [] := by
  obtain ⟨taken, left⟩ := offer_ok went
  refine ⟨?_, left⟩
  simp only [drain, passed, Sink.after, taken, left, List.append_nil]

theorem pass_ok (empty : w.buffer = []) (went : (w.pass bytes).2 = .ok ()) :
    (w.pass bytes).1.passed = w.passed ++ bytes := by
  obtain ⟨taken, -⟩ := offer_ok went
  simp only [pass, passed, Sink.after, taken, empty, List.append_nil]

theorem put_ok (went : (w.put bytes).2 = .ok ()) : (w.put bytes).1.passed = w.passed ++ bytes := by
  have keeps (w : Writer) :
      passed { w with buffer := w.buffer ++ bytes } = w.passed ++ bytes := (List.append_assoc ..).symm
  unfold put at went ⊢
  split
  · exact keeps w
  · rename_i full
    rw [if_neg full] at went
    by_cases fits : w.buffer.length + bytes.length ≤ bufferSize
    · simp only [if_pos fits] at went ⊢
      split
      · rename_i large
        -- What is as large as the whole buffer only fits when nothing is in it.
        have empty : w.buffer = [] := List.length_eq_zero_iff.mp (by omega)
        rw [if_pos large] at went
        exact pass_ok empty went
      · exact keeps w
    · simp only [if_neg fits] at went ⊢
      cases drained : w.drain.2 with
      | error e =>
        simp only [drained] at went
        cases went
      | ok =>
        obtain ⟨same, empty⟩ := drain_ok drained
        simp only [drained] at went ⊢
        rw [← same]
        split
        · rename_i large
          rw [if_pos large] at went
          exact pass_ok empty went
        · exact keeps w.drain.1

theorem flush_ok (went : w.flush.2 = .ok ()) : w.flush.1.passed = w.passed ∧ w.flush.1.buffer = [] := by
  unfold flush at went ⊢
  rcases drained : w.drain with ⟨after, outcome⟩
  cases outcome with
  | error e =>
    simp only [drained] at went
    cases went
  | ok =>
    have done := drain_ok (w := w) (by rw [drained])
    rw [drained] at done
    simp only
    split <;> exact done

theorem frame_ok (written : w.frame body = (v, .ok ())) :
    v.passed = w.passed ++ encode body ∧ v.buffer = [] := by
  unfold frame at written
  unfold encode
  generalize Text.Utf8.encode ("Content-Length: " ++ toString body.length ++ "\r\n\r\n") = octets at *
  rcases header : w.put octets with ⟨first, outcome⟩
  cases outcome with
  | error e => simp [header] at written
  | ok =>
    rcases content : first.put body with ⟨second, outcome⟩
    cases outcome with
    | error e => simp [header, content] at written
    | ok =>
      simp only [header, content] at written
      have before := put_ok (w := w) (by rw [header])
      have between := put_ok (w := first) (by rw [content])
      have after := flush_ok (w := second) (by rw [written])
      rw [header] at before
      rw [content] at between
      rw [written] at after
      refine ⟨?_, after.2⟩
      rw [after.1, between, before, List.append_assoc]

/-- Bodies are written one after the other, and each write goes well. -/
inductive Wrote : Writer → List (List UInt8) → Writer → Prop where
  | done {w : Writer} : Wrote w [] w
  | more {w v u : Writer} {body : List UInt8} {bodies : List (List UInt8)} :
      w.frame body = (v, .ok ()) → Wrote v bodies u → Wrote w (body :: bodies) u

theorem Wrote.taken {bodies : List (List UInt8)} (wrote : Wrote w bodies v) (empty : w.buffer = []) :
    v.sink.taken = w.sink.taken ++ bodies.flatMap encode := by
  induction wrote with
  | done => exact (List.append_nil _).symm
  | more written _ ih =>
    obtain ⟨passed, clear⟩ := frame_ok written
    rw [Writer.passed, Writer.passed, clear, empty, List.append_nil, List.append_nil] at passed
    rw [ih clear, passed, List.flatMap_cons, List.append_assoc]

/-! Writes to a generous sink. -/

structure Goes (writing : Writing) : Prop where
  outcome : writing.2 = .ok ()
  generous : writing.1.sink.Generous

theorem Goes.went {writing : Writing} (h : Goes writing) : writing = (writing.1, .ok ()) :=
  Prod.ext rfl h.outcome

theorem drain_generous (generous : w.sink.Generous) : Goes w.drain := by
  have ⟨outcome, reactions⟩ := @offer_generous "failed to write the buffered data"
    w.sink.reactions w.buffer generous.reactions
  simp only [drain, generous.failing]
  exact ⟨outcome, reactions, generous.failing⟩

theorem pass_generous (generous : w.sink.Generous) (bytes : List UInt8) : Goes (w.pass bytes) := by
  have ⟨outcome, reactions⟩ := @offer_generous "failed to write whole buffer"
    w.sink.reactions bytes generous.reactions
  simp only [pass, generous.failing]
  exact ⟨outcome, reactions, generous.failing⟩

theorem put_generous (generous : w.sink.Generous) (bytes : List UInt8) : Goes (w.put bytes) := by
  unfold put
  split
  · exact ⟨rfl, generous⟩
  · by_cases fits : w.buffer.length + bytes.length ≤ bufferSize
    · simp only [if_pos fits]
      split
      · exact pass_generous generous bytes
      · exact ⟨rfl, generous⟩
    · have drained := drain_generous generous
      simp only [if_neg fits, drained.outcome]
      split
      · exact pass_generous drained.generous bytes
      · exact ⟨rfl, drained.generous⟩

theorem flush_generous (generous : w.sink.Generous) : Goes w.flush := by
  obtain ⟨outcome, still⟩ := drain_generous generous
  unfold flush
  rcases drained : w.drain with ⟨after, result⟩
  simp only [drained] at outcome still
  subst outcome
  simp only [still.failing]
  cases reactions : after.sink.reactions with
  | nil => exact ⟨rfl, still⟩
  | cons reaction rest =>
    have takes := still.reactions
    rw [reactions, List.all_cons, Bool.and_eq_true] at takes
    cases reaction with
    | refuse error => cases takes.1
    | accept most => exact ⟨rfl, takes.2, rfl⟩

theorem frame_generous (generous : w.sink.Generous) (body : List UInt8) : Goes (w.frame body) := by
  unfold frame
  generalize Text.Utf8.encode ("Content-Length: " ++ toString body.length ++ "\r\n\r\n") = octets
  have header := put_generous generous octets
  have content := put_generous header.generous body
  dsimp only
  rw [header.went]
  dsimp only
  rw [content.went]
  exact flush_generous content.generous

theorem wrote_generous (generous : w.sink.Generous) (bodies : List (List UInt8)) :
    ∃ v, Wrote w bodies v := by
  induction bodies generalizing w with
  | nil => exact ⟨w, .done⟩
  | cons body bodies ih =>
    have goes := frame_generous generous body
    obtain ⟨v, wrote⟩ := ih goes.generous
    exact ⟨v, .more goes.went wrote⟩

end Writer
end LanguageClient.Frame
