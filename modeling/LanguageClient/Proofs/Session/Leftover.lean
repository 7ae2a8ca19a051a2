import LanguageClient.Proofs.Session.Loopback

/-! What becomes of messages that are not all written.

A write that fails may have passed on some of its frame and keep more of it in the buffer. What it keeps
is not taken back, but goes out before the frame that is written next. So the octets on their way are
pieces of the frames in the order of the calls, whole ones of the writes that went well, and nothing
comes late of a write that failed and kept nothing.
-/

set_option autoImplicit false
namespace LanguageClient

namespace Frame

theorem offer_parts (failing : Option StreamError) (detail : String) (reactions : List Reaction) (bytes : List UInt8) :
    (offer failing detail reactions bytes).taken ++ (offer failing detail reactions bytes).left = bytes := by
  induction reactions generalizing bytes with
  | nil => cases bytes <;> cases failing <;> simp [offer]
  | cons reaction rest ih =>
    cases bytes with
    | nil => rfl
    | cons octet bytes =>
      cases reaction with
      | accept most =>
        by_cases stalls : most = 0
        · simp only [offer, if_pos stalls, List.nil_append]
        · simp only [offer, if_neg stalls, List.append_assoc, ih, List.take_append_drop]
      | refuse error =>
        by_cases interrupted : error.fault = .interrupted
        · simp only [offer, if_pos interrupted, ih]
        · simp only [offer, if_neg interrupted, List.nil_append]

namespace Writer

/-- The octets on their way are those there were and a piece more, and the sink has not lost any. -/
structure Adds (w v : Writer) (piece : List UInt8) : Prop where
  passed : v.passed = w.passed ++ piece
  grows : w.sink.taken <+: v.sink.taken

variable {w v u : Writer} {bytes piece more : List UInt8}

theorem Adds.trans (first : Adds w v piece) (second : Adds v u more) : Adds w u (piece ++ more) where
  passed := by rw [second.passed, first.passed, List.append_assoc]
  grows := first.grows.trans second.grows

theorem adds_drain (w : Writer) : Adds w w.drain.1 [] where
  passed := by simp only [drain, passed, Sink.after, List.append_assoc, offer_parts, List.append_nil]
  grows := List.prefix_append _ _

theorem adds_pass (empty : w.buffer = []) (bytes : List UInt8) : ∃ piece, piece <+: bytes ∧ Adds w (w.pass bytes).1 piece := by
  refine ⟨_, ⟨_, offer_parts w.sink.failing "failed to write whole buffer" w.sink.reactions bytes⟩, ?_, ?_⟩
  · simp only [pass, passed, Sink.after, empty, List.append_nil]
  · exact List.prefix_append _ _

theorem adds_keep (w : Writer) (bytes : List UInt8) : Adds w { w with buffer := w.buffer ++ bytes } bytes where
  passed := (List.append_assoc ..).symm
  grows := List.prefix_rfl

theorem adds_put (w : Writer) (bytes : List UInt8) : ∃ piece, piece <+: bytes ∧ Adds w (w.put bytes).1 piece := by
  unfold put
  split
  · exact ⟨bytes, List.prefix_rfl, adds_keep w bytes⟩
  · -- With room for them the buffer stays in place; without it what is buffered leaves first, and may
    -- fail to, so the cases are those of `put` and a piece passes in none or one of them.
    by_cases fits : w.buffer.length + bytes.length ≤ bufferSize
    · simp only [if_pos fits]
      split
      · rename_i large
        have empty : w.buffer = [] := List.length_eq_zero_iff.mp (by omega)
        exact adds_pass empty bytes
      · exact ⟨bytes, List.prefix_rfl, adds_keep w bytes⟩
    · simp only [if_neg fits]
      cases drained : w.drain.2 with
      | error e => exact ⟨[], List.nil_prefix, adds_drain w⟩
      | ok =>
        have empty := (drain_ok drained).2
        simp only
        split
        · obtain ⟨piece, part, adds⟩ := adds_pass empty bytes
          exact ⟨piece, part, (adds_drain w).trans adds⟩
        · exact ⟨bytes, List.prefix_rfl, (adds_drain w).trans (adds_keep _ bytes)⟩

theorem adds_flush (w : Writer) : Adds w w.flush.1 [] := by
  have drained := adds_drain w
  unfold flush
  rcases outcome : w.drain with ⟨after, fault | _⟩
  · rwa [outcome] at drained
  · rw [outcome] at drained
    simp only
    split <;> exact ⟨drained.passed, drained.grows⟩

theorem adds_frame (w : Writer) (body : List UInt8) : ∃ piece, piece <+: encode body ∧ Adds w (w.frame body).1 piece := by
  unfold frame encode
  generalize Text.Utf8.encode ("Content-Length: " ++ toString body.length ++ "\r\n\r\n") = octets
  have header := adds_put w octets
  rcases put : w.put octets with ⟨first, fault | _⟩
  · simp only [put] at header ⊢
    obtain ⟨piece, part, adds⟩ := header
    exact ⟨piece, part.trans (List.prefix_append _ _), adds⟩
  · -- The header is on its way, whole.
    have whole := @put_ok w octets (by rw [put])
    obtain ⟨_, -, -, grows⟩ := header
    rw [put] at whole grows
    obtain ⟨piece, part, adds⟩ := adds_put first body
    have both : octets ++ piece <+: octets ++ body := (List.prefix_append_right_inj octets).mpr part
    have added := (Adds.mk whole grows).trans adds
    rcases content : first.put body with ⟨second, fault | _⟩
    · simp only [put, content] at added ⊢
      exact ⟨_, both, added⟩
    · simp only [put, content] at added ⊢
      have flushed := added.trans (adds_flush second)
      rw [List.append_nil] at flushed
      exact ⟨_, both, flushed⟩

end Writer
end Frame

structure Posting where
  subject : Subject
  text : List Char
  reactions : List Frame.Reaction := []
  failing : Option StreamError := none

def Posting.frame (p : Posting) : List UInt8 := Frame.encode (Json.octets p.text)

/-- A connection in use, with all that its sink was flushed of. -/
structure Channel where
  connection : Connection
  flushed : List UInt8 := []

namespace Channel

def handed (ch : Channel) : List UInt8 := ch.flushed ++ ch.connection.writer.sink.taken

def kept (ch : Channel) : List UInt8 := ch.connection.writer.buffer

/-- What the sink was handed, and what it will be handed next. -/
def way (ch : Channel) : List UInt8 := ch.handed ++ ch.kept

def facing (ch : Channel) (p : Posting) : Connection :=
  let sink := { ch.connection.writer.sink with reactions := p.reactions, failing := p.failing }
  { ch.connection with writer := { ch.connection.writer with sink } }

def post (ch : Channel) (p : Posting) : Channel × Except TransportError Unit :=
  let (connection, events, outcome) := (ch.facing p).write p.subject p.text
  (⟨connection, ch.flushed ++ wired events⟩, outcome)

def after (ch : Channel) (ps : List Posting) : Channel := ps.foldl (fun ch p => (ch.post p).1) ch

def piece (ch : Channel) (p : Posting) : List UInt8 := (ch.post p).1.way.drop ch.way.length

def pieces : Channel → List Posting → List UInt8
  | _, [] => []
  | ch, p :: ps => ch.piece p ++ pieces (ch.post p).1 ps

/-- The octets on their way before a write, and after it. -/
structure Posted (ch : Channel) (p : Posting) : Prop where
  part : ch.piece p <+: p.frame
  way : (ch.post p).1.way = ch.way ++ ch.piece p
  grows : ch.handed <+: (ch.post p).1.handed
  whole : (ch.post p).2 = .ok () → ch.piece p = p.frame ∧ (ch.post p).1.kept = []

theorem posted (ch : Channel) (p : Posting) : Posted ch p := by
  obtain ⟨piece, part, adds⟩ := Frame.Writer.adds_frame (ch.facing p).writer (Json.octets p.text)
  have added : (ch.post p).1.way = ch.way ++ piece ∧ ch.handed <+: (ch.post p).1.handed ∧
      ((ch.post p).2 = .ok () → piece = p.frame ∧ (ch.post p).1.kept = []) := by
    rcases framed : (ch.facing p).writer.frame (Json.octets p.text) with ⟨w, fault | _⟩
    · rw [framed] at adds
      simp only [post, Connection.write, framed, way, handed, kept, wired, List.flatMap_nil, List.append_nil,
        List.append_assoc]
      refine ⟨congrArg (ch.flushed ++ ·) (adds.passed.trans (List.append_assoc ..)), ?_, by simp⟩
      exact (List.prefix_append_right_inj _).mpr adds.grows
    · obtain ⟨passed, clear⟩ := Frame.Writer.frame_ok framed
      rw [framed] at adds
      have same : piece = p.frame := List.append_cancel_left (adds.passed.symm.trans passed)
      simp only [post, Connection.write, framed, way, handed, kept, wired, Frame.Writer.collect, Event.octets,
        List.flatMap_cons, List.flatMap_nil, List.append_nil, List.append_assoc]
      refine ⟨congrArg (ch.flushed ++ ·) (adds.passed.trans (List.append_assoc ..)), ?_, fun _ => ⟨same, clear⟩⟩
      exact (List.prefix_append_right_inj _).mpr adds.grows
  obtain ⟨way, grows, whole⟩ := added
  have same : ch.piece p = piece := by rw [Channel.piece, way, List.drop_left]
  rw [← same] at part way whole
  exact ⟨part, way, grows, whole⟩

theorem after_cons (ch : Channel) (p : Posting) (ps : List Posting) : ch.after (p :: ps) = (ch.post p).1.after ps := by
  rw [after, List.foldl_cons, after]

theorem after_append (ch : Channel) (ps qs : List Posting) : ch.after (ps ++ qs) = (ch.after ps).after qs :=
  List.foldl_append

theorem way_after (ch : Channel) (ps : List Posting) : (ch.after ps).way = ch.way ++ ch.pieces ps := by
  induction ps generalizing ch with
  | nil => exact (List.append_nil _).symm
  | cons p ps ih => rw [after_cons, ih, (posted ch p).way, pieces, List.append_assoc]

theorem handed_after (ch : Channel) (ps : List Posting) : ch.handed <+: (ch.after ps).handed := by
  induction ps generalizing ch with
  | nil => exact List.prefix_rfl
  | cons p ps ih =>
    rw [after_cons]
    exact (posted ch p).grows.trans (ih _)

/-- What becomes of a message among others. Of the octets on their way, the pieces of the messages before it come
first, then its own, then those of the messages after it. -/
structure Sent (ch : Channel) (before : List Posting) (p : Posting) (after : List Posting) : Prop where
  part : (ch.after before).piece p <+: p.frame
  order : (ch.after (before ++ p :: after)).way =
    ch.way ++ ch.pieces before ++ (ch.after before).piece p ++ (ch.after (before ++ [p])).pieces after
  /-- When a write goes well, the sink has the whole frame as it returns, and nothing is kept. -/
  whole : ((ch.after before).post p).2 = .ok () →
    (ch.after (before ++ [p])).handed = ch.way ++ ch.pieces before ++ p.frame ∧ (ch.after (before ++ [p])).kept = []
  /-- What the sink is handed later is what the write has kept, then pieces of the messages after it. -/
  later : ∃ octets, octets <+: (ch.after (before ++ [p])).kept ++ (ch.after (before ++ [p])).pieces after ∧
    (ch.after (before ++ p :: after)).handed = (ch.after (before ++ [p])).handed ++ octets
  /-- So nothing more of the message is handed over when its write has kept nothing, well as it went or not. -/
  settled : (ch.after (before ++ [p])).kept = [] →
    ∃ octets, octets <+: (ch.after (before ++ [p])).pieces after ∧
      (ch.after (before ++ p :: after)).handed = (ch.after (before ++ [p])).handed ++ octets
  /-- What it has kept is handed over once a write goes well again, all of it. -/
  late : ∀ between next, ((ch.after (before ++ p :: between)).post next).2 = .ok () →
    (ch.after (before ++ p :: (between ++ [next]))).handed =
      (ch.after (before ++ [p])).handed ++ (ch.after (before ++ [p])).kept ++
        (ch.after (before ++ [p])).pieces between ++ next.frame

theorem handed_of_ok {ch : Channel} {p : Posting} (went : (ch.post p).2 = .ok ()) :
    (ch.post p).1.handed = ch.way ++ p.frame := by
  obtain ⟨same, clear⟩ := (posted ch p).whole went
  have way := (posted ch p).way
  rwa [Channel.way, clear, List.append_nil, same] at way

theorem handed_later (ch : Channel) (ps : List Posting) :
    ∃ octets, octets <+: ch.kept ++ ch.pieces ps ∧ (ch.after ps).handed = ch.handed ++ octets := by
  obtain ⟨octets, handed⟩ := handed_after ch ps
  have way := way_after ch ps
  rw [Channel.way, Channel.way, ← handed, List.append_assoc, List.append_assoc, List.append_right_inj] at way
  exact ⟨octets, ⟨_, way⟩, handed.symm⟩

/-- Messages are sent in pieces, in the order of the calls: whole ones where the write went well, and what a
failed write has kept goes out with the next that goes well. -/
theorem sent_in_order (ch : Channel) (before : List Posting) (p : Posting) (after : List Posting) :
    Sent ch before p after := by
  have here := posted (ch.after before) p
  have one (ps : List Posting) (q : Posting) : ch.after (ps ++ [q]) = ((ch.after ps).post q).1 := by
    rw [after_append, after_cons, Channel.after, List.foldl_nil]
  have split (qs : List Posting) : ch.after (before ++ p :: qs) = (ch.after (before ++ [p])).after qs := by
    rw [List.append_cons, after_append]
  have earlier := way_after ch before
  have later := handed_later (ch.after (before ++ [p])) after
  rw [← split] at later
  exact {
    part := here.part
    order := by rw [split, way_after, one, here.way, earlier]
    whole := fun went => by
      rw [one, handed_of_ok went, earlier]
      exact ⟨rfl, (here.whole went).2⟩
    later := later
    settled := fun nothing => by rwa [nothing, List.nil_append] at later
    late := fun between next went => by
      rw [← List.cons_append, ← List.append_assoc, one, handed_of_ok went, split, way_after, Channel.way] }

/-- A notification that the sink refuses is reported as not sent, and goes out before the next one. -/
theorem sent_late :
    let refused : Posting := ⟨.notification 1, Rpc.writeNotification "a" none, [], some ⟨.brokenPipe, none⟩⟩
    let next : Posting := ⟨.notification 2, Rpc.writeNotification "b" none, [], none⟩
    let ch : Channel := ⟨{}, []⟩
    (ch.post refused).2 = .error (.stream ⟨.brokenPipe, none⟩) ∧ (ch.after [refused]).handed = [] ∧
      (ch.after [refused]).kept = refused.frame ∧
      (ch.after [refused, next]).handed = refused.frame ++ next.frame := by
  intro refused next ch
  refine ⟨?_, ?_, ?_, ?_⟩ <;> decide +kernel

end Channel

end LanguageClient
