import LanguageClient.Frame.Reader

/-! Octets that come in parts.

What has arrived stays, whatever comes behind it. Where the reading waits, it goes on as if the octets
had come at once. So it does not matter in which parts they come.
-/

set_option autoImplicit false
namespace LanguageClient.Frame

def Arrival.come? : Arrival → Option Arrival
  | .starved _ => none
  | arrival => some arrival

theorem come?_eq_some {arrival other : Arrival} :
    arrival.come? = some other ↔ arrival = other ∧ ∀ phase, arrival ≠ .starved phase := by
  cases arrival with
  | starved phase => simp [Arrival.come?]
  | _ => simp [Arrival.come?]

theorem come?_eq_none {arrival : Arrival} : arrival.come? = none ↔ ∃ phase, arrival = .starved phase := by
  cases arrival with
  | starved phase => simp [Arrival.come?]
  | _ => simp [Arrival.come?]

theorem come?_idem {arrival other : Arrival} (come : arrival.come? = some other) : other.come? = some other := by
  obtain ⟨rfl, arrived⟩ := come?_eq_some.mp come
  exact come

/-- Steps that come to the same. Where both wait, each may have kept the octets in parts of its own. -/
def Step.Same (first second : Step) : Prop :=
  first.arrival.come? = second.arrival.come? ∧ first.rest = second.rest

theorem Step.Same.trans {first second third : Step} (h : first.Same second) (k : second.Same third) :
    first.Same third := ⟨h.1.trans k.1, h.2.trans k.2⟩

structure Whole (frame : List UInt8) (arrival : Arrival) : Prop where
  arrived : (next .start frame false).arrival = arrival
  rest : (next .start frame false).rest = []

theorem Whole.come {frame : List UInt8} {arrival : Arrival} (whole : Whole frame arrival)
    (arrived : ∀ phase, arrival ≠ .starved phase) : (next .start frame false).arrival.come? = some arrival := by
  rw [whole.arrived]
  exact come?_eq_some.mpr ⟨rfl, arrived⟩

def Extends (first : Step) (others : List UInt8) (ended : Bool) (whole : Step) : Prop :=
  match first.arrival with
  | .starved phase => (next phase others ended).Same whole
  | arrival => whole.arrival = arrival ∧ whole.rest = first.rest ++ others

section Parts

variable {ended : Bool}

theorem extends_body (missing : Nat) (read : List (List UInt8)) (bytes others : List UInt8) (ended : Bool) :
    Extends (nextBody missing read bytes false) others ended (nextBody missing read (bytes ++ others) ended) := by
  by_cases enough : missing ≤ bytes.length
  · -- The whole body has come; the others all stay behind it.
    have all : (bytes.take missing).length = missing := List.length_take_of_le enough
    have same : (bytes ++ others).take missing = bytes.take missing := List.take_append_of_le_length enough
    simp only [Extends, nextBody, same, all, if_true]
    exact ⟨trivial, List.drop_append_of_le_length enough⟩
  · -- The part that has come counts, and the others go on where it stops.
    have part : bytes.take missing = bytes := List.take_of_length_le (by omega)
    have short : bytes.length ≠ missing := by omega
    have whole : (bytes ++ others).take missing = bytes ++ others.take (missing - bytes.length) := by
      rw [List.take_append, part]
    have left : (bytes ++ others).drop missing = others.drop (missing - bytes.length) := by
      rw [List.drop_append, List.drop_eq_nil_of_le (by omega), List.nil_append]
    have level : bytes.length + (others.take (missing - bytes.length)).length = missing ↔
        (others.take (missing - bytes.length)).length = missing - bytes.length := by omega
    simp only [Extends, nextBody, next, part, if_neg short, whole, left, List.length_append,
      Bool.false_eq_true, if_false, level]
    split
    · simp [Step.Same]
    · cases ended <;> exact ⟨rfl, rfl⟩

theorem extends_drain (declared missing : Nat) (bytes others : List UInt8) (ended : Bool) :
    Extends (nextDrain declared missing bytes false) others ended
      (nextDrain declared missing (bytes ++ others) ended) := by
  by_cases enough : missing ≤ bytes.length
  · have all : min missing bytes.length = missing := Nat.min_eq_left enough
    have more : min missing (bytes ++ others).length = missing := by
      rw [List.length_append]
      omega
    simp only [Extends, nextDrain, all, more, true_or, if_true]
    exact ⟨trivial, List.drop_append_of_le_length enough⟩
  · -- All that has come is passed over, and the others go on with what is missing.
    have left : (bytes ++ others).drop missing = others.drop (missing - bytes.length) := by
      rw [List.drop_append, List.drop_eq_nil_of_le (by omega), List.nil_append]
    have dropped : min missing bytes.length = bytes.length := by omega
    have short : ¬ (bytes.length = missing ∨ False) := by
      rintro (all | none)
      · omega
      · exact none
    have level : min missing (bytes ++ others).length = missing ↔
        min (missing - bytes.length) others.length = missing - bytes.length := by
      rw [List.length_append]
      omega
    simp only [Extends, nextDrain, next, Bool.false_eq_true, dropped, if_neg short, left, level]
    split <;> exact ⟨rfl, rfl⟩

theorem extends_afterBlock (block : Block) (bytes others : List UInt8) (ended : Bool) :
    Extends (afterBlock block bytes false) others ended (afterBlock block (bytes ++ others) ended) := by
  unfold afterBlock
  split
  · exact ⟨rfl, rfl⟩
  · split
    · exact extends_drain ..
    · exact extends_body ..

theorem Extends.noting {first whole : Step} {others : List UInt8} (h : Extends first others ended whole)
    (notes more : List Note) : Extends (first.noting notes) others ended (whole.noting more) := h

theorem extends_header (block : Block) (line bytes others : List UInt8) (ended : Bool) :
    Extends (nextHeader false block line bytes) others ended (nextHeader ended block line (bytes ++ others)) := by
  -- Octet by octet; at the end of a line both blocks have read the same.
  induction bytes generalizing block line with
  | nil => exact ⟨rfl, rfl⟩
  | cons octet bytes ih =>
    rw [List.cons_append, nextHeader, nextHeader]
    split
    · split
      · exact ⟨rfl, rfl⟩
      · exact extends_afterBlock ..
      · exact (ih _ _).noting _ _
    · exact ih _ _

theorem next_extends (phase : Phase) (bytes others : List UInt8) (ended : Bool) :
    Extends (next phase bytes false) others ended (next phase (bytes ++ others) ended) := by
  cases phase with
  | header block line => exact extends_header ..
  | body missing read => exact extends_body ..
  | drain declared missing => exact extends_drain ..

variable {phase waiting : Phase} {bytes : List UInt8} {arrival : Arrival}

/-- What has come stays the same with others behind it. -/
theorem next_of_come (come : (next phase bytes false).arrival.come? = some arrival) (others : List UInt8)
    (ended : Bool) : (next phase (bytes ++ others) ended).arrival = arrival ∧
      (next phase (bytes ++ others) ended).rest = (next phase bytes false).rest ++ others := by
  obtain ⟨rfl, arrived⟩ := come?_eq_some.mp come
  have whole := next_extends phase bytes others ended
  unfold Extends at whole
  split at whole
  · rename_i waiting starved
    exact (arrived waiting starved).elim
  · exact whole

theorem come_append (come : (next phase bytes false).arrival.come? = some arrival) (others : List UInt8)
    (ended : Bool) : (next phase (bytes ++ others) ended).arrival.come? = some arrival ∧
      (next phase (bytes ++ others) ended).rest = (next phase bytes false).rest ++ others := by
  obtain ⟨same, rest⟩ := next_of_come come others ended
  rw [same]
  exact ⟨come?_idem come, rest⟩

/-- Where the reading waits, it goes on as with everything at once. -/
theorem next_of_starved (starved : (next phase bytes false).arrival = .starved waiting) (others : List UInt8)
    (ended : Bool) : (next waiting others ended).Same (next phase (bytes ++ others) ended) := by
  have whole := next_extends phase bytes others ended
  unfold Extends at whole
  rwa [starved] at whole

end Parts

/-! A stream that is over is never asked for more. -/

theorem nextBody_ended (missing : Nat) (read : List (List UInt8)) (bytes : List UInt8) (phase : Phase) :
    (nextBody missing read bytes true).arrival ≠ .starved phase := by
  unfold nextBody
  dsimp only
  split <;> simp

theorem nextDrain_ended (declared missing : Nat) (bytes : List UInt8) (phase : Phase) :
    (nextDrain declared missing bytes true).arrival ≠ .starved phase := by
  simp [nextDrain]

theorem afterBlock_ended (block : Block) (bytes : List UInt8) (phase : Phase) :
    (afterBlock block bytes true).arrival ≠ .starved phase := by
  unfold afterBlock
  split
  · simp
  · split
    · exact nextDrain_ended _ _ _ _
    · exact nextBody_ended _ _ _ _

theorem nextHeader_ended (block : Block) (line bytes : List UInt8) (phase : Phase) :
    (nextHeader true block line bytes).arrival ≠ .starved phase := by
  -- On an ended input the reader starves nowhere: each of its ends is a message, a fault or the end.
  induction bytes generalizing block line with
  | nil =>
    show (endHeader block line).arrival ≠ _
    unfold endHeader
    split
    · split <;> simp
    · split
      · simp
      · exact afterBlock_ended _ _ _
      · simp
  | cons octet bytes ih =>
    rw [nextHeader]
    split
    · split
      · simp
      · exact afterBlock_ended _ _ _
      · exact ih _ _
    · exact ih _ _

theorem next_ended (phase : Phase) (bytes : List UInt8) (later : Phase) :
    (next phase bytes true).arrival ≠ .starved later := by
  cases phase with
  | header block line => exact nextHeader_ended _ _ _ _
  | body missing read => exact nextBody_ended _ _ _ _
  | drain declared missing => exact nextDrain_ended _ _ _ _

/-! A stream that ends behind the others. -/

/-- A step on the first octets of a stream that ends behind the others: it comes to the same,
at once or with the others. -/
def Agrees (first : Step) (others : List UInt8) (whole : Step) : Prop :=
  match first.arrival with
  | .starved phase =>
      whole.arrival = (next phase others true).arrival ∧ whole.rest = (next phase others true).rest
  | arrival => whole.arrival = arrival ∧ whole.rest = first.rest ++ others

/-- It does not matter in how many parts a stream arrives. -/
theorem next_append (phase : Phase) (bytes others : List UInt8) :
    Agrees (next phase bytes false) others (next phase (bytes ++ others) true) := by
  unfold Agrees
  split
  · rename_i waiting starved
    obtain ⟨come, rest⟩ := next_of_starved starved others true
    cases met : (next waiting others true).arrival.come? with
    | none =>
      obtain ⟨later, still⟩ := come?_eq_none.mp met
      exact absurd still (next_ended _ _ _)
    | some arrival =>
      rw [met] at come
      exact ⟨(come?_eq_some.mp come.symm).1.trans (come?_eq_some.mp met).1.symm, rest.symm⟩
  · rename_i come
    exact next_of_come (come?_eq_some.mpr ⟨rfl, come⟩) others true

namespace Agrees

variable {first whole : Step} {others : List UInt8}

theorem of_starved (h : Agrees first others whole) {phase : Phase}
    (starved : first.arrival = .starved phase) :
    whole.arrival = (next phase others true).arrival ∧ whole.rest = (next phase others true).rest := by
  simpa only [Agrees, starved] using h

theorem of_arrived (h : Agrees first others whole) (arrived : ∀ phase, first.arrival ≠ .starved phase) :
    whole.arrival = first.arrival ∧ whole.rest = first.rest ++ others := by
  unfold Agrees at h
  split at h
  · rename_i phase starved
    exact absurd starved (arrived phase)
  · exact h

end Agrees

end LanguageClient.Frame
