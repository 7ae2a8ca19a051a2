import LanguageClient.Proofs.Frame.Reader

/-! What a stream holds at the place where a frame should start.

Lines of any kind lead up to a blank one. What they announced decides whether a body is taken,
passed over or not looked for; in the last two cases, and behind a body, the stream goes on.
It is over, with or without an error, where it ends, and at a line that is no text.
-/

set_option autoImplicit false
namespace LanguageClient.Frame

/-- A line and what is left behind it: it has an end of its own, or the stream ends with it. -/
def IsLine (line rest : List UInt8) : Prop :=
  (∃ front, line = front ++ [10] ∧ ∀ octet ∈ front, octet ≠ 10) ∨
    line ≠ [] ∧ (∀ octet ∈ line, octet ≠ 10) ∧ rest = []

/-- What the octets hold for a block of which some lines are read, and what is left of them. -/
inductive Holds : Block → List UInt8 → Arrival → List UInt8 → Prop where
  | ended {block : Block} (fresh : block.started = false) : Holds block [] .ended []
  | cutBlock {block : Block} (begun : block.started = true) : Holds block [] (.failed endedInHeaders) []
  | garbled {block : Block} {line rest : List UInt8} (whole : IsLine line rest)
      (bad : Text.Utf8.decode? line = none) : Holds block (line ++ rest) (.failed notText) rest
  | header {block next : Block} {line rest left : List UInt8} {notes : List Note} {arrival : Arrival}
      (whole : IsLine line rest) (read : block.take line = .header next notes)
      (others : Holds next rest arrival left) : Holds block (line ++ rest) arrival left
  | unusable {block : Block} {line rest : List UInt8} {e : TransportError} (whole : IsLine line rest)
      (blank : block.take line = .blank) (announced : block.announced = .error e) :
      Holds block (line ++ rest) (.rejected e) rest
  | oversized {block : Block} {line rest : List UInt8} {n : Nat} (whole : IsLine line rest)
      (blank : block.take line = .blank) (announced : block.announced = .ok n) (large : bodyLimit < n) :
      Holds block (line ++ rest) (.rejected (.frameTooLarge n bodyLimit)) (rest.drop n)
  | cutBody {block : Block} {line rest : List UInt8} {n : Nat} (whole : IsLine line rest)
      (blank : block.take line = .blank) (announced : block.announced = .ok n) (fits : n ≤ bodyLimit)
      (short : rest.length < n) : Holds block (line ++ rest) (.failed endedInBody) []
  | body {block : Block} {line rest : List UInt8} {n : Nat} (whole : IsLine line rest)
      (blank : block.take line = .blank) (announced : block.announced = .ok n) (fits : n ≤ bodyLimit)
      (enough : n ≤ rest.length) : Holds block (line ++ rest) (.frame (rest.take n)) (rest.drop n)

section Lines

variable {block next : Block} {line rest bytes left : List UInt8} {notes : List Note} {arrival : Arrival}

theorem take_started (read : block.take line = .header next notes) : next.started = true := by
  unfold Block.take at read
  split at read
  · cases read
  · dsimp only at read
    split at read
    · cases read
    · split at read
      · cases read
        rfl
      · split at read <;> cases read <;> rfl

theorem take_garbled (read : block.take line = .garbled) : Text.Utf8.decode? line = none := by
  unfold Block.take at read
  split at read
  · assumption
  · dsimp only at read
    split at read
    · cases read
    · split at read
      · cases read
      · split at read <;> cases read

theorem IsLine.some (whole : IsLine line rest) : 0 < line.length := by
  obtain ⟨front, rfl, -⟩ | ⟨some, -, -⟩ := whole
  · simp
  · exact List.length_pos_iff.mpr some

/-! Behind a blank line. -/

section Blocks

variable {n : Nat}

theorem afterBlock_unusable {e : TransportError} (announced : block.announced = .error e) (rest : List UInt8) :
    afterBlock block rest true = ⟨[], .rejected e, rest⟩ := by
  simp only [afterBlock, announced]

theorem afterBlock_oversized (announced : block.announced = .ok n) (large : bodyLimit < n) (rest : List UInt8) :
    (afterBlock block rest true).arrival = .rejected (.frameTooLarge n bodyLimit) ∧
      (afterBlock block rest true).rest = rest.drop n := by
  simp only [afterBlock, announced, if_pos large, nextDrain, or_true, if_true, and_self]

theorem afterBlock_cutBody (announced : block.announced = .ok n) (fits : n ≤ bodyLimit)
    (short : rest.length < n) : afterBlock block rest true = ⟨[], .failed endedInBody, []⟩ := by
  have part : (rest.take n).length ≠ n := by
    rw [List.take_of_length_le (Nat.le_of_lt short)]
    exact Nat.ne_of_lt short
  simp only [afterBlock, announced, if_neg (Nat.not_lt_of_le fits), nextBody, if_neg part, if_true]

theorem afterBlock_body (announced : block.announced = .ok n) (fits : n ≤ bodyLimit)
    (enough : n ≤ rest.length) : afterBlock block rest true = ⟨[], .frame (rest.take n), rest.drop n⟩ := by
  have all : (rest.take n).length = n := List.length_take_of_le enough
  have joined : [rest.take n].reverse.flatten = rest.take n := List.append_nil _
  simp only [afterBlock, announced, if_neg (Nat.not_lt_of_le fits), nextBody, if_pos all, joined]

theorem holds_afterBlock (whole : IsLine line rest) (blank : block.take line = .blank) :
    Holds block (line ++ rest) (afterBlock block rest true).arrival (afterBlock block rest true).rest := by
  cases announced : block.announced with
  | error e =>
    rw [afterBlock_unusable announced]
    exact .unusable whole blank announced
  | ok n =>
    by_cases large : bodyLimit < n
    · obtain ⟨arrival, left⟩ := afterBlock_oversized announced large rest
      rw [arrival, left]
      exact .oversized whole blank announced large
    · have fits : n ≤ bodyLimit := Nat.le_of_not_lt large
      by_cases enough : n ≤ rest.length
      · rw [afterBlock_body announced fits enough]
        exact .body whole blank announced fits enough
      · have short : rest.length < n := Nat.lt_of_not_le enough
        rw [afterBlock_cutBody announced fits short]
        exact .cutBody whole blank announced fits short

end Blocks

/-! Line by line. -/

theorem endHeader_line (some : line ≠ []) :
    (endHeader block line.reverse).arrival = (afterLine true block [] (block.take line)).arrival ∧
      (endHeader block line.reverse).rest = (afterLine true block [] (block.take line)).rest := by
  have written : line.reverse.isEmpty = false := by simpa using some
  rw [endHeader, written, List.reverse_reverse]
  cases read : block.take line with
  | garbled => exact ⟨rfl, rfl⟩
  | blank => exact ⟨rfl, rfl⟩
  | header next notes =>
    have begun := take_started read
    simp only [Bool.false_eq_true, if_false, afterLine, Step.noting, nextHeader, if_true, endHeader,
      List.isEmpty_nil, begun, and_self]

theorem nextHeader_whole (whole : IsLine line rest) :
    (nextHeader true block [] (line ++ rest)).arrival = (afterLine true block rest (block.take line)).arrival ∧
      (nextHeader true block [] (line ++ rest)).rest = (afterLine true block rest (block.take line)).rest := by
  obtain ⟨front, rfl, plain⟩ | ⟨some, plain, rfl⟩ := whole
  · rw [← List.append_cons, nextHeader_line plain]
    exact ⟨rfl, rfl⟩
  · rw [List.append_nil, nextHeader_end plain, List.append_nil]
    exact endHeader_line some

theorem line_of_some (some : bytes ≠ []) : ∃ line rest, bytes = line ++ rest ∧ IsLine line rest := by
  by_cases newline : 10 ∈ bytes
  · obtain ⟨front, rest, rfl, first⟩ := List.eq_append_cons_of_mem newline
    exact ⟨front ++ [10], rest, List.append_cons .., .inl ⟨front, rfl, fun octet member same => first (same ▸ member)⟩⟩
  · exact ⟨bytes, [], (List.append_nil _).symm, .inr ⟨some, fun octet member same => newline (same ▸ member), rfl⟩⟩

theorem holds_nextHeader (block : Block) (bytes : List UInt8) :
    Holds block bytes (nextHeader true block [] bytes).arrival (nextHeader true block [] bytes).rest := by
  -- Line by line; what is left behind a line is shorter.
  induction length : bytes.length using Nat.strongRecOn generalizing block bytes with
  | ind n ih =>
  by_cases none : bytes = []
  · subst none
    rw [nextHeader, if_pos rfl, endHeader, List.isEmpty_nil, if_pos rfl]
    cases begun : block.started with
    | true => exact .cutBlock begun
    | false => exact .ended begun
  · obtain ⟨line, rest, rfl, whole⟩ := line_of_some none
    obtain ⟨arrival, left⟩ := @nextHeader_whole block _ _ whole
    have shorter : rest.length < n := by
      have some := whole.some
      rw [← length, List.length_append]
      omega
    rw [arrival, left]
    cases read : block.take line with
    | garbled => exact .garbled whole (take_garbled read)
    | blank => exact holds_afterBlock whole read
    | header next notes => exact .header whole read (ih rest.length shorter next rest rfl)

end Lines

section Streams

variable {block : Block} {bytes left : List UInt8} {arrival : Arrival} {arrivals : List Arrival} {e : StreamError}

theorem read_of_line {line rest : List UInt8} {after : Line} (whole : IsLine line rest)
    (read : block.take line = after) (follows : (afterLine true block rest after).arrival = arrival ∧
      (afterLine true block rest after).rest = left) :
    (nextHeader true block [] (line ++ rest)).arrival = arrival ∧
      (nextHeader true block [] (line ++ rest)).rest = left := by
  rw [← read] at follows
  obtain ⟨first, behind⟩ := @nextHeader_whole block _ _ whole
  exact ⟨first.trans follows.1, behind.trans follows.2⟩

theorem Holds.read (holds : Holds block bytes arrival left) :
    (nextHeader true block [] bytes).arrival = arrival ∧ (nextHeader true block [] bytes).rest = left := by
  induction holds with
  | ended fresh =>
    simp only [nextHeader, if_true, endHeader, List.isEmpty_nil, fresh, Bool.false_eq_true, if_false, and_self]
  | cutBlock begun => simp only [nextHeader, if_true, endHeader, List.isEmpty_nil, begun, and_self]
  | @garbled block line _ whole bad =>
    have read : block.take line = .garbled := by simp only [Block.take, bad]
    exact read_of_line whole read ⟨rfl, rfl⟩
  | header whole read _ ih => exact read_of_line whole read ih
  | @unusable _ _ rest _ whole blank announced =>
    have follows := afterBlock_unusable announced rest
    exact read_of_line whole blank ⟨congrArg Step.arrival follows, congrArg Step.rest follows⟩
  | oversized whole blank announced large =>
    exact read_of_line whole blank (afterBlock_oversized announced large _)
  | cutBody whole blank announced fits short =>
    have follows := afterBlock_cutBody announced fits short
    exact read_of_line whole blank ⟨congrArg Step.arrival follows, congrArg Step.rest follows⟩
  | body whole blank announced fits enough =>
    have follows := afterBlock_body announced fits enough
    exact read_of_line whole blank ⟨congrArg Step.arrival follows, congrArg Step.rest follows⟩

theorem holds_iff : Holds {} bytes arrival left ↔
    (next .start bytes true).arrival = arrival ∧ (next .start bytes true).rest = left := by
  constructor
  · exact Holds.read
  · rintro ⟨rfl, rfl⟩
    exact holds_nextHeader {} bytes

theorem Holds.shorter (holds : Holds block bytes arrival left) (going : arrival.final = false) :
    left.length < bytes.length := by
  induction holds with
  | ended | cutBlock | garbled | cutBody => cases going
  | header whole _ _ ih =>
    have fewer := ih going
    rw [List.length_append]
    omega
  | unusable whole | oversized whole | body whole =>
    have some := whole.some
    simp only [List.length_append, List.length_drop]
    omega

/-- What arrives from a stream until it is over. -/
inductive Yields : List UInt8 → List Arrival → Prop where
  | last {bytes left : List UInt8} {arrival : Arrival} (holds : Holds {} bytes arrival left)
      (final : arrival.final = true) : Yields bytes [arrival]
  | more {bytes left : List UInt8} {arrival : Arrival} {arrivals : List Arrival}
      (holds : Holds {} bytes arrival left) (going : arrival.final = false)
      (others : Yields left arrivals) : Yields bytes (arrival :: arrivals)

theorem Yields.unique (first : Yields bytes arrivals) {others : List Arrival} (second : Yields bytes others) :
    arrivals = others := by
  -- Both derivations are read off the same octets, so they agree on what comes next and on being last.
  induction first generalizing others with
  | last holds final =>
    obtain ⟨arrival, -⟩ := holds.read
    cases second with
    | last twin _ => rw [← arrival, twin.read.1]
    | more twin going _ =>
      rw [← arrival, twin.read.1, going] at final
      cases final
  | more holds going _ ih =>
    obtain ⟨arrival, rest⟩ := holds.read
    cases second with
    | last twin final =>
      rw [← arrival, twin.read.1, final] at going
      cases going
    | more twin _ later =>
      rw [← twin.read.2, rest] at later
      rw [← arrival, twin.read.1, ih later]

theorem delivers_of_bytes (bytes : List UInt8) :
    ∃ arrivals, Delivers .start bytes arrivals ∧ Yields bytes arrivals := by
  induction length : bytes.length using Nat.strongRecOn generalizing bytes with
  | ind n ih =>
  have holds : Holds {} bytes (next .start bytes true).arrival (next .start bytes true).rest :=
    holds_nextHeader {} bytes
  cases final : (next .start bytes true).arrival.final with
  | true => exact ⟨_, .ended rfl final, .last holds final⟩
  | false =>
    obtain ⟨arrivals, delivers, yields⟩ := ih _ (length ▸ holds.shorter final) _ rfl
    exact ⟨_, .more rfl final delivers, .more holds final yields⟩

def Garbled (bytes : List UInt8) : Prop :=
  ∃ before line rest, bytes = before ++ line ++ rest ∧ IsLine line rest ∧ Text.Utf8.decode? line = none

theorem Garbled.of_suffix (garbled : Garbled left) (behind : left <:+ bytes) : Garbled bytes := by
  obtain ⟨passed, line, rest, rfl, whole, bad⟩ := garbled
  obtain ⟨before, rfl⟩ := behind
  exact ⟨before ++ passed, line, rest, by simp only [List.append_assoc], whole, bad⟩

theorem Holds.suffix (holds : Holds block bytes arrival left) : left <:+ bytes := by
  induction holds with
  | ended | cutBlock | cutBody => exact List.nil_suffix
  | garbled | unusable => exact List.suffix_append _ _
  | header _ _ _ ih => exact ih.trans (List.suffix_append _ _)
  | oversized | body => exact (List.drop_suffix _ _).trans (List.suffix_append _ _)

/-- How a stream can fail: it ends in a header block or in a body, or a line is no text. -/
theorem Holds.fault (holds : Holds block bytes (.failed e) left) :
    e = endedInHeaders ∨ e = endedInBody ∨ e = notText ∧ Garbled bytes := by
  -- The arrival is made a variable: the induction is over what the octets hold, whatever it is.
  generalize failed : Arrival.failed e = arrival at holds
  induction holds with
  | ended | unusable | oversized | body => cases failed
  | cutBlock =>
    cases failed
    exact .inl rfl
  | cutBody =>
    cases failed
    exact .inr (.inl rfl)
  | @garbled _ line rest whole bad =>
    cases failed
    exact .inr (.inr ⟨rfl, [], line, rest, rfl, whole, bad⟩)
  | header _ _ _ ih =>
    obtain headers | body | ⟨text, garbled⟩ := ih failed
    · exact .inl headers
    · exact .inr (.inl body)
    · exact .inr (.inr ⟨text, garbled.of_suffix (List.suffix_append _ _)⟩)

theorem Yields.fault (yields : Yields bytes arrivals) (failed : .failed e ∈ arrivals) :
    e = endedInHeaders ∨ e = endedInBody ∨ e = notText ∧ Garbled bytes := by
  induction yields with
  | last holds _ => exact (List.mem_singleton.mp failed ▸ holds).fault
  | more holds going _ ih =>
    obtain rfl | later := List.mem_cons.mp failed
    · cases going
    · obtain headers | body | ⟨text, garbled⟩ := ih later
      · exact .inl headers
      · exact .inr (.inl body)
      · exact .inr (.inr ⟨text, garbled.of_suffix holds.suffix⟩)

end Streams
end LanguageClient.Frame
