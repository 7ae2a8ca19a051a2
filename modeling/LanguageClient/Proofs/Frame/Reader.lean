import LanguageClient.Proofs.Frame.Header
import LanguageClient.Proofs.Frame.Parts

/-! Frames read off a stream.

It does not matter in which parts the octets of a stream arrive. Written frames are read
one by one, whatever is in them, and a stream that is cut off yields no frame that was not
written.
-/

set_option autoImplicit false
namespace LanguageClient.Frame

def Arrival.final : Arrival → Bool
  | .failed _ | .ended => true
  | _ => false

/-- What a written frame arrives as. -/
def landing (body : List UInt8) : Arrival :=
  if bodyLimit < body.length then .rejected (.frameTooLarge body.length bodyLimit) else .frame body

/-! Lines. -/

def afterLine (ended : Bool) (block : Block) (rest : List UInt8) : Line → Step
  | .garbled => ⟨[], .failed notText, rest⟩
  | .blank => afterBlock block rest ended
  | .header block notes => (nextHeader ended block [] rest).noting notes

theorem nextHeader_line {line : List UInt8} (plain : ∀ octet ∈ line, octet ≠ 10) (ended : Bool)
    (block : Block) (before rest : List UInt8) :
    nextHeader ended block before (line ++ 10 :: rest) =
      afterLine ended block rest (block.take (before.reverse ++ line ++ [10])) := by
  induction line generalizing before with
  | nil =>
    rw [List.nil_append, List.append_nil, nextHeader, if_pos rfl, List.reverse_cons]
    rfl
  | cons octet line ih =>
    have other : octet ≠ 10 := plain octet List.mem_cons_self
    have later := ih (fun octet member => plain octet (List.mem_cons_of_mem _ member)) (octet :: before)
    rw [List.cons_append, nextHeader, if_neg other, later, List.reverse_cons, List.append_assoc _ [octet]]
    rfl

theorem nextHeader_end {line : List UInt8} (plain : ∀ octet ∈ line, octet ≠ 10) (block : Block)
    (before : List UInt8) :
    nextHeader true block before line = endHeader block (line.reverse ++ before) := by
  induction line generalizing before with
  | nil => rfl
  | cons octet line ih =>
    have other : octet ≠ 10 := plain octet List.mem_cons_self
    have later := ih (fun octet member => plain octet (List.mem_cons_of_mem _ member)) (octet :: before)
    rw [nextHeader, if_neg other, later]
    simp

theorem plain_octets {line : List Char} (plain : '\n' ∉ line) : ∀ octet ∈ line.flatMap Text.Utf8.encodeChar, octet ≠ 10 := by
  rintro _ member rfl
  obtain ⟨c, listed, octets⟩ := List.mem_flatMap.mp member
  have ten : (10 : UInt8).toNat = 10 := rfl
  rcases Text.Utf8.octet_of_char octets with ⟨-, same⟩ | beyond
  · have newline : c = '\n' := Char.toNat_inj.mp (same.symm.trans ten)
    exact plain (newline ▸ listed)
  · omega

theorem plain_lengthOctets {n : Nat} : ∀ octet ∈ lengthOctets n, octet ≠ 10 :=
  plain_octets fun newline => (ascii_lengthText newline).2 rfl

theorem take_blank (block : Block) : block.take [13, 10] = .blank := by
  have read : Text.Utf8.decode? [13, 10] = some ['\r', '\n'] := by decide
  have empty : (Text.trimChars ['\r', '\n']).isEmpty = true := by decide
  simp only [Block.take, read, empty, if_true]

def nextAnnounced (n : Nat) (rest : List UInt8) (ended : Bool) : Step :=
  if bodyLimit < n then nextDrain n n rest ended else nextBody n [] rest ended

theorem nextHeader_behind {junk : List Char} {n : Nat} (unnamed : ¬ nameChars <:+: junk) (plain : '\n' ∉ junk) (fits : n < 2 ^ 64)
    {block : Block} (valid : block.invalid = false) (rest : List UInt8) (ended : Bool) :
    nextHeader ended block []
        (junk.flatMap Text.Utf8.encodeChar ++ (lengthOctets n ++ 10 :: 13 :: 10 :: rest)) =
      (nextAnnounced n rest ended).noting (skipping junk) := by
  have octets : ∀ octet ∈ junk.flatMap Text.Utf8.encodeChar ++ lengthOctets n, octet ≠ 10 := by
    intro octet member
    rcases List.mem_append.mp member with text | length
    · exact plain_octets plain octet text
    · exact plain_lengthOctets octet length
  have second : 13 :: 10 :: rest = [13] ++ 10 :: rest := rfl
  rw [← List.append_assoc, nextHeader_line octets, List.reverse_nil, List.nil_append,
    take_behind unnamed fits]
  dsimp only [afterLine]
  rw [second, nextHeader_line (by simp), List.reverse_nil, List.nil_append, List.singleton_append,
    take_blank]
  simp only [afterLine, afterBlock, Block.announced, valid]
  rfl

theorem next_header {n : Nat} (fits : n < 2 ^ 64) (rest : List UInt8) (ended : Bool) :
    next .start (lengthOctets n ++ 10 :: 13 :: 10 :: rest) ended =
      if bodyLimit < n then nextDrain n n rest ended else nextBody n [] rest ended :=
  @nextHeader_behind [] n (by decide) (by simp) fits {} rfl rest ended

/-- A written frame is taken off the stream whole, and what comes behind it is left. -/
theorem next_encode {body : List UInt8} (fits : body.length < 2 ^ 64) (rest : List UInt8)
    (ended : Bool) :
    (next .start (encode body ++ rest) ended).arrival = landing body ∧
      (next .start (encode body ++ rest) ended).rest = rest := by
  have stream : encode body ++ rest = lengthOctets body.length ++ 10 :: 13 :: 10 :: (body ++ rest) := by
    simp [encode_eq]
  rw [stream, next_header fits, landing]
  by_cases large : bodyLimit < body.length
  · simp [large, nextDrain]
  · simp [large, nextBody]

/-! Streams that are cut off. -/

theorem take_lengthOctets {n j : Nat} (some : 0 < j) (block : Block) :
    block.take ((lengthOctets n).take j) ≠ .blank := by
  have octets : (lengthOctets n).take j =
      ((lengthText n ++ ['\r']).take j).flatMap Text.Utf8.encodeChar := by
    rw [lengthOctets, Text.Utf8.flatMap_ascii _ fun c member => (ascii_lengthText member).1,
      Text.Utf8.flatMap_ascii _ fun c member => (ascii_lengthText (List.mem_of_mem_take member)).1,
      List.map_take]
  obtain ⟨rest, chars⟩ : ∃ rest, (lengthText n ++ ['\r']).take j = 'C' :: rest := by
    cases j with
    | zero => omega
    | succ j => exact ⟨_, rfl⟩
  have visible : (Text.trimChars ('C' :: rest)).isEmpty = false :=
    Text.trimChars_visible (by decide) rest
  unfold Block.take
  rw [octets, Text.Utf8.decode?_encode, chars]
  simp only [visible, Bool.false_eq_true, if_false]
  split
  · simp
  · split <;> simp

theorem next_cut_line {n j : Nat} :
    (next .start ((lengthOctets n).take j) true).arrival.final = true := by
  have plain : ∀ octet ∈ (lengthOctets n).take j, octet ≠ 10 :=
    fun _ member => plain_lengthOctets _ (List.mem_of_mem_take member)
  show (nextHeader true {} [] _).arrival.final = true
  rw [nextHeader_end plain, List.append_nil, endHeader, List.isEmpty_reverse, List.reverse_reverse]
  cases j with
  | zero => rfl
  | succ j =>
    -- The part counts as the last line of its block, and only a blank one would end the block.
    have line := take_lengthOctets (n := n) (Nat.succ_pos j) {}
    split
    · rfl
    · split
      · rfl
      · rename_i blank
        exact absurd blank line
      · rfl

theorem next_cut_length {n : Nat} (fits : n < 2 ^ 64) :
    (next .start (lengthOctets n ++ [10]) true).arrival.final = true := by
  show (nextHeader true {} [] _).arrival.final = true
  rw [nextHeader_line plain_lengthOctets, List.reverse_nil, List.nil_append, take_length fits]
  rfl

/-- A carriage return at the end of a stream makes a blank line; no octets come behind it. -/
theorem next_cut_blank {n : Nat} (fits : n < 2 ^ 64) :
    next .start (lengthOctets n ++ [10, 13]) true =
      if bodyLimit < n then nextDrain n n [] true else nextBody n [] [] true := by
  have blank (block : Block) : block.take [13] = .blank := by
    have read : Text.Utf8.decode? [13] = some ['\r'] := by decide
    have empty : (Text.trimChars ['\r']).isEmpty = true := by decide
    simp only [Block.take, read, empty, if_true]
  show nextHeader true {} [] _ = _
  rw [nextHeader_line plain_lengthOctets, List.reverse_nil, List.nil_append, take_length fits]
  dsimp only [afterLine]
  rw [nextHeader_end (by simp), endHeader]
  simp only [List.reverse_cons, List.reverse_nil, List.nil_append, List.append_nil, List.isEmpty_cons,
    Bool.false_eq_true, if_false, blank]
  simp only [afterBlock, Block.announced, Step.noting]
  rfl

theorem cut_body {body part : List UInt8} (short : part.length < body.length ∨ part = []) :
    (if bodyLimit < body.length then nextDrain body.length body.length part true
      else nextBody body.length [] part true).arrival.final = true ∨
      (if bodyLimit < body.length then nextDrain body.length body.length part true
        else nextBody body.length [] part true).arrival = landing body ∧
      (if bodyLimit < body.length then nextDrain body.length body.length part true
        else nextBody body.length [] part true).rest = [] := by
  by_cases large : bodyLimit < body.length
  · right
    rcases short with short | rfl
    · simp [large, nextDrain, landing]
      omega
    · simp [large, nextDrain, landing]
  · simp only [if_neg large, nextBody, landing, if_true]
    by_cases whole : (part.take body.length).length = body.length
    · -- Then the body is empty, and so is the part of it.
      rw [List.length_take] at whole
      have empty : part = [] := by
        rcases short with short | empty
        · omega
        · exact empty
      subst empty
      have none : body = [] := List.length_eq_zero_iff.mp (by simpa using whole.symm)
      subst none
      exact .inr ⟨rfl, rfl⟩
    · rw [if_neg whole]
      exact .inl rfl

/-- A cut frame ends the stream; only an oversized body, or none at all, needs no octets. -/
theorem next_cut {body : List UInt8} (fits : body.length < 2 ^ 64) {j : Nat}
    (short : j < (encode body).length) :
    (next .start ((encode body).take j) true).arrival.final = true ∨
      (next .start ((encode body).take j) true).arrival = landing body ∧
        (next .start ((encode body).take j) true).rest = [] := by
  rw [encode_eq] at short ⊢
  rw [List.length_append, List.length_cons, List.length_cons, List.length_cons] at short
  rw [List.take_append]
  -- The cut falls into the first line, behind its end, into the blank line, or into the body.
  rcases Nat.lt_or_ge (lengthOctets body.length).length j with behind | within
  · obtain ⟨left, rfl⟩ := Nat.exists_eq_add_of_lt behind
    have line : (lengthOctets body.length).take ((lengthOctets body.length).length + left + 1) =
        lengthOctets body.length := List.take_of_length_le (by omega)
    have rest : (lengthOctets body.length).length + left + 1 - (lengthOctets body.length).length =
        left + 1 := by omega
    rw [line, rest, List.take_succ_cons]
    match left with
    | 0 => exact .inl (next_cut_length fits)
    | 1 =>
      rw [List.take_succ_cons, List.take_zero, next_cut_blank fits]
      exact cut_body (.inr rfl)
    | left + 2 =>
      rw [List.take_succ_cons, List.take_succ_cons, next_header fits]
      refine cut_body (.inl ?_)
      rw [List.length_take]
      omega
  · have none : j - (lengthOctets body.length).length = 0 := by omega
    rw [none, List.take_zero, List.append_nil]
    exact .inl next_cut_line

/-! Whole streams. -/

/-- What arrives until a stream is over, from a phase of the reading on. -/
inductive Delivers : Phase → List UInt8 → List Arrival → Prop where
  | ended {phase : Phase} {bytes : List UInt8} {arrival : Arrival} :
      (next phase bytes true).arrival = arrival → arrival.final = true →
      Delivers phase bytes [arrival]
  | more {phase : Phase} {bytes : List UInt8} {arrival : Arrival} {arrivals : List Arrival} :
      (next phase bytes true).arrival = arrival → arrival.final = false →
      Delivers .start (next phase bytes true).rest arrivals →
      Delivers phase bytes (arrival :: arrivals)

def Arrival.body? : Arrival → Option (List UInt8)
  | .frame body => some body
  | _ => none

theorem final_landing (body : List UInt8) : (landing body).final = false := by
  unfold landing
  split <;> rfl

theorem body?_landing (bodies : List (List UInt8)) :
    (bodies.map landing).filterMap Arrival.body? = bodies.filter (·.length ≤ bodyLimit) := by
  induction bodies with
  | nil => rfl
  | cons body bodies ih =>
    rw [List.map_cons]
    by_cases large : bodyLimit < body.length
    · have skipped : (landing body).body? = none := by
        rw [landing, if_pos large]
        rfl
      rw [List.filterMap_cons_none skipped, List.filter_cons_of_neg (by simpa using large), ih]
    · have kept : (landing body).body? = some body := by
        rw [landing, if_neg large]
        rfl
      rw [List.filterMap_cons_some kept, List.filter_cons_of_pos (by simpa using large), ih]

theorem body?_of_final {arrival : Arrival} (final : arrival.final = true) : arrival.body? = none := by
  cases arrival with
  | failed e => rfl
  | ended => rfl
  | _ => cases final

theorem Delivers.congr {phase other : Phase} {bytes others : List UInt8} {arrivals : List Arrival}
    (h : Delivers phase bytes arrivals)
    (arrival : (next phase bytes true).arrival = (next other others true).arrival)
    (rest : (next phase bytes true).rest = (next other others true).rest) :
    Delivers other others arrivals := by
  cases h with
  | ended arrived final => exact .ended (arrival.symm.trans arrived) final
  | more arrived going later =>
    rw [rest] at later
    exact .more (arrival.symm.trans arrived) going later

theorem delivers_nil : Delivers .start [] [.ended] := .ended rfl rfl

theorem bodies_cons (arrival : Arrival) {arrivals expected : List Arrival}
    (prefixed : arrivals.filterMap Arrival.body? <+: expected.filterMap Arrival.body?) :
    (arrival :: arrivals).filterMap Arrival.body? <+: (arrival :: expected).filterMap Arrival.body? := by
  rw [List.filterMap_cons, List.filterMap_cons]
  cases arrival.body? with
  | none => exact prefixed
  | some body => exact (List.prefix_cons_inj body).mpr prefixed

/-- Written frames arrive one by one, and then the stream ends in order. If it is cut off,
what arrives still begins like that, and no other body comes. -/
theorem delivers_frames {bodies : List (List UInt8)} (fits : ∀ body ∈ bodies, body.length < 2 ^ 64)
    (k : Nat) : ∃ arrivals, Delivers .start ((bodies.flatMap encode).take k) arrivals ∧
      arrivals.length ≤ bodies.length + 1 ∧
      arrivals.filterMap Arrival.body? <+: (bodies.map landing).filterMap Arrival.body? ∧
      ((bodies.flatMap encode).length ≤ k → arrivals = bodies.map landing ++ [.ended]) := by
  induction bodies generalizing k with
  | nil =>
    rw [List.flatMap_nil, List.take_nil]
    exact ⟨[.ended], delivers_nil, Nat.le_refl 1, List.nil_prefix, fun _ => rfl⟩
  | cons body bodies ih =>
    have first := fits body List.mem_cons_self
    rw [List.flatMap_cons, List.take_append, List.map_cons, List.length_append]
    rcases Nat.lt_or_ge k (encode body).length with cut | whole
    · -- The cut falls into the first frame.
      have none : k - (encode body).length = 0 := by omega
      rw [none, List.take_zero, List.append_nil]
      rcases next_cut first cut with final | ⟨arrived, rest⟩
      · refine ⟨_, .ended rfl final, Nat.le_add_left 1 _, ?_, by omega⟩
        rw [List.filterMap_cons_none (body?_of_final final)]
        exact List.nil_prefix
      · -- Nothing of the body was needed, so the frame arrives all the same, and it is the last.
        have left : Delivers .start (next .start ((encode body).take k) true).rest [.ended] := by
          rw [rest]
          exact delivers_nil
        refine ⟨_, .more arrived (final_landing body) left, Nat.le_add_left 2 _, ?_, by omega⟩
        exact bodies_cons (landing body) List.nil_prefix
    · -- The first frame is taken off whole, and the cut falls into the others.
      obtain ⟨arrivals, delivers, few, prefixed, complete⟩ :=
        ih (fun body member => fits body (List.mem_cons_of_mem _ member)) (k - (encode body).length)
      rw [List.take_of_length_le whole]
      generalize (bodies.flatMap encode).take (k - (encode body).length) = rest at *
      obtain ⟨arrived, left⟩ := next_encode first rest true
      rw [← left] at delivers
      refine ⟨_, .more arrived (final_landing body) delivers, Nat.succ_le_succ few,
        bodies_cons _ prefixed, ?_⟩
      intro enough
      rw [complete (by omega), List.cons_append]

end LanguageClient.Frame
