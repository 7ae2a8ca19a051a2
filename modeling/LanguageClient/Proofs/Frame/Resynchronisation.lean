import LanguageClient.Proofs.Frame.Reader

/-! Text between a block that cannot be used and the next frame.

The body of such a block is left on the stream. If it is a text without blank lines that does
not name the length, its lines pass for headers of the next frame, and what is behind the last
of them for the front of the line with the length.
-/

set_option autoImplicit false
namespace LanguageClient.Frame

/-- A block, up to its blank line and no further, that announces no length. -/
structure Unusable (block : List UInt8) (e : TransportError) : Prop where
  rejected : (next .start block false).arrival = .rejected e
  whole : (next .start block false).rest = []
  cause : e = .missingContentLength ∨ e = .invalidHeader

/-- A text that does not name the length; none of its lines is blank, except perhaps a last one
without an end. -/
structure Passable (junk : List Char) : Prop where
  unnamed : ¬ lengthName <:+: junk
  solid : ∀ before line after, junk = before ++ line ++ '\n' :: after → (∀ c ∈ before.getLast?, c = '\n') →
    '\n' ∉ line → Text.trimChars (line ++ ['\n']) ≠ []

section Blocks

variable {bytes : List UInt8} {e : TransportError}

theorem afterBlock_rejected {block : Block} (rejected : (afterBlock block bytes false).arrival = .rejected e)
    (cause : e = .missingContentLength ∨ e = .invalidHeader) (rest : List UInt8) (ended : Bool) :
    afterBlock block (bytes ++ rest) ended =
      ⟨(afterBlock block bytes false).notes, .rejected e, (afterBlock block bytes false).rest ++ rest⟩ := by
  cases announced : block.announced with
  | error cause =>
    simp only [afterBlock, announced] at rejected ⊢
    rw [rejected]
  | ok n =>
    -- A length that is announced may be too large, but that is another error.
    simp only [afterBlock, announced] at rejected
    split at rejected
    · unfold nextDrain at rejected
      dsimp only at rejected
      split at rejected
      · cases rejected
        simp at cause
      · cases rejected
    · unfold nextBody at rejected
      dsimp only at rejected
      split at rejected <;> simp at rejected

theorem nextHeader_rejected {block : Block} {line : List UInt8}
    (rejected : (nextHeader false block line bytes).arrival = .rejected e)
    (cause : e = .missingContentLength ∨ e = .invalidHeader) (rest : List UInt8) (ended : Bool) :
    nextHeader ended block line (bytes ++ rest) =
      ⟨(nextHeader false block line bytes).notes, .rejected e, (nextHeader false block line bytes).rest ++ rest⟩ := by
  induction bytes generalizing block line with
  | nil => cases rejected
  | cons octet bytes ih =>
    rw [nextHeader] at rejected
    rw [List.cons_append, nextHeader, nextHeader]
    split at rejected
    · rename_i newline
      simp only [if_pos newline]
      split at rejected
      · cases rejected
      · exact afterBlock_rejected rejected cause rest ended
      · rw [ih rejected]
        rfl
    · rename_i other
      simp only [if_neg other]
      exact ih rejected

theorem Unusable.read {block : List UInt8} (unusable : Unusable block e) (rest : List UInt8) (ended : Bool) :
    next .start (block ++ rest) ended = ⟨(next .start block false).notes, .rejected e, rest⟩ := by
  have read := nextHeader_rejected unusable.rejected unusable.cause rest ended
  have whole : (nextHeader false {} [] block).rest = [] := unusable.whole
  rw [whole] at read
  exact read

end Blocks

/-! Lines of a text. -/

section Lines

variable {line junk : List Char}

theorem trimChars_within (chars : List Char) : Text.trimChars chars <:+: chars := by
  have finish : Text.trimChars chars <+: Text.trimStart chars := by
    rw [Text.trimChars, Text.trimEnd, ← List.reverse_suffix, List.reverse_reverse]
    exact List.dropWhile_suffix _
  exact finish.isInfix.trans (List.dropWhile_suffix _).isInfix

theorem take_foreign (unnamed : ¬ lengthName <:+: line) (solid : Text.trimChars line ≠ []) (block : Block) :
    block.take (line.flatMap Text.Utf8.encodeChar) = .header { block with started := true } [] := by
  have visible : (Text.trimChars line).isEmpty = false := by simpa using solid
  have absent : splitAtWord lengthName [] (Text.trimChars line) = none :=
    splitAtWord_none (fun named => unnamed (named.trans (trimChars_within line))) []
  simp only [Block.take, Text.Utf8.decode?_encode, visible, Bool.false_eq_true, if_false, absent]

/-- A first line is a header like any other, and the text behind it can be passed over as well. -/
theorem Passable.uncons {after : List Char} (passable : Passable (line ++ '\n' :: after)) (plain : '\n' ∉ line) :
    ¬ lengthName <:+: line ++ ['\n'] ∧ Text.trimChars (line ++ ['\n']) ≠ [] ∧ Passable after := by
  have split : line ++ '\n' :: after = (line ++ ['\n']) ++ after := by simp
  refine ⟨fun named => passable.unnamed ?_, passable.solid [] line after rfl (by simp) plain, ?_, ?_⟩
  · exact named.trans (split ▸ (List.prefix_append _ _).isInfix)
  · exact fun named => passable.unnamed (named.trans (split ▸ (List.suffix_append _ _).isInfix))
  · rintro before next rest rfl begins
    refine passable.solid (line ++ '\n' :: before) next rest (by simp) ?_
    cases before with
    | nil => simp
    | cons c before => simpa [List.getLast?_append, List.getLast?_cons] using begins

end Lines

/-! The next frame. -/

section Next

variable {n : Nat} {junk : List Char}

theorem nextHeader_passed (passable : Passable junk) (fits : n < 2 ^ 64) {block : Block}
    (valid : block.invalid = false) : ∃ notes, ∀ rest ended, nextHeader ended block []
        (junk.flatMap Text.Utf8.encodeChar ++ (lengthOctets n ++ 10 :: 13 :: 10 :: rest)) =
      (nextAnnounced n rest ended).noting notes := by
  -- Line by line; what is behind a line is shorter.
  induction length : junk.length using Nat.strongRecOn generalizing junk block with
  | ind m ih =>
  by_cases newline : '\n' ∈ junk
  · obtain ⟨line, after, rfl, plain⟩ := List.eq_append_cons_of_mem newline
    obtain ⟨unnamed, solid, later⟩ := passable.uncons plain
    have shorter : after.length < m := by
      rw [← length, List.length_append, List.length_cons]
      omega
    have begun : { block with started := true }.invalid = false := valid
    obtain ⟨notes, same⟩ := ih _ shorter later begun rfl
    have ten : Text.Utf8.encodeChar '\n' = [10] := by decide
    have taken := take_foreign unnamed solid block
    rw [List.flatMap_append, List.flatMap_singleton, ten] at taken
    refine ⟨notes, fun rest ended => ?_⟩
    rw [List.flatMap_append, List.flatMap_cons, ten, List.append_assoc, List.append_assoc,
      List.singleton_append, nextHeader_line (plain_octets plain), List.reverse_nil, List.nil_append, taken]
    exact same rest ended
  · exact ⟨_, nextHeader_behind passable.unnamed newline fits valid⟩

theorem noting_arrival (notes : List Note) (step : Step) : (step.noting notes).arrival = step.arrival := rfl

theorem noting_rest (notes : List Note) (step : Step) : (step.noting notes).rest = step.rest := rfl

theorem next_passed (passable : Passable junk) {body : List UInt8} (fits : body.length < 2 ^ 64) :
    ∃ notes, ∀ rest ended, next .start (junk.flatMap Text.Utf8.encodeChar ++ (encode body ++ rest)) ended =
      (next .start (encode body ++ rest) ended).noting notes := by
  have stream (rest : List UInt8) :
      encode body ++ rest = lengthOctets body.length ++ 10 :: 13 :: 10 :: (body ++ rest) := by
    simp [encode_eq]
  have valid : ({} : Block).invalid = false := rfl
  obtain ⟨notes, same⟩ := nextHeader_passed passable fits valid
  refine ⟨notes, fun rest ended => ?_⟩
  rw [stream, next_header fits]
  exact same (body ++ rest) ended

theorem next_passed_frames (passable : Passable junk) {bodies : List (List UInt8)} (written : bodies ≠ [])
    (fits : ∀ body ∈ bodies, body.length < 2 ^ 64) : ∃ notes, ∀ rest ended,
      next .start (junk.flatMap Text.Utf8.encodeChar ++ (bodies.flatMap encode ++ rest)) ended =
        (next .start (bodies.flatMap encode ++ rest) ended).noting notes := by
  obtain ⟨body, others, rfl⟩ := List.exists_cons_of_ne_nil written
  obtain ⟨notes, same⟩ := next_passed passable (fits body List.mem_cons_self)
  refine ⟨notes, fun rest ended => ?_⟩
  rw [List.flatMap_cons, List.append_assoc]
  exact same (others.flatMap encode ++ rest) ended

end Next

/-- A block that cannot be used and the text behind it cost nothing but themselves. -/
theorem delivers_behind {block : List UInt8} {e : TransportError} {junk : List Char} {bodies : List (List UInt8)}
    (unusable : Unusable block e) (passable : Passable junk) (written : bodies ≠ [])
    (fits : ∀ body ∈ bodies, body.length < 2 ^ 64) :
    Delivers .start (block ++ (junk.flatMap Text.Utf8.encodeChar ++ bodies.flatMap encode))
      (.rejected e :: bodies.map landing ++ [.ended]) := by
  have read := unusable.read (junk.flatMap Text.Utf8.encodeChar ++ bodies.flatMap encode) true
  obtain ⟨arrivals, delivers, -, -, complete⟩ := delivers_frames fits (bodies.flatMap encode).length
  rw [complete (Nat.le_refl _), List.take_length] at delivers
  obtain ⟨notes, same⟩ := next_passed_frames passable written fits
  have passed := same [] true
  rw [List.append_nil] at passed
  refine .more (congrArg Step.arrival read) rfl ?_
  rw [read]
  exact delivers.congr (by rw [passed, noting_arrival]) (by rw [passed, noting_rest])

end LanguageClient.Frame
