import LanguageClient.Frame.Reader
import LanguageClient.Proofs.Text.Utf8

/-! The header of a frame, as it is written and read.

A written header is one line with the length and a blank one. Cut short, it never passes
for a header of another length.
-/

set_option autoImplicit false
namespace LanguageClient.Frame

open Text (numeral)

def nameChars : List Char :=
  ['C', 'o', 'n', 't', 'e', 'n', 't', '-', 'L', 'e', 'n', 'g', 't', 'h', ':']

theorem lengthName_eq : lengthName = nameChars := rfl

def lengthText (n : Nat) : List Char := nameChars ++ [' '] ++ numeral n

def lengthOctets (n : Nat) : List UInt8 := (lengthText n ++ ['\r']).flatMap Text.Utf8.encodeChar

theorem encode_eq (body : List UInt8) :
    encode body = lengthOctets body.length ++ 10 :: 13 :: 10 :: body := by
  have name : "Content-Length: ".toList = nameChars ++ [' '] := rfl
  have ending : "\r\n\r\n".toList = ['\r'] ++ ['\n', '\r', '\n'] := rfl
  have length : (toString body.length).toList = numeral body.length := Nat.toList_repr
  have tail : ['\n', '\r', '\n'].flatMap Text.Utf8.encodeChar = [10, 13, 10] := by decide
  rw [encode, Text.Utf8.encode, String.toList_append, String.toList_append, name, ending, length]
  rw [← List.append_assoc, List.flatMap_append, tail, lengthOctets, lengthText]
  simp

theorem ascii_lengthText {n : Nat} {c : Char} (member : c ∈ lengthText n ++ ['\r']) :
    c.toNat < 0x80 ∧ c ≠ '\n' := by
  have named : ∀ c ∈ nameChars ++ [' '], c.toNat < 0x80 ∧ c ≠ '\n' := by simp [nameChars]
  have ended : ∀ c ∈ ['\r'], c.toNat < 0x80 ∧ c ≠ '\n' := by simp
  rcases List.mem_append.mp member with line | last
  · rcases List.mem_append.mp line with word | digit
    · exact named c word
    · obtain ⟨low, high⟩ := Text.toNat_of_isDigit (Text.isDigit_of_numeral digit)
      refine ⟨by omega, ?_⟩
      rintro rfl
      exact absurd low (by decide)
  · exact ended c last

/-! The name of the header, behind other text. -/

section Behind

variable {front : List Char}

/-- The first letter of the name does not come again in it, so no name begins within another. -/
theorem unbordered {more : List Char} (inner : more <:+ nameChars.tail) (start : more <+: nameChars) :
    more = [] := by
  cases more with
  | nil => rfl
  | cons c more =>
    obtain ⟨after, same⟩ := start
    obtain rfl : c = 'C' := (List.cons.inj same).1
    exact absurd (inner.subset List.mem_cons_self) (by decide)

/-- A name that begins within a text has its end within that text, too. -/
theorem unnamed_start (some : front ≠ []) (unnamed : ¬ nameChars <:+: front) (rest : List Char) :
    ¬ nameChars.isPrefixOf (front ++ (nameChars ++ rest)) = true := by
  rw [List.isPrefixOf_iff_prefix]
  intro named
  rcases List.prefix_or_prefix_of_prefix named (List.prefix_append front _) with within | ⟨more, cut⟩
  · exact unnamed within.isInfix
  · rw [← cut, List.prefix_append_right_inj, cut] at named
    have short : more.length ≤ nameChars.length := by
      rw [← cut, List.length_append]
      omega
    have start : more <+: nameChars := List.prefix_of_prefix_length_le named (List.prefix_append _ _) short
    have inner : more <:+ nameChars.tail := by
      obtain ⟨c, front, rfl⟩ := List.exists_cons_of_ne_nil some
      exact ⟨front, by rw [← cut]; rfl⟩
    rw [unbordered inner start, List.append_nil] at cut
    exact unnamed (cut ▸ List.infix_rfl)

theorem splitAtWord_cons {c : Char} {rest : List Char} (other : ¬ nameChars.isPrefixOf (c :: rest) = true)
    (before : List Char) :
    splitAtWord lengthName before (c :: rest) = splitAtWord lengthName (c :: before) rest := by
  rw [splitAtWord]
  exact if_neg other

theorem splitAtWord_behind (unnamed : ¬ nameChars <:+: front) (before rest : List Char) :
    splitAtWord lengthName before (front ++ (nameChars ++ rest)) = some (before.reverse ++ front, rest) := by
  induction front generalizing before with
  | nil => simp [lengthName_eq, nameChars, splitAtWord]
  | cons c front ih =>
    have other := unnamed_start (List.cons_ne_nil c front) unnamed rest
    rw [List.cons_append] at other
    have later : ¬ nameChars <:+: front := fun named => unnamed (named.trans (List.suffix_cons c front).isInfix)
    rw [List.cons_append, splitAtWord_cons other, ih later, List.reverse_cons, List.append_assoc,
      List.singleton_append]

theorem splitAtWord_none (unnamed : ¬ nameChars <:+: front) (before : List Char) :
    splitAtWord lengthName before front = none := by
  induction front generalizing before with
  | nil => rfl
  | cons c front ih =>
    have other : ¬ nameChars.isPrefixOf (c :: front) = true := fun named =>
      unnamed (List.isPrefixOf_iff_prefix.mp named).isInfix
    have later : ¬ nameChars <:+: front := fun named => unnamed (named.trans (List.suffix_cons c front).isInfix)
    rw [splitAtWord_cons other, ih later]

theorem trimChars_behind (front : List Char) (n : Nat) :
    Text.trimChars (front ++ (lengthText n ++ ['\r', '\n'])) = Text.trimStart front ++ lengthText n := by
  have solid : Text.trimStart (lengthText n ++ ['\r', '\n']) = lengthText n ++ ['\r', '\n'] :=
    Text.trimStart_cons (by decide) _
  have start : Text.trimStart (front ++ (lengthText n ++ ['\r', '\n'])) =
      Text.trimStart front ++ (lengthText n ++ ['\r', '\n']) := by
    rw [Text.trimStart, List.dropWhile_append]
    split
    · rename_i blank
      rw [← Text.trimStart, solid, Text.trimStart, List.isEmpty_iff.mp blank, List.nil_append]
    · rfl
  have blank : ∀ c ∈ ['\r', '\n'], Text.isBlank c = true := by simp [Text.isBlank]
  have finish := Text.trimEnd_numeral (Text.trimStart front ++ (nameChars ++ [' '])) n blank
  rw [Text.trimChars, start, lengthText]
  simpa only [List.append_assoc] using finish

def skipping (front : List Char) : List Note :=
  if 0 < Text.Utf8.width (Text.trimStart front) then [.resynchronised (Text.Utf8.width (Text.trimStart front))]
  else []

theorem take_behind (unnamed : ¬ nameChars <:+: front) {n : Nat} (fits : n < 2 ^ 64) (block : Block) :
    block.take (front.flatMap Text.Utf8.encodeChar ++ lengthOctets n ++ [10]) =
      .header { block with started := true, length := some n } (skipping front) := by
  have octets : front.flatMap Text.Utf8.encodeChar ++ lengthOctets n ++ [10] =
      (front ++ (lengthText n ++ ['\r', '\n'])).flatMap Text.Utf8.encodeChar := by
    have ending : ['\r', '\n'] = ['\r'] ++ ['\n'] := rfl
    have newline : ['\n'].flatMap Text.Utf8.encodeChar = [10] := by decide
    rw [ending, ← List.append_assoc (lengthText n), List.flatMap_append, List.flatMap_append, newline,
      lengthOctets, List.append_assoc]
  have visible : (Text.trimStart front ++ lengthText n).isEmpty = false := by simp [lengthText, nameChars]
  have trimmed : ¬ nameChars <:+: Text.trimStart front := fun named =>
    unnamed (named.trans (List.dropWhile_suffix _).isInfix)
  have found : splitAtWord lengthName [] (Text.trimStart front ++ lengthText n) =
      some (Text.trimStart front, ' ' :: numeral n) := by
    rw [lengthText, List.append_assoc]
    exact splitAtWord_behind trimmed [] _
  unfold Block.take
  rw [octets, Text.Utf8.decode?_encode]
  simp only [trimChars_behind, visible, found, Text.trimChars_numeral, Text.unsigned64?_numeral fits]
  rfl

end Behind

theorem take_length {n : Nat} (fits : n < 2 ^ 64) (block : Block) :
    block.take (lengthOctets n ++ [10]) = .header { block with started := true, length := some n } [] :=
  @take_behind [] (by decide) n fits block

end LanguageClient.Frame
