import LanguageClient.Text.Blank
import LanguageClient.Text.Numeral
import LanguageClient.Text.Utf8
import Mathlib.Algebra.Group.Nat.Defs
import Mathlib.Data.List.TakeDrop
import Mathlib.Data.List.TakeWhile

/-! Printed numbers and the text between blanks can be read; ASCII takes an octet for each character. -/

set_option autoImplicit false
namespace LanguageClient.Text

/-! Numbers. -/

theorem toNat_of_isDigit {c : Char} (digit : c.isDigit = true) : 48 ≤ c.toNat ∧ c.toNat ≤ 57 := by
  simp only [Char.isDigit, Bool.and_eq_true, decide_eq_true_eq, ge_iff_le, UInt32.le_iff_toNat_le] at digit
  exact digit

theorem digits?_foldl (chars : List Char) (digits : ∀ c ∈ chars, c.isDigit = true) (total : Nat) :
    chars.foldl (fun total c =>
      total.bind fun n => if c.isDigit then some (n * 10 + (c.toNat - 48)) else none) (some total) =
      some (Nat.ofDigitChars 10 chars total) := by
  induction chars generalizing total with
  | nil => rfl
  | cons c rest ih =>
    have digit := digits c List.mem_cons_self
    have later := ih (fun c member => digits c (List.mem_cons_of_mem _ member))
    rw [List.foldl_cons, Option.bind_some, if_pos digit, later, Nat.ofDigitChars_cons, Nat.mul_comm]
    rfl

def numeral (n : Nat) : List Char := Nat.toDigits 10 n

theorem isDigit_of_numeral {n : Nat} {c : Char} (member : c ∈ numeral n) : c.isDigit = true :=
  Nat.isDigit_of_mem_toDigits (by decide) (by decide) member

theorem numeral_ne_nil (n : Nat) : numeral n ≠ [] := Nat.toDigits_ne_nil

theorem digits?_numeral (n : Nat) : digits? (numeral n) = some n := by
  have some : (numeral n).isEmpty = false := by simpa using numeral_ne_nil n
  rw [digits?, some]
  simp only [Bool.false_eq_true, if_false]
  rw [digits?_foldl _ (fun c member => isDigit_of_numeral member)]
  exact congrArg Option.some Nat.ofDigitChars_ten_toDigits

theorem unsigned64?_numeral {n : Nat} (fits : n < 2 ^ 64) : unsigned64? (numeral n) = some n := by
  unfold unsigned64?
  dsimp only
  split
  · rename_i rest same
    have digit := isDigit_of_numeral (show '+' ∈ numeral n by rw [same]; exact List.mem_cons_self)
    cases digit
  · rw [digits?_numeral]
    simpa [Option.filter] using fits

section Numerals

variable {chars : List Char}

theorem none_of_foldl (chars : List Char) :
    chars.foldl (fun total c =>
      total.bind fun n => if c.isDigit then some (n * 10 + (c.toNat - 48)) else none) none = (none : Option Nat) := by
  induction chars with
  | nil => rfl
  | cons c chars ih => exact ih

theorem isDigit_of_foldl {total : Option Nat} {n : Nat}
    (read : chars.foldl (fun total c =>
      total.bind fun n => if c.isDigit then some (n * 10 + (c.toNat - 48)) else none) total = some n) :
    ∀ c ∈ chars, c.isDigit = true := by
  induction chars generalizing total with
  | nil => exact List.forall_mem_nil _
  | cons c chars ih =>
    rw [List.foldl_cons] at read
    refine List.forall_mem_cons.mpr ⟨?_, ih read⟩
    by_contra other
    have stuck : (total.bind fun n => if c.isDigit then some (n * 10 + (c.toNat - 48)) else none) = none := by
      cases total <;> simp [other]
    rw [stuck, none_of_foldl] at read
    cases read

theorem isDigit_of_digits? {n : Nat} (read : digits? chars = some n) : ∀ c ∈ chars, c.isDigit = true := by
  unfold digits? at read
  split at read
  · cases read
  · exact isDigit_of_foldl read

def InNumber (c : Char) : Prop := c.isDigit = true ∨ c ∈ ['+', '-', '.', 'e', 'E']

instance : DecidablePred InNumber := fun c =>
  inferInstanceAs (Decidable (c.isDigit = true ∨ c ∈ ['+', '-', '.', 'e', 'E']))

theorem inNumber_of_splitSign (rest : ∀ c ∈ (splitSign chars).2, InNumber c) : ∀ c ∈ chars, InNumber c := by
  unfold splitSign at rest
  split at rest
  · exact List.forall_mem_cons.mpr ⟨.inr (by decide), rest⟩
  · exact List.forall_mem_cons.mpr ⟨.inr (by decide), rest⟩
  · exact rest

theorem inNumber_of_digits? {n : Nat} (read : digits? chars = some n) : ∀ c ∈ chars, InNumber c :=
  fun c member => .inl (isDigit_of_digits? read c member)

theorem inNumber_of_exponent? {n : Int} (read : exponent? chars = some n) : ∀ c ∈ chars, InNumber c := by
  unfold exponent? at read
  split at read
  · exact List.forall_mem_nil _
  · rename_i mark rest
    dsimp only at read
    split at read
    · rename_i letter
      obtain ⟨_, found, -⟩ := Option.map_eq_some_iff.mp read
      obtain ⟨n, digits, -⟩ := Option.bind_eq_some_iff.mp found
      refine List.forall_mem_cons.mpr ⟨.inr ?_, inNumber_of_splitSign (inNumber_of_digits? digits)⟩
      rcases letter with rfl | rfl <;> decide
    · cases read

theorem inNumber_of_fraction {n : Int}
    (read : exponent? (match chars with
      | '.' :: rest => rest.span Char.isDigit
      | rest => ([], rest)).2 = some n) : ∀ c ∈ chars, InNumber c := by
  split at read
  · rename_i rest
    rw [List.span_eq_takeWhile_dropWhile] at read
    rw [← List.takeWhile_append_dropWhile (p := Char.isDigit) (l := rest)]
    refine List.forall_mem_cons.mpr ⟨.inr (by decide), List.forall_mem_append.mpr ⟨?_, ?_⟩⟩
    · exact fun c member => .inl (List.mem_takeWhile_imp member)
    · exact inNumber_of_exponent? read
  · exact inNumber_of_exponent? read

theorem inNumber_of_decimal? {decimal : Decimal} (read : decimal? chars = some decimal) :
    ∀ c ∈ chars, InNumber c := by
  refine inNumber_of_splitSign ?_
  unfold decimal? at read
  generalize splitSign chars = signed at read ⊢
  obtain ⟨negative, unsigned⟩ := signed
  obtain ⟨after, parts⟩ := List.takeWhile_prefix Char.isDigit (l := unsigned)
  have behind : unsigned.drop (unsigned.takeWhile Char.isDigit).length = after :=
    (congrArg (List.drop _) parts).symm.trans List.drop_left
  simp only [behind] at read
  obtain ⟨_, -, read⟩ := Option.bind_eq_some_iff.mp read
  obtain ⟨_, exponent, -⟩ := Option.bind_eq_some_iff.mp read
  rw [← parts]
  refine List.forall_mem_append.mpr ⟨?_, inNumber_of_fraction exponent⟩
  exact fun c member => .inl (List.mem_takeWhile_imp member)

theorem inNumber_of_unsigned64? {n : Nat} (read : unsigned64? chars = some n) : ∀ c ∈ chars, InNumber c := by
  unfold unsigned64? at read
  dsimp only at read
  split at read
  · exact List.forall_mem_cons.mpr ⟨.inr (by decide), inNumber_of_digits? (Option.filter_eq_some_iff.mp read).1⟩
  · exact inNumber_of_digits? (Option.filter_eq_some_iff.mp read).1

end Numerals

/-! Blanks. -/

theorem trimStart_cons {c : Char} (solid : isBlank c = false) (rest : List Char) :
    trimStart (c :: rest) = c :: rest := by
  simp [trimStart, solid]

theorem trimEnd_append {c : Char} (solid : isBlank c = false) (before : List Char)
    {after : List Char} (blank : ∀ c ∈ after, isBlank c = true) :
    trimEnd (before ++ [c] ++ after) = before ++ [c] := by
  have skipped : (after.reverse ++ (c :: before.reverse)).dropWhile isBlank = c :: before.reverse := by
    rw [List.dropWhile_append_of_pos (by simpa using blank)]
    simp [solid]
  simp [trimEnd, skipped]

theorem trimEnd_blank (before : List Char) {after : List Char} (blank : ∀ c ∈ after, isBlank c = true) :
    trimEnd (before ++ after) = trimEnd before := by
  rw [trimEnd, List.reverse_append, List.dropWhile_append_of_pos (by simpa using blank)]
  rfl

theorem trimChars_blank {before after : List Char} (first : ∀ c ∈ before, isBlank c = true)
    (last : ∀ c ∈ after, isBlank c = true) (chars : List Char) :
    trimChars (before ++ (chars ++ after)) = trimChars chars := by
  rw [trimChars, trimStart, List.dropWhile_append_of_pos first, List.dropWhile_append]
  split
  · rename_i blank
    have none : after.dropWhile isBlank = [] := by
      rw [← List.append_nil after, List.dropWhile_append_of_pos last, List.dropWhile_nil]
    rw [none, trimChars, trimStart, List.isEmpty_iff.mp blank]
  · exact trimEnd_blank _ last

theorem isBlank_of_isDigit {c : Char} (digit : c.isDigit = true) : isBlank c = false := by
  obtain ⟨low, high⟩ := toNat_of_isDigit digit
  simp only [isBlank, Bool.or_eq_false_iff, Bool.and_eq_false_iff, decide_eq_false_iff_not, beq_eq_false_iff_ne]
  omega

theorem trimEnd_numeral (before : List Char) (n : Nat) {after : List Char}
    (blank : ∀ c ∈ after, isBlank c = true) :
    trimEnd (before ++ numeral n ++ after) = before ++ numeral n := by
  have digits : numeral n = (numeral n).dropLast ++ [(numeral n).getLast (numeral_ne_nil n)] :=
    (List.dropLast_concat_getLast _).symm
  have solid := isBlank_of_isDigit (isDigit_of_numeral (List.getLast_mem (numeral_ne_nil n)))
  rw [digits, ← List.append_assoc]
  exact trimEnd_append solid _ blank

theorem trimChars_numeral (n : Nat) : trimChars (' ' :: numeral n) = numeral n := by
  have start : trimStart (' ' :: numeral n) = numeral n := by
    have blank : isBlank ' ' = true := by decide
    rw [trimStart, List.dropWhile_cons_of_pos blank]
    cases digits : numeral n with
    | nil => exact absurd digits (numeral_ne_nil n)
    | cons c rest =>
      have solid : isBlank c = false :=
        isBlank_of_isDigit (isDigit_of_numeral (by rw [digits]; exact List.mem_cons_self))
      exact trimStart_cons solid rest
  have finish := trimEnd_numeral [] n (show ∀ c ∈ [], isBlank c = true by simp)
  rw [trimChars, start]
  simpa using finish

theorem trimChars_visible {c : Char} (solid : isBlank c = false) (rest : List Char) :
    (trimChars (c :: rest)).isEmpty = false := by
  rw [trimChars, trimStart_cons solid, trimEnd, List.isEmpty_reverse, List.reverse_cons,
    List.dropWhile_append]
  split
  · rw [List.dropWhile_cons_of_neg (by simp [solid])]
    rfl
  · simp

/-- A text does not begin with a blank, nor does it end in one. -/
def Trimmed (text : String) : Prop := trim text = text

theorem trimChars_of_trimmed {text : String} (trimmed : Trimmed text) : trimChars text.toList = text.toList := by
  have same := congrArg String.toList trimmed
  rwa [trim, String.toList_ofList] at same

theorem trimEnd_length_le (chars : List Char) : (trimEnd chars).length ≤ chars.length := by
  have shorter : (chars.reverse.dropWhile isBlank).length ≤ chars.reverse.length :=
    (List.dropWhile_suffix _).length_le
  rw [List.length_reverse] at shorter
  rwa [trimEnd, List.length_reverse]

theorem trimStart_of_trimChars {chars : List Char} (trimmed : trimChars chars = chars) : trimStart chars = chars := by
  have suffix : trimStart chars <:+ chars := List.dropWhile_suffix _
  have whole := trimEnd_length_le (trimStart chars)
  rw [← trimChars, trimmed] at whole
  exact suffix.eq_of_length_le whole

theorem trimChars_length_le (chars : List Char) : (trimChars chars).length ≤ chars.length :=
  (trimEnd_length_le _).trans (List.dropWhile_suffix _).length_le

theorem trimChars_trimChars (chars : List Char) : trimChars (trimChars chars) = trimChars chars := by
  let before := chars.takeWhile isBlank
  let after := ((trimStart chars).reverse.takeWhile isBlank).reverse
  have inner : trimStart chars = trimChars chars ++ after := by
    rw [trimChars, trimEnd, ← List.reverse_append, List.takeWhile_append_dropWhile, List.reverse_reverse]
  have whole : chars = before ++ (trimChars chars ++ after) := by
    rw [← inner]
    exact List.takeWhile_append_dropWhile.symm
  have blank := @trimChars_blank before after (fun c member => List.mem_takeWhile_imp member)
    (fun c member => List.mem_takeWhile_imp (List.mem_reverse.mp member)) (trimChars chars)
  rw [← whole] at blank
  exact blank.symm

theorem trimmed_trim (text : String) : Trimmed (trim text) := by
  simp only [Trimmed, trim, String.toList_ofList, trimChars_trimChars]

/-! ASCII. -/

namespace Utf8

theorem encodeChar_ascii {c : Char} (ascii : c.toNat < 0x80) : encodeChar c = [.ofNat c.toNat] := by
  simp [encodeChar, ascii]

theorem flatMap_ascii (chars : List Char) (ascii : ∀ c ∈ chars, c.toNat < 0x80) :
    chars.flatMap encodeChar = chars.map fun c => .ofNat c.toNat := by
  induction chars with
  | nil => rfl
  | cons c rest ih =>
    have later := ih fun c member => ascii c (List.mem_cons_of_mem _ member)
    rw [List.flatMap_cons, encodeChar_ascii (ascii c List.mem_cons_self), later]
    rfl

end Utf8
end LanguageClient.Text
