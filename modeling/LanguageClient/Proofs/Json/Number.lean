import LanguageClient.Json.Reader.Number
import LanguageClient.Proofs.Json.String

/-! Integers are read as they were written, and passed over to their end. -/

set_option autoImplicit false
namespace LanguageClient.Json

open Text (numeral)

def Stops (rest : List UInt8) : Prop :=
  ∀ b ∈ rest.head?, isDigit b = false ∧ b ≠ ascii '.' ∧ isExponentMark b = false

theorem stops_nil : Stops [] := by simp [Stops]

theorem stops_cons {b : UInt8} (other : isDigit b = false ∧ b ≠ ascii '.' ∧ isExponentMark b = false)
    (rest : List UInt8) : Stops (b :: rest) := by
  simpa [Stops] using other

/-! Digits. -/

theorem octets_digits {chars : List Char} (digits : ∀ c ∈ chars, c.isDigit = true) :
    octets chars = chars.map ascii :=
  Text.Utf8.flatMap_ascii chars fun c member => by
    have bounds := Text.toNat_of_isDigit (digits c member)
    omega

theorem isDigit_ascii {c : Char} (digit : c.isDigit = true) : isDigit (ascii c) = true := by
  obtain ⟨low, high⟩ := Text.toNat_of_isDigit digit
  have same : (ascii c).toNat = c.toNat := Text.Utf8.toNat_octet (by omega)
  simp only [isDigit, Bool.and_eq_true, decide_eq_true_eq, UInt8.le_iff_toNat_le, same]
  exact ⟨low, high⟩

theorem digitValue_ascii {c : Char} (digit : c.isDigit = true) : digitValue (ascii c) = c.toNat - 48 := by
  have bounds := Text.toNat_of_isDigit digit
  rw [digitValue, ascii, Text.Utf8.toNat_octet (by omega)]

def digits (n : Nat) : List UInt8 := octets (numeral n)

theorem digits_eq (n : Nat) : digits n = (numeral n).map ascii :=
  octets_digits fun _ member => Text.isDigit_of_numeral member

theorem isDigit_of_digits {n : Nat} {b : UInt8} (member : b ∈ digits n) : isDigit b = true := by
  rw [digits_eq] at member
  obtain ⟨c, listed, rfl⟩ := List.mem_map.mp member
  exact isDigit_ascii (Text.isDigit_of_numeral listed)

theorem digits_ne_nil (n : Nat) : digits n ≠ [] := by
  rw [digits_eq]
  exact fun none => Text.numeral_ne_nil n (List.map_eq_nil_iff.mp none)

theorem numeral_zero {n : Nat} {rest : List Char} (zero : numeral n = '0' :: rest) : rest = [] := by
  induction n using Nat.strongRecOn generalizing rest with
  | ind n ih =>
    by_cases one : n < 10
    · rw [numeral, Nat.toDigits_of_lt_base one] at zero
      exact (List.cons.inj zero).2.symm
    · have split : numeral n = numeral (n / 10) ++ [(n % 10).digitChar] :=
        Nat.toDigits_of_base_le (by decide) (by omega)
      rw [split] at zero
      cases front : numeral (n / 10) with
      | nil => exact absurd front (Text.numeral_ne_nil _)
      | cons c more =>
        rw [front, List.cons_append] at zero
        obtain ⟨rfl, -⟩ := List.cons.inj zero
        obtain rfl := ih (n / 10) (by omega) front
        have value : Nat.ofDigitChars 10 (numeral (n / 10)) 0 = n / 10 := Nat.ofDigitChars_ten_toDigits
        rw [front] at value
        have none : Nat.ofDigitChars 10 ['0'] 0 = 0 := by decide
        omega

theorem digits_zero {n : Nat} {rest : List UInt8} (zero : digits n = ascii '0' :: rest) : rest = [] := by
  cases chars : numeral n with
  | nil => exact absurd chars (Text.numeral_ne_nil n)
  | cons c more =>
    rw [digits_eq, chars, List.map_cons] at zero
    obtain ⟨first, tail⟩ := List.cons.inj zero
    have digit := Text.toNat_of_isDigit (Text.isDigit_of_numeral (n := n) (c := c) (by simp [chars]))
    have same : c = '0' := by
      have code := congrArg UInt8.toNat first
      rw [ascii, ascii, Text.Utf8.toNat_octet (by omega), Text.Utf8.toNat_octet (by decide)] at code
      exact Char.toNat_inj.mp code
    subst same
    rw [← tail, numeral_zero chars, List.map_nil]

theorem gather_digits {chars : List Char} (digits : ∀ c ∈ chars, c.isDigit = true) {significand : Nat}
    (fits : Nat.ofDigitChars 10 chars significand < significandLimit) :
    gather significand (chars.map ascii) =
      (Nat.ofDigitChars 10 chars significand, chars.length, []) := by
  induction chars generalizing significand with
  | nil => rfl
  | cons c chars ih =>
    have digit := digits c List.mem_cons_self
    have others : ∀ c ∈ chars, c.isDigit = true := fun c member => digits c (List.mem_cons_of_mem _ member)
    have next : significand * 10 + digitValue (ascii c) = 10 * significand + (c.toNat - '0'.toNat) := by
      rw [digitValue_ascii digit, Nat.mul_comm]
      rfl
    rw [Nat.ofDigitChars_cons] at fits
    -- What is gathered only grows, so it is below the limit all along.
    have grows : 10 * significand + (c.toNat - '0'.toNat) ≤
        Nat.ofDigitChars 10 chars (10 * significand + (c.toNat - '0'.toNat)) := by
      rw [Nat.ofDigitChars_eq_ofDigitChars_zero]
      have := Nat.le_mul_of_pos_left (10 * significand + (c.toNat - '0'.toNat))
        (Nat.pow_pos (n := chars.length) (show 0 < 10 by decide))
      omega
    rw [List.map_cons, gather, next]
    simp only [if_pos (Nat.lt_of_le_of_lt grows fits), ih others fits, List.length_cons, Nat.ofDigitChars_cons]

/-! Reading and passing over. -/

section

variable {n : Nat} {rest : List UInt8}

theorem takeWhile_isDigit {ds : List UInt8} (digits : ∀ b ∈ ds, isDigit b = true)
    (stop : ∀ b ∈ rest.head?, isDigit b = false) : (ds ++ rest).takeWhile isDigit = ds := by
  rw [List.takeWhile_append_of_pos digits]
  cases rest with
  | nil => exact List.append_nil _
  | cons b rest => rw [List.takeWhile_cons_of_neg (by simp [stop b rfl]), List.append_nil]

theorem dropWhile_isDigit {ds : List UInt8} (digits : ∀ b ∈ ds, isDigit b = true)
    (stop : ∀ b ∈ rest.head?, isDigit b = false) : (ds ++ rest).dropWhile isDigit = rest := by
  rw [List.dropWhile_append_of_pos digits]
  cases rest with
  | nil => rfl
  | cons b rest => rw [List.dropWhile_cons_of_neg (by simp [stop b rfl])]

theorem takeWhile_digits (n : Nat) (stops : Stops rest) :
    (digits n ++ rest).takeWhile isDigit = digits n :=
  takeWhile_isDigit (fun _ member => isDigit_of_digits member) fun b first => (stops b first).1

theorem dropWhile_digits (n : Nat) (stops : Stops rest) :
    (digits n ++ rest).dropWhile isDigit = rest :=
  dropWhile_isDigit (fun _ member => isDigit_of_digits member) fun b first => (stops b first).1

theorem first_digits {b : UInt8} {more : List UInt8} (stops : Stops rest)
    (first : digits n ++ rest = b :: more) :
    isDigit b = true ∧ ¬ (b = ascii '0' ∧ (more.head?.map isDigit).getD false) := by
  cases front : digits n with
  | nil => exact absurd front (digits_ne_nil n)
  | cons d left =>
    rw [front, List.cons_append] at first
    obtain ⟨rfl, rfl⟩ := List.cons.inj first
    refine ⟨isDigit_of_digits (front ▸ List.mem_cons_self), ?_⟩
    rintro ⟨rfl, digit⟩
    obtain rfl := digits_zero front
    cases rest with
    | nil => cases digit
    | cons b rest =>
      have other := (stops b rfl).1
      simp [other] at digit

theorem readNumber_digits (positive : Bool) (fits : n < 2 ^ 64) (stops : Stops rest) :
    readNumber positive (digits n ++ rest) = .ok (wholeNumber positive n, rest) := by
  have gathered : gather 0 (digits n) = (n, (numeral n).length, []) := by
    have value : Nat.ofDigitChars 10 (numeral n) 0 = n := Nat.ofDigitChars_ten_toDigits
    have small : Nat.ofDigitChars 10 (numeral n) 0 < significandLimit := value.symm ▸ fits
    rw [digits_eq, gather_digits (fun _ member => Text.isDigit_of_numeral member) small, value]
  have left : (digits n ++ rest).drop (digits n).length = rest := List.drop_left
  unfold readNumber
  split
  · rename_i none
    exact absurd (List.append_eq_nil_iff.mp none).1 (digits_ne_nil n)
  · rename_i b more first
    obtain ⟨digit, alone⟩ := first_digits stops first
    simp only [digit, Bool.not_true, Bool.false_eq_true, if_false, if_neg alone]
    rw [takeWhile_digits n stops, left, gathered]
    cases rest with
    | nil => rfl
    | cons b rest =>
      obtain ⟨-, point, mark⟩ := stops b rfl
      simp only [if_neg point, mark, Bool.false_eq_true, if_false, List.isEmpty_nil, if_true]

theorem skipNumber_digits (n : Nat) (stops : Stops rest) : skipNumber (digits n ++ rest) = .ok rest := by
  unfold skipNumber
  split
  · rename_i none
    exact absurd (List.append_eq_nil_iff.mp none).1 (digits_ne_nil n)
  · rename_i b more first
    obtain ⟨digit, alone⟩ := first_digits stops first
    simp only [digit, Bool.not_true, Bool.false_eq_true, if_false, if_neg alone]
    rw [dropWhile_digits n stops]
    cases rest with
    | nil => rfl
    | cons b rest =>
      obtain ⟨-, point, mark⟩ := stops b rfl
      simp only [if_neg point, mark, Bool.false_eq_true, if_false]

end

/-! Integers with their sign. -/

/-- An integer that stays exact. -/
def Exact (n : Int) : Prop := -0x8000000000000000 ≤ n ∧ n < 0x10000000000000000

instance (n : Int) : Decidable (Exact n) := inferInstanceAs (Decidable (_ ∧ _))

theorem octets_writeInt (n : Int) :
    octets (writeInt n) = if n < 0 then ascii '-' :: digits n.natAbs else digits n.natAbs := by
  unfold writeInt
  split
  · exact octets_ascii (by decide) _
  · rfl

theorem wholeNumber_natAbs {n : Int} (exact : Exact n) :
    wholeNumber (!decide (n < 0)) n.natAbs = .integer n := by
  obtain ⟨low, high⟩ := exact
  by_cases negative : n < 0
  · have fits : 0 < n.natAbs ∧ n.natAbs ≤ 0x8000000000000000 := by omega
    have same : -(n.natAbs : Int) = n := by omega
    simp only [wholeNumber, negative, decide_true, Bool.not_true, Bool.false_eq_true, if_false, if_pos fits, same]
  · have same : (n.natAbs : Int) = n := by omega
    simp only [wholeNumber, negative, decide_false, Bool.not_false, if_true, same]

end LanguageClient.Json
