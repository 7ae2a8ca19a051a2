import LanguageClient.Json.Writer
import LanguageClient.Proofs.Double
import LanguageClient.Proofs.Json.Number

/-! Printed doubles can be read.

A double is printed with a point or an exponent. Reading keeps of its digits what fits into 64 bits,
and scales that by a power of ten; the result may be another double, but it is never out of range.
-/

set_option autoImplicit false
namespace LanguageClient.Json

open Text (numeral)
open Double (twos)

/-! Digits. -/

section Digits

variable {chars : List Char}

theorem isDigit_of_map (digits : ∀ c ∈ chars, c.isDigit = true) : ∀ b ∈ chars.map ascii, isDigit b = true := by
  intro b member
  obtain ⟨c, listed, rfl⟩ := List.mem_map.mp member
  exact isDigit_ascii (digits c listed)

theorem ofDigitChars_lt (digits : ∀ c ∈ chars, c.isDigit = true) (start : Nat) :
    Nat.ofDigitChars 10 chars start < (start + 1) * 10 ^ chars.length := by
  induction chars generalizing start with
  | nil => simp
  | cons c chars ih =>
    obtain ⟨low, high⟩ := Text.toNat_of_isDigit (digits c List.mem_cons_self)
    have zero : '0'.toNat = 48 := rfl
    have later := ih (fun c member => digits c (List.mem_cons_of_mem _ member))
      (10 * start + (c.toNat - '0'.toNat))
    rw [Nat.ofDigitChars_cons, List.length_cons, Nat.pow_succ]
    refine Nat.lt_of_lt_of_le later ?_
    rw [Nat.mul_comm (10 ^ chars.length), ← Nat.mul_assoc]
    exact Nat.mul_le_mul_right _ (by omega)

/-- What is gathered fits, and with as many zeros as digits are left it is not above the number. -/
theorem gather_le (digits : ∀ c ∈ chars, c.isDigit = true) {significand : Nat}
    (fits : significand < significandLimit) :
    (gather significand (chars.map ascii)).1 < significandLimit ∧
      ∃ left, (gather significand (chars.map ascii)).2.1 + left = chars.length ∧
        (gather significand (chars.map ascii)).1 * 10 ^ left ≤ Nat.ofDigitChars 10 chars significand := by
  induction chars generalizing significand with
  | nil => exact ⟨fits, 0, rfl, by simp [gather]⟩
  | cons c chars ih =>
    have others : ∀ c ∈ chars, c.isDigit = true := fun c member => digits c (List.mem_cons_of_mem _ member)
    have next : significand * 10 + digitValue (ascii c) = 10 * significand + (c.toNat - '0'.toNat) := by
      rw [digitValue_ascii (digits c List.mem_cons_self), Nat.mul_comm]
      rfl
    rw [List.map_cons, gather, next]
    split
    · -- The digit still fits, so it is kept.
      rename_i small
      obtain ⟨below, left, count, bound⟩ := ih others small
      refine ⟨below, left, ?_, ?_⟩
      · rw [List.length_cons, ← count]
        exact Nat.add_right_comm _ _ _
      · rw [Nat.ofDigitChars_cons]
        exact bound
    · -- It does not, and with it all that follow are dropped.
      refine ⟨fits, chars.length + 1, by simp, ?_⟩
      rw [Nat.ofDigitChars_eq_ofDigitChars_zero, List.length_cons, Nat.mul_comm]
      exact Nat.le_add_right _ _

theorem gatherExponent_digits (digits : ∀ c ∈ chars, c.isDigit = true) {start : Nat} {rest : List UInt8}
    (fits : Nat.ofDigitChars 10 chars start < 0x80000000) (stop : ∀ b ∈ rest.head?, isDigit b = false) :
    gatherExponent start (chars.map ascii ++ rest) = (some (Nat.ofDigitChars 10 chars start), rest) := by
  induction chars generalizing start with
  | nil =>
    cases rest with
    | nil => rfl
    | cons b rest => simp [gatherExponent, stop b rfl]
  | cons c chars ih =>
    have digit := digits c List.mem_cons_self
    have others : ∀ c ∈ chars, c.isDigit = true := fun c member => digits c (List.mem_cons_of_mem _ member)
    have next : start * 10 + digitValue (ascii c) = 10 * start + (c.toNat - '0'.toNat) := by
      rw [digitValue_ascii digit, Nat.mul_comm]
      rfl
    rw [Nat.ofDigitChars_cons] at fits
    have grows : 10 * start + (c.toNat - '0'.toNat) ≤
        Nat.ofDigitChars 10 chars (10 * start + (c.toNat - '0'.toNat)) := by
      rw [Nat.ofDigitChars_eq_ofDigitChars_zero]
      exact Nat.le_trans (Nat.le_mul_of_pos_left _ (Nat.pow_pos (by decide))) (Nat.le_add_right _ _)
    rw [List.map_cons, List.cons_append, gatherExponent, next]
    simp only [isDigit_ascii digit, if_true, if_pos (Nat.lt_of_le_of_lt grows fits), ih others fits,
      Nat.ofDigitChars_cons]

end Digits

/-! Decimals with a point or an exponent. -/

/-- The parts of a printed number that is no integer. -/
structure Spelling where
  whole : List Char
  fraction : List Char
  /-- Whether it raises, and by how much. -/
  exponent : Option (Bool × Nat)

namespace Spelling

def mark : Option (Bool × Nat) → List Char
  | none => []
  | some (true, n) => 'e' :: '+' :: numeral n
  | some (false, n) => 'e' :: '-' :: numeral n

def text (s : Spelling) : List Char :=
  s.whole ++ (if s.fraction.isEmpty then [] else '.' :: s.fraction) ++ mark s.exponent

structure Valid (s : Spelling) : Prop where
  whole : ∀ c ∈ s.whole, c.isDigit = true
  some : s.whole ≠ []
  first : s.whole.head? = Option.some '0' → s.whole = ['0']
  short : s.whole.length ≤ 16
  fraction : ∀ c ∈ s.fraction, c.isDigit = true
  opened : s.fraction = [] → s.exponent ≠ none
  exponent : ∀ raises n, s.exponent = Option.some (raises, n) → n < 0x80000000

/-- The digits that are kept, and how many of the fraction's there are among them. -/
def kept (s : Spelling) : Nat × Nat :=
  let (significand, count, _) := gather (Nat.ofDigitChars 10 s.whole 0) (s.fraction.map ascii)
  (significand, count)

def raised : Option (Bool × Nat) → Int
  | none => 0
  | some (true, n) => n
  | some (false, n) => -n

def power (s : Spelling) : Int := raised s.exponent - s.kept.2

/-! Reading and passing over. -/

section Reading

variable {s : Spelling} {exponent : Option (Bool × Nat)} {positive : Bool} {significand : Nat} {start : Int}
  {rest : List UInt8}

theorem readExponent_digits {n : Nat} (raises : Bool) (small : n < 0x80000000) (stops : Stops rest) :
    readExponent positive significand start (ascii (if raises then '+' else '-') :: (digits n ++ rest)) =
      floating positive significand (start + raised (Option.some (raises, n))) rest := by
  cases chars : numeral n with
  | nil => exact absurd chars (Text.numeral_ne_nil n)
  | cons c more =>
    have all : ∀ c ∈ numeral n, c.isDigit = true := fun _ member => Text.isDigit_of_numeral member
    have value : Nat.ofDigitChars 10 (numeral n) 0 = n := Nat.ofDigitChars_ten_toDigits
    rw [chars] at all value
    have digit := all c List.mem_cons_self
    have start : Nat.ofDigitChars 10 more (digitValue (ascii c)) = n := by
      rw [Nat.ofDigitChars_cons] at value
      rw [digitValue_ascii digit]
      simpa using value
    have gathered : gatherExponent (digitValue (ascii c)) (more.map ascii ++ rest) = (Option.some n, rest) := by
      rw [gatherExponent_digits (fun c member => all c (List.mem_cons_of_mem _ member)) (start ▸ small)
        (fun b first => (stops b first).1), start]
    have plus : ascii '+' ≠ ascii '-' := by decide
    rw [digits_eq, chars, List.map_cons, List.cons_append]
    cases raises with
    | true =>
      simp only [readExponent, if_true, if_neg plus, isDigit_ascii digit, gathered]
      rfl
    | false =>
      simp only [readExponent, if_true, Bool.false_eq_true, if_false, isDigit_ascii digit, gathered]
      rfl

def readMark (positive : Bool) (significand : Nat) (start : Int) : List UInt8 → Except Failure (Number × List UInt8)
  | b :: more =>
      if isExponentMark b then readExponent positive significand start more
      else floating positive significand start (b :: more)
  | [] => floating positive significand start []

theorem octets_mark (raises : Bool) (n : Nat) (rest : List UInt8) :
    octets (mark (Option.some (raises, n))) ++ rest =
      ascii 'e' :: ascii (if raises then '+' else '-') :: (digits n ++ rest) := by
  cases raises with
  | true => simp only [mark, octets_ascii (c := 'e') (by decide), octets_ascii (c := '+') (by decide)]; rfl
  | false => simp only [mark, octets_ascii (c := 'e') (by decide), octets_ascii (c := '-') (by decide)]; rfl

theorem stop_mark (exponent : Option (Bool × Nat)) (stops : Stops rest) :
    ∀ b ∈ (octets (mark exponent) ++ rest).head?, isDigit b = false ∧ b ≠ ascii '.' := by
  obtain _ | ⟨raises, n⟩ := exponent
  · exact fun b first => ⟨(stops b first).1, (stops b first).2.1⟩
  · rw [octets_mark]
    rintro b ⟨⟩
    decide

theorem readMark_mark (small : ∀ raises n, exponent = Option.some (raises, n) → n < 0x80000000)
    (stops : Stops rest) : readMark positive significand start (octets (mark exponent) ++ rest) =
      floating positive significand (start + raised exponent) rest := by
  obtain _ | ⟨raises, n⟩ := exponent
  · have still : start + raised none = start := Int.add_zero _
    rw [mark, octets_nil, List.nil_append, still]
    cases rest with
    | nil => rfl
    | cons b rest => simp only [readMark, (stops b rfl).2.2, Bool.false_eq_true, if_false]
  · have marks : isExponentMark (ascii 'e') = true := by decide
    rw [octets_mark]
    simp only [readMark, marks, if_true]
    exact readExponent_digits raises (small raises n rfl) stops

theorem readFraction_digits {chars : List Char} (some : chars ≠ []) (digits : ∀ c ∈ chars, c.isDigit = true)
    {bytes : List UInt8} (stop : ∀ b ∈ bytes.head?, isDigit b = false) :
    readFraction positive significand start (chars.map ascii ++ bytes) =
      readMark positive (gather significand (chars.map ascii)).1
        (start - (gather significand (chars.map ascii)).2.1) bytes := by
  have given : (chars.map ascii).isEmpty = false := by simpa using some
  simp only [readFraction, takeWhile_isDigit (isDigit_of_map digits) stop, List.drop_left, given,
    Bool.false_eq_true, if_false]
  cases bytes with
  | nil => rfl
  | cons b more => rfl

def behind (s : Spelling) (rest : List UInt8) : List UInt8 :=
  (if s.fraction.isEmpty then [] else ascii '.' :: s.fraction.map ascii) ++ (octets (mark s.exponent) ++ rest)

theorem octets_text (valid : s.Valid) (rest : List UInt8) :
    octets s.text ++ rest = s.whole.map ascii ++ s.behind rest := by
  rw [text, octets_append, octets_append, octets_digits valid.whole, behind]
  split
  · simp
  · rw [octets_ascii (by decide), octets_digits valid.fraction]
    simp

theorem behind_marked (valid : s.Valid) (none : s.fraction = []) (rest : List UInt8) :
    ∃ raises n, s.exponent = some (raises, n) ∧
      s.behind rest = ascii 'e' :: ascii (if raises then '+' else '-') :: (digits n ++ rest) := by
  rcases exponent : s.exponent with _ | ⟨raises, n⟩
  · exact absurd exponent (valid.opened none)
  · refine ⟨raises, n, rfl, ?_⟩
    rw [behind, none, exponent, octets_mark]
    rfl

theorem behind_pointed (some : s.fraction ≠ []) (rest : List UInt8) :
    s.behind rest = ascii '.' :: (s.fraction.map ascii ++ (octets (mark s.exponent) ++ rest)) := by
  rw [behind, if_neg (by simpa using some), List.cons_append]

theorem stop_behind (valid : s.Valid) (rest : List UInt8) : ∀ b ∈ (s.behind rest).head?, isDigit b = false := by
  by_cases none : s.fraction = []
  · obtain ⟨raises, n, -, marked⟩ := behind_marked valid none rest
    rw [marked]
    rintro b ⟨⟩
    decide
  · rw [behind_pointed none]
    rintro b ⟨⟩
    decide

theorem first_behind (valid : s.Valid) (rest : List UInt8) : ∃ b more, s.whole.map ascii ++ s.behind rest = b :: more ∧
    isDigit b = true ∧ ¬ (b = ascii '0' ∧ (more.head?.map isDigit).getD false) := by
  cases whole : s.whole with
  | nil => exact absurd whole valid.some
  | cons c more =>
    have digit := valid.whole c (whole ▸ List.mem_cons_self)
    refine ⟨ascii c, more.map ascii ++ s.behind rest, rfl, isDigit_ascii digit, ?_⟩
    rintro ⟨zero, follows⟩
    have same : c = '0' := by
      have bounds := Text.toNat_of_isDigit digit
      have code := congrArg UInt8.toNat zero
      rw [ascii, ascii, Text.Utf8.toNat_octet (by omega), Text.Utf8.toNat_octet (by decide)] at code
      exact Char.toNat_inj.mp code
    have alone := valid.first (by rw [whole, same]; rfl)
    rw [whole] at alone
    obtain rfl : more = [] := (List.cons.inj alone).2
    rw [List.map_nil, List.nil_append] at follows
    cases first : (s.behind rest).head? with
    | none => simp [first] at follows
    | some b => simp [first, stop_behind valid rest b first] at follows

theorem whole_lt (valid : s.Valid) : Nat.ofDigitChars 10 s.whole 0 < significandLimit := by
  have power : 10 ^ s.whole.length ≤ 10 ^ 16 := Nat.pow_le_pow_right (by decide) valid.short
  refine Nat.lt_of_lt_of_le (ofDigitChars_lt valid.whole 0) ?_
  rw [Nat.zero_add, Nat.one_mul]
  exact Nat.le_trans power (by decide)

theorem gather_whole (valid : s.Valid) :
    gather 0 (s.whole.map ascii) = (Nat.ofDigitChars 10 s.whole 0, s.whole.length, []) :=
  gather_digits valid.whole (whole_lt valid)

theorem readNumber_text (valid : s.Valid) (stops : Stops rest) :
    readNumber positive (octets s.text ++ rest) = floating positive s.kept.1 s.power rest := by
  have small := valid.exponent
  have stop := fun b first => (stop_mark s.exponent stops b first).1
  have left : (s.whole.map ascii ++ s.behind rest).drop (s.whole.map ascii).length = s.behind rest :=
    List.drop_left
  have kept : s.kept = ((gather (Nat.ofDigitChars 10 s.whole 0) (s.fraction.map ascii)).1,
      (gather (Nat.ofDigitChars 10 s.whole 0) (s.fraction.map ascii)).2.1) := rfl
  rw [octets_text valid]
  obtain ⟨b, more, front, digit, alone⟩ := first_behind valid rest
  have taken := takeWhile_isDigit (isDigit_of_map valid.whole) (stop_behind valid rest)
  rw [front] at left taken ⊢
  simp only [readNumber, digit, Bool.not_true, Bool.false_eq_true, if_false, if_neg alone, taken, left,
    gather_whole valid]
  by_cases none : s.fraction = []
  · -- A number without a fraction has an exponent, else it would be an integer.
    obtain ⟨raises, n, exponent, marked⟩ := behind_marked valid none rest
    have point : ascii 'e' ≠ ascii '.' := by decide
    have mark : isExponentMark (ascii 'e') = true := by decide
    rw [marked]
    simp only [if_neg point, mark, if_true, readExponent_digits raises (small raises n exponent) stops, kept,
      power, none, exponent, List.map_nil, gather, List.length_nil, Int.natCast_zero, Int.zero_add, Int.sub_zero]
  · have total : (0 : Int) - s.kept.2 + raised s.exponent = s.power := by
      rw [power]
      omega
    rw [behind_pointed none]
    simp only [if_true, readFraction_digits none valid.fraction stop]
    rw [← total, kept]
    exact readMark_mark small stops

theorem skipExponent_digits (raises : Bool) (n : Nat) (stops : Stops rest) :
    skipExponent (ascii (if raises then '+' else '-') :: (digits n ++ rest)) = .ok rest := by
  have signs : ascii (if raises then '+' else '-') = ascii '-' ∨ ascii (if raises then '+' else '-') = ascii '+' := by
    cases raises
    · exact .inl rfl
    · exact .inr rfl
  have skipped := dropWhile_digits n stops
  unfold skipExponent
  simp only [if_pos signs]
  cases front : digits n with
  | nil => exact absurd front (digits_ne_nil n)
  | cons b more =>
    have digit : isDigit b = true := isDigit_of_digits (front ▸ List.mem_cons_self)
    rw [front, List.cons_append, List.dropWhile_cons_of_pos digit] at skipped
    simp only [List.cons_append, digit, if_true, skipped]

theorem skipNumber_text (valid : s.Valid) (stops : Stops rest) :
    skipNumber (octets s.text ++ rest) = .ok rest := by
  have mark : isExponentMark (ascii 'e') = true := by decide
  rw [octets_text valid]
  obtain ⟨b, more, front, digit, alone⟩ := first_behind valid rest
  have passed := dropWhile_isDigit (isDigit_of_map valid.whole) (stop_behind valid rest)
  rw [front] at passed ⊢
  simp only [skipNumber, digit, Bool.not_true, Bool.false_eq_true, if_false, if_neg alone, passed]
  by_cases none : s.fraction = []
  · obtain ⟨raises, n, -, marked⟩ := behind_marked valid none rest
    have point : ascii 'e' ≠ ascii '.' := by decide
    rw [marked]
    simp only [if_neg point, mark, if_true, skipExponent_digits raises n stops]
  · have stop := fun b first => (stop_mark s.exponent stops b first).1
    have positive : 0 < (s.fraction.map ascii).length := by simpa using List.length_pos_iff.mpr none
    have shorter : (octets (Spelling.mark s.exponent) ++ rest).length ≠
        (s.fraction.map ascii ++ (octets (Spelling.mark s.exponent) ++ rest)).length := by
      rw [@List.length_append _ (s.fraction.map ascii)]
      omega
    rw [behind_pointed none]
    simp only [if_true, dropWhile_isDigit (isDigit_of_map valid.fraction) stop, if_neg shorter]
    rcases s.exponent with _ | ⟨raises, n⟩
    · rw [Spelling.mark, octets_nil, List.nil_append]
      cases rest with
      | nil => rfl
      | cons b rest => simp only [(stops b rfl).2.2, Bool.false_eq_true, if_false]
    · rw [octets_mark]
      simp only [mark, if_true, skipExponent_digits raises n stops]

end Reading

/-! The parts of a double. -/

def ofDigits (digits : List Char) (exponent : Int) : Spelling :=
  let point := digits.length + exponent
  if 0 ≤ exponent ∧ point ≤ 16 then ⟨digits ++ Double.zeros exponent, ['0'], none⟩
  else if 0 < point ∧ point ≤ 16 then ⟨digits.take point.toNat, digits.drop point.toNat, none⟩
  else if -4 ≤ point ∧ point ≤ 0 then ⟨['0'], Double.zeros (-point) ++ digits, none⟩
  else ⟨digits.take 1, digits.drop 1, some (decide (0 ≤ point - 1), (point - 1).natAbs)⟩

section OfDigits

variable {chars : List Char} {exponent : Int}

theorem mark_signed (n : Int) : mark (some (decide (0 ≤ n), n.natAbs)) =
    'e' :: ((if n < 0 then ['-'] else ['+']) ++ Nat.toDigits 10 n.natAbs) := by
  by_cases down : n < 0
  · have low : ¬ 0 ≤ n := Int.not_le.mpr down
    rw [if_pos down, decide_eq_false low]
    rfl
  · rw [if_neg down, decide_eq_true (Int.not_lt.mp down)]
    rfl

theorem text_ofDigits (some : chars ≠ []) : (ofDigits chars exponent).text = Double.style.render chars exponent := by
  have length := List.length_pos_iff.mpr some
  have wide : Double.style.wholeDigits = 16 := rfl
  have zeros : Double.style.leadingZeros = 4 := rfl
  have plus : Double.style.plus = ['+'] := rfl
  simp only [ofDigits, Double.Style.render, wide, zeros, plus]
  split
  · simp [text, mark]
  · split
    · rename_i large inside
      have left : chars.drop ((chars.length : Int) + exponent).toNat ≠ [] := by
        rw [Ne, List.drop_eq_nil_iff]
        omega
      simp [text, mark, left]
    · split
      · simp [text, mark, List.append_eq_nil_iff, some]
      · have tail : (chars.drop 1).isEmpty = decide (chars.length ≤ 1) := by
          rw [Bool.eq_iff_iff, List.isEmpty_iff, List.drop_eq_nil_iff, decide_eq_true_iff]
        have marked := mark_signed ((chars.length : Int) + exponent - 1)
        simp only [text, tail, marked, decide_eq_true_eq, List.append_assoc, List.cons_append]

theorem isDigit_of_zeros (n : Int) : ∀ c ∈ Double.zeros n, c.isDigit = true := fun c member => by
  rw [List.eq_of_mem_replicate member]
  rfl

theorem head_numeral {n : Nat} (pos : 0 < n) : (numeral n).head? ≠ some '0' := fun first => by
  cases chars : numeral n with
  | nil => simp [chars] at first
  | cons c rest =>
    rw [chars, List.head?_cons, Option.some.injEq] at first
    subst first
    obtain rfl := numeral_zero chars
    have value : Nat.ofDigitChars 10 (numeral n) 0 = n := Nat.ofDigitChars_ten_toDigits
    rw [chars] at value
    exact Nat.ne_of_lt pos value

theorem head_append {chars others : List Char} (some : chars ≠ []) : (chars ++ others).head? = chars.head? := by
  obtain ⟨c, rest, rfl⟩ := List.exists_cons_of_ne_nil some
  rfl

/-- The four forms in which digits are printed. -/
theorem ofDigits_cases {motive : Spelling → Prop}
    (whole : 0 ≤ exponent → chars.length + exponent ≤ 16 →
      motive ⟨chars ++ Double.zeros exponent, ['0'], none⟩)
    (inside : exponent < 0 → 0 < chars.length + exponent → chars.length + exponent ≤ 16 →
      motive ⟨chars.take (chars.length + exponent).toNat, chars.drop (chars.length + exponent).toNat, none⟩)
    (behind : chars.length + exponent ≤ 0 → motive ⟨['0'], Double.zeros (-(chars.length + exponent)) ++ chars, none⟩)
    (pointed : 16 < chars.length + exponent ∨ chars.length + exponent < -4 →
      motive ⟨chars.take 1, chars.drop 1,
        some (decide (0 ≤ chars.length + exponent - 1), (chars.length + exponent - 1).natAbs)⟩) :
    motive (ofDigits chars exponent) := by
  simp only [ofDigits]
  split
  case isTrue fits => exact whole fits.1 fits.2
  case isFalse =>
    split
    case isTrue fits => exact inside (by omega) fits.1 fits.2
    case isFalse =>
      split
      case isTrue fits => exact behind fits.2
      case isFalse => exact pointed (by omega)

section Numeral

variable {n : Nat}

theorem valid_whole (pos : 0 < n) (raises : 0 ≤ exponent) (fits : (numeral n).length + exponent ≤ 16) :
    Valid ⟨numeral n ++ Double.zeros exponent, ['0'], none⟩ where
  whole := fun c member => (List.mem_append.mp member).elim Text.isDigit_of_numeral (isDigit_of_zeros _ c)
  some := by simp [Text.numeral_ne_nil]
  first := fun first => absurd (head_append (Text.numeral_ne_nil n) ▸ first) (head_numeral pos)
  short := by
    rw [List.length_append, Double.zeros, List.length_replicate]
    omega
  fraction := by simp
  opened := by simp
  exponent := by simp

theorem valid_inside {place : Nat} (pos : 0 < n) (some : 0 < place) (left : place < (numeral n).length)
    (fits : place ≤ 16) : Valid ⟨(numeral n).take place, (numeral n).drop place, none⟩ := by
  have front : (numeral n).take place ≠ [] := by
    rw [Ne, List.take_eq_nil_iff, not_or]
    exact ⟨Nat.ne_of_gt some, Text.numeral_ne_nil n⟩
  have head : ((numeral n).take place).head? = (numeral n).head? := by
    conv => rhs; rw [← List.take_append_drop place (numeral n)]
    exact (head_append front).symm
  exact {
    whole := fun c member => Text.isDigit_of_numeral (List.mem_of_mem_take member)
    some := front
    first := fun first => absurd (head ▸ first) (head_numeral pos)
    short := Nat.le_trans (List.length_take_le place _) fits
    fraction := fun c member => Text.isDigit_of_numeral (List.mem_of_mem_drop member)
    opened := fun none => absurd (List.drop_eq_nil_iff.mp none) (Nat.not_le.mpr left)
    exponent := by simp }

theorem valid_behind (place : Int) : Valid ⟨['0'], Double.zeros place ++ numeral n, none⟩ where
  whole := by simp
  some := by simp
  first := fun _ => rfl
  short := by simp
  fraction := fun c member => (List.mem_append.mp member).elim (isDigit_of_zeros _ c) Text.isDigit_of_numeral
  opened := fun none => absurd (List.append_eq_nil_iff.mp none).2 (Text.numeral_ne_nil n)
  exponent := by simp

theorem valid_pointed (raises : Bool) {k : Nat} (small : k < 0x80000000) :
    Valid ⟨(numeral n).take 1, (numeral n).drop 1, some (raises, k)⟩ := by
  obtain ⟨c, rest, chars⟩ := List.exists_cons_of_ne_nil (Text.numeral_ne_nil n)
  have front : (numeral n).take 1 = [c] := by rw [chars]; rfl
  rw [front]
  exact {
    whole := fun d member =>
      Text.isDigit_of_numeral (chars ▸ List.mem_cons.mpr (.inl (List.mem_singleton.mp member)))
    some := by simp
    first := fun first => by rw [Option.some.inj first]
    short := by simp
    fraction := fun d member => Text.isDigit_of_numeral (List.mem_of_mem_drop member)
    opened := by simp
    exponent := fun _ _ same => by
      obtain ⟨-, rfl⟩ := Prod.mk.inj (Option.some.inj same)
      exact small }

theorem valid_ofDigits (shape : 0 < n ∨ exponent < 0)
    (small : ((numeral n).length + exponent - 1).natAbs < 0x80000000) : (ofDigits (numeral n) exponent).Valid := by
  have length : 0 < (numeral n).length := List.length_pos_iff.mpr (Text.numeral_ne_nil n)
  have one : n = 0 → (numeral n).length = 1 := by
    rintro rfl
    rfl
  -- A zero is one digit, and an exponent that lowers it puts it behind the point.
  refine ofDigits_cases (motive := Valid) (fun raises fits => ?_) (fun lowers some fits => ?_)
    (fun _ => valid_behind _) fun _ => valid_pointed _ small
  · exact valid_whole (by omega) raises fits
  · exact valid_inside (by omega) (by omega) (by omega) (by omega)

end Numeral

/-- What is kept fits, and with a zero for each digit of the fraction that is dropped it is not above
the number. -/
theorem kept_le {s : Spelling} (valid : s.Valid) : s.kept.1 < significandLimit ∧ ∃ left,
    s.kept.2 + left = s.fraction.length ∧
      s.kept.1 * 10 ^ left ≤ Nat.ofDigitChars 10 (s.whole ++ s.fraction) 0 := by
  rw [Nat.ofDigitChars_append]
  exact gather_le valid.fraction (whole_lt valid)

theorem kept_eq {s : Spelling} (valid : s.Valid)
    (fits : Nat.ofDigitChars 10 (s.whole ++ s.fraction) 0 < significandLimit) :
    s.kept = (Nat.ofDigitChars 10 (s.whole ++ s.fraction) 0, s.fraction.length) := by
  rw [Nat.ofDigitChars_append] at fits ⊢
  simp only [kept, gather_digits valid.fraction fits]

theorem power_of_plain {s : Spelling} (plain : s.exponent = none) : s.power ≤ 0 := by
  rw [power, plain, raised]
  omega

theorem power_ofDigits (some : chars ≠ []) : (ofDigits chars exponent).power ≤ 0 ∨
    (ofDigits chars exponent).whole ++ (ofDigits chars exponent).fraction = chars ∧
      (ofDigits chars exponent).power + (ofDigits chars exponent).kept.2 =
        exponent + (ofDigits chars exponent).fraction.length := by
  have length := List.length_pos_iff.mpr some
  refine ofDigits_cases (motive := fun s => s.power ≤ 0 ∨ s.whole ++ s.fraction = chars ∧
    s.power + s.kept.2 = exponent + s.fraction.length) (fun _ _ => .inl (power_of_plain rfl))
    (fun _ _ _ => .inl (power_of_plain rfl)) (fun _ => .inl (power_of_plain rfl)) ?_
  rintro (beyond | below)
  · -- Beyond sixteen places all digits are kept around the point.
    refine .inr ⟨List.take_append_drop 1 chars, ?_⟩
    have up : 0 ≤ (chars.length : Int) + exponent - 1 := by omega
    rw [power, decide_eq_true up, raised, List.length_drop]
    omega
  · have down : ¬ 0 ≤ (chars.length : Int) + exponent - 1 := by omega
    refine .inl ?_
    rw [power, decide_eq_false down, raised]
    omega

end OfDigits

end Spelling

/-! Scaling. -/

section Scaling

variable {d : Double} {n fuel : Nat}

theorem scale_of_neg {exponent : Int} (down : exponent < 0) (fuel : Nat) (d : Double) :
    ∃ r, scale fuel d exponent = some r := by
  induction fuel generalizing d exponent with
  | zero => exact ⟨d, rfl⟩
  | succ fuel ih =>
    unfold scale
    split
    · split
      · exact ⟨d, rfl⟩
      · rw [if_neg (Int.not_le.mpr down)]
        exact ih (by omega) _
    · rw [if_neg (Int.not_le.mpr down)]
      exact ⟨_, rfl⟩

theorem isZero_zero : (Double.ofNat 0).isZero = true := by decide +kernel

/-- The exact product is below the largest doubles. -/
def Modest (n exponent : Nat) : Prop := n * 10 ^ exponent * twos 1074 ≤ (2 ^ 54 - 6) * twos 2044

theorem none_of_modest {exponent : Nat} (modest : Modest n exponent) (large : 308 < exponent) : n = 0 := by
  by_contra some
  obtain ⟨limit, small, beyond⟩ : ∃ limit ≤ 309, (2 ^ 54 - 6) * twos 2044 < 10 ^ limit * twos 1074 :=
    ⟨309, Nat.le_refl _, by decide +kernel⟩
  have tens : 10 ^ limit ≤ n * 10 ^ exponent :=
    Nat.le_trans (Nat.pow_le_pow_right (by decide) (Nat.le_trans small large))
      (Nat.le_mul_of_pos_left _ (Nat.pos_of_ne_zero some))
  exact absurd modest (Nat.not_le.mpr (Nat.lt_of_lt_of_le beyond (Nat.mul_le_mul_right _ tens)))

theorem scale_of_modest {exponent : Nat} (modest : Modest n exponent) :
    ∃ r, scale (fuel + 1) (.ofNat n) exponent = some r := by
  have up : (0 : Int) ≤ exponent := Int.natCast_nonneg _
  unfold scale
  rw [Int.natAbs_natCast]
  by_cases large : 308 < exponent
  · obtain rfl := none_of_modest modest large
    rw [if_pos large, if_pos isZero_zero]
    exact ⟨_, rfl⟩
  · have finite := Double.not_infinite_of_finite (Double.finite_mul_powerOfTen modest)
    rw [if_neg large, if_pos up, Int.toNat_natCast]
    simp only [finite, Bool.false_eq_true, if_false]
    exact ⟨_, rfl⟩

theorem le_high {cell : Double.Cell} {digits left e : Nat} {exponent : Int} (covers : cell.Covers digits exponent)
    (bound : n * 10 ^ left ≤ digits) (same : (e : Int) = exponent + left) :
    n * 10 ^ e * twos 1076 ≤ cell.high := by
  have level : e + (-exponent).toNat = left + exponent.toNat := by omega
  refine Nat.le_of_mul_le_mul_right ?_ (Nat.pow_pos (show 0 < 10 by decide) (n := (-exponent).toNat))
  calc n * 10 ^ e * twos 1076 * 10 ^ (-exponent).toNat
      = n * (10 ^ e * 10 ^ (-exponent).toNat) * twos 1076 := by ring
    _ = n * 10 ^ left * (10 ^ exponent.toNat * twos 1076) := by rw [← Nat.pow_add, level, Nat.pow_add]; ring
    _ ≤ digits * (10 ^ exponent.toNat * twos 1076) := Nat.mul_le_mul_right _ bound
    _ ≤ cell.high * 10 ^ (-exponent).toNat := covers

theorem modest_of_le_high {e : Nat} (below : d.magnitude < Double.infinityBits - 3)
    (bound : n * 10 ^ e * twos 1076 ≤ d.cell.high) : Modest n e := by
  have four : twos 1076 = twos 1074 * 4 := by
    rw [Double.twos_succ 1075, Double.twos_succ 1074, Nat.mul_assoc]
  rw [four, ← Nat.mul_assoc] at bound
  exact Nat.le_of_mul_le_mul_right (Nat.le_trans bound (Double.high_le_of_lt below)) (by decide)

theorem modest_of_lt (small : n < significandLimit) : Modest n 0 := by
  have room : significandLimit * twos 1074 ≤ (2 ^ 54 - 6) * twos 2044 := by decide +kernel
  rw [Modest, Nat.pow_zero, Nat.mul_one]
  exact Nat.le_trans (Nat.mul_le_mul_right _ (Nat.le_of_lt small)) room

theorem scale_largest : ∀ bits ∈ ([0x7FEFFFFFFFFFFFFF, 0x7FEFFFFFFFFFFFFE, 0x7FEFFFFFFFFFFFFD] : List UInt64),
    (Double.mk bits).shortest.1 < significandLimit ∧
      (scale 4 (.ofNat (Double.mk bits).shortest.1) (Double.mk bits).shortest.2).isSome = true :=
  List.forall_mem_cons.mpr ⟨by decide +kernel, List.forall_mem_cons.mpr ⟨by decide +kernel,
    List.forall_mem_singleton.mpr (by decide +kernel)⟩⟩

theorem shortest_congr {other : Double} (same : d.magnitude = other.magnitude) : d.shortest = other.shortest := by
  have parts : d.parts = other.parts := by rw [Double.parts, same, Double.parts]
  have cell : d.cell = other.cell := by rw [Double.cell, parts, Double.cell]
  rw [Double.shortest, cell, Double.shortest]

/-- What is kept of the shortest decimal is never scaled out of range. -/
theorem scale_of_shortest (finite : d.Finite) (some : d.isZero = false) {left : Nat} {power : Int}
    (small : n < significandLimit) (bound : n * 10 ^ left ≤ d.shortest.1) (same : power = d.shortest.2 + left)
    (all : d.shortest.1 < significandLimit → n = d.shortest.1 ∧ left = 0) :
    ∃ r, scale 4 (.ofNat n) power = Option.some r := by
  by_cases down : power < 0
  · exact scale_of_neg down 4 _
  · -- Up to three doubles from the end the exact product leaves a margin; those three are computed.
    obtain ⟨e, rfl⟩ := Int.eq_ofNat_of_zero_le (Int.not_lt.mp down)
    by_cases below : d.magnitude < Double.infinityBits - 3
    · have found : d.cell.Found 650 308 d.shortest := Double.found_of_search (Double.low_pos some) 650 308
      exact scale_of_modest (modest_of_le_high below (le_high found.covers bound same))
    · obtain ⟨bits, listed, level⟩ : ∃ bits ∈ ([0x7FEFFFFFFFFFFFFF, 0x7FEFFFFFFFFFFFFE, 0x7FEFFFFFFFFFFFFD] :
          List UInt64), d.magnitude = (Double.mk bits).magnitude := by
        have last : d.magnitude = Double.infinityBits - 1 ∨ d.magnitude = Double.infinityBits - 2 ∨
            d.magnitude = Double.infinityBits - 3 := by
          unfold Double.Finite at finite
          omega
        rcases last with last | last | last
        · exact ⟨_, .head _, last⟩
        · exact ⟨_, .tail _ (.head _), last⟩
        · exact ⟨_, .tail _ (.tail _ (.head _)), last⟩
      obtain ⟨fits, scaled⟩ := scale_largest bits listed
      rw [← shortest_congr level] at fits scaled
      obtain ⟨rfl, rfl⟩ := all fits
      rw [same, Int.natCast_zero, Int.add_zero]
      exact Option.isSome_iff_exists.mp scaled

end Scaling

/-! Doubles. -/

section Doubles

variable {d : Double} {rest : List UInt8}

def spelling (d : Double) : Spelling :=
  if d.isZero then ⟨['0'], ['0'], none⟩ else .ofDigits (numeral d.shortest.1) d.shortest.2

theorem text_spelling (d : Double) : d.text = (if d.isNegative then ['-'] else []) ++ (spelling d).text := by
  simp only [Double.text, spelling]
  split
  · rfl
  · rw [Spelling.text_ofDigits (Text.numeral_ne_nil _)]
    rfl

theorem length_shortest (finite : d.Finite) (some : d.isZero = false) : (numeral d.shortest.1).length ≤ 1000 := by
  have found : d.cell.Found 650 308 d.shortest := Double.found_of_search (Double.low_pos some) 650 308
  obtain ⟨fine, limit, least, positive, size, beyond⟩ : ∃ fine limit, 342 ≤ fine ∧ 0 < limit ∧ limit ≤ 1000 ∧
      2 ^ 55 * twos 2045 * 10 ^ fine < 10 ^ limit :=
    ⟨342, 1000, by decide, by decide, by decide, by decide +kernel⟩
  have shallow : (-d.shortest.2).toNat ≤ fine := by
    have low := found.low
    omega
  have digits : d.shortest.1 < 10 ^ limit := by
    calc d.shortest.1 ≤ d.shortest.1 * (10 ^ d.shortest.2.toNat * twos 1076) :=
          Nat.le_mul_of_pos_right _ (Nat.mul_pos (Nat.pow_pos (by decide)) (Double.twos_pos _))
      _ ≤ d.cell.high * 10 ^ (-d.shortest.2).toNat := found.covers
      _ ≤ 2 ^ 55 * twos 2045 * 10 ^ fine :=
          Nat.mul_le_mul (Double.high_le finite) (Nat.pow_le_pow_right (by decide) shallow)
      _ < 10 ^ limit := beyond
  exact Nat.le_trans ((Nat.length_toDigits_le_iff (by decide) positive).mpr digits) size

theorem valid_spelling (finite : d.Finite) : (spelling d).Valid := by
  unfold spelling
  split
  · have zero : ∀ c ∈ ['0'], c.isDigit = true := List.forall_mem_singleton.mpr rfl
    exact ⟨zero, by decide, fun _ => rfl, by decide, zero, nofun, nofun⟩
  · rename_i other
    have some : d.isZero = false := by simpa using other
    have found : d.cell.Found 650 308 d.shortest := Double.found_of_search (Double.low_pos some) 650 308
    have length := length_shortest finite some
    obtain ⟨-, high, low, shape⟩ := found
    refine Spelling.valid_ofDigits (shape.imp_right fun last => by omega) ?_
    omega

theorem scale_spelling (finite : d.Finite) :
    ∃ r, scale 4 (.ofNat (spelling d).kept.1) (spelling d).power = Option.some r := by
  have valid := valid_spelling finite
  obtain ⟨small, left, count, bound⟩ := Spelling.kept_le valid
  have level : (spelling d).power ≤ 0 →
      ∃ r, scale 4 (.ofNat (spelling d).kept.1) (spelling d).power = Option.some r := fun low => by
    rcases Int.lt_or_eq_of_le low with down | zero
    · exact scale_of_neg down 4 _
    · rw [zero]
      exact scale_of_modest (modest_of_lt small)
  by_cases zero : d.isZero = true
  · exact level (by simp [spelling, zero, Spelling.power, Spelling.raised])
  · have parts : spelling d = .ofDigits (numeral d.shortest.1) d.shortest.2 := if_neg zero
    have value : Nat.ofDigitChars 10 (numeral d.shortest.1) 0 = d.shortest.1 := Nat.ofDigitChars_ten_toDigits
    have some := Text.numeral_ne_nil d.shortest.1
    rcases @Spelling.power_ofDigits _ d.shortest.2 some with low | ⟨whole, power⟩
    · exact level (parts ▸ low)
    · rw [← parts] at whole power
      rw [whole, value] at bound
      refine scale_of_shortest finite (by simpa using zero) small bound (by omega) fun fits => ?_
      have all := Spelling.kept_eq valid (by rw [whole, value]; exact fits)
      rw [whole, value] at all
      rw [all] at count ⊢
      exact ⟨rfl, by omega⟩

/-- What a number is read back to. A double may come back as another one. -/
def Number.reread : Number → Number
  | .integer n => .integer n
  | .double d =>
      match scale 4 (.ofNat (spelling d).kept.1) (spelling d).power with
      | some r => .double (signed (!d.isNegative) r)
      | none => .double d

theorem readNumber_spelling (finite : d.Finite) (stops : Stops rest) :
    readNumber (!d.isNegative) (octets (spelling d).text ++ rest) = .ok (Number.reread (.double d), rest) := by
  obtain ⟨r, scaled⟩ := scale_spelling finite
  rw [Spelling.readNumber_text (valid_spelling finite) stops]
  simp only [floating, Number.reread, scaled]

end Doubles

/-! Numbers. -/

/-- A number that has a text: an integer of 64 bits or a finite double. -/
def Number.Proper : Number → Prop
  | .integer n => Exact n
  | .double d => d.Finite

structure Printed (n : Number) (positive : Bool) (ds : List UInt8) : Prop where
  text : octets n.write = if positive then ds else ascii '-' :: ds
  first : ∃ b more, ds = b :: more ∧ isDigit b = true
  read : ∀ {rest : List UInt8}, Stops rest → readNumber positive (ds ++ rest) = .ok (n.reread, rest)
  passed : ∀ {rest : List UInt8}, Stops rest → skipNumber (ds ++ rest) = .ok rest

theorem digits_cons (n : Nat) : ∃ b more, digits n = b :: more ∧ isDigit b = true := by
  cases front : digits n with
  | nil => exact absurd front (digits_ne_nil n)
  | cons b more => exact ⟨b, more, rfl, isDigit_of_digits (front ▸ List.mem_cons_self)⟩

theorem printed {n : Number} (proper : n.Proper) : ∃ positive ds, Printed n positive ds := by
  cases n with
  | integer n =>
    have exact : Exact n := proper
    have fits : n.natAbs < 2 ^ 64 := by
      unfold Exact at exact
      omega
    refine ⟨!decide (n < 0), digits n.natAbs, ?_, digits_cons _, ?_, skipNumber_digits _⟩
    · show octets (writeInt n) = _
      rw [octets_writeInt]
      by_cases negative : n < 0 <;> simp [negative]
    · intro rest stops
      rw [readNumber_digits _ fits stops, wholeNumber_natAbs exact]
      rfl
  | double d =>
    have finite : d.Finite := proper
    have valid := valid_spelling finite
    refine ⟨!d.isNegative, octets (spelling d).text, ?_, ?_, readNumber_spelling finite,
      Spelling.skipNumber_text valid⟩
    · show octets d.text = _
      rw [text_spelling, octets_append]
      cases d.isNegative <;> rfl
    · obtain ⟨b, more, front, digit, -⟩ := Spelling.first_behind valid []
      rw [← Spelling.octets_text valid, List.append_nil] at front
      exact ⟨b, more, front, digit⟩

end LanguageClient.Json
