import LanguageClient.Double.Shortest
import Mathlib.Tactic.Linarith
import Mathlib.Tactic.Ring

/-! Roundings that stay in range.

A rounded number is off by at most one part in `2 ^ 53`. The shortest decimal of a number lies no
higher than the cell of the number. So its digits and its power of ten, each rounded, have a product
below infinity by a margin, but for the three largest numbers; for these it is computed.
-/

set_option autoImplicit false
namespace LanguageClient.Double

def Finite (d : Double) : Prop := d.magnitude < infinityBits

instance (d : Double) : Decidable d.Finite := inferInstanceAs (Decidable (_ < _))

theorem not_infinite_of_finite {d : Double} (finite : d.Finite) : d.isInfinite = false := by
  simpa [isInfinite] using Nat.ne_of_lt finite

/-- A power of two under a name of its own, so that no large one is worked out. -/
def twos (exponent : Nat) : Nat := Nat.pow 2 exponent

theorem twos_pos (exponent : Nat) : 0 < twos exponent := Nat.two_pow_pos exponent

theorem twos_succ (exponent : Nat) : twos (exponent + 1) = twos exponent * 2 := Nat.pow_succ 2 exponent

theorem twos_le {a b : Nat} (le : a ≤ b) : twos a ≤ twos b := Nat.pow_le_pow_right (by decide) le

/-! One rounding. -/

section Rounding

variable {num den : Nat}

theorem two_mul_roundDiv_le (num den : Nat) : 2 * (den * roundDiv num den) ≤ 2 * num + den := by
  have whole := Nat.div_add_mod num den
  simp only [roundDiv]
  split
  · rw [Nat.mul_add, Nat.mul_one]
    omega
  · omega

theorem roundDiv_le {n : Nat} (small : 2 * num + den < 2 * (den * (n + 1))) : roundDiv num den ≤ n := by
  by_contra large
  have more := Nat.mul_le_mul_left den (Nat.lt_of_not_le large)
  have few := two_mul_roundDiv_le num den
  rw [Nat.succ_eq_add_one] at more
  omega

theorem roundDiv_double_le {n unit : Nat} (small : num < (2 * n + 1) * unit) : roundDiv num (unit * 2) ≤ n := by
  apply roundDiv_le
  have many : unit * 2 * (n + 1) = 2 * (unit * n) + 2 * unit := by ring
  have fewer : (2 * n + 1) * unit = 2 * (unit * n) + unit := by ring
  omega

theorem le_roundDiv (num den : Nat) : num / den ≤ roundDiv num den := by
  simp only [roundDiv]
  split
  · exact Nat.le_succ _
  · exact Nat.le_refl _

def exponentOf (num den : Nat) : Nat := Nat.log2 (num / den) - 52

def significandOf (num den : Nat) : Nat := roundDiv num (den * twos (exponentOf num den))

theorem lt_of_exponentOf (pos : 0 < den) : num < den * twos (exponentOf num den) * 2 ^ 53 := by
  have whole : num / den < 2 ^ (exponentOf num den + 53) :=
    Nat.lt_of_lt_of_le Nat.lt_log2_self (Nat.pow_le_pow_right (by decide) (by unfold exponentOf; omega))
  rw [Nat.mul_assoc, twos, Nat.pow_eq, ← Nat.pow_add, Nat.mul_comm]
  exact (Nat.div_lt_iff_lt_mul pos).mp whole

theorem le_of_exponentOf (pos : 0 < den) (normal : 2 ^ 52 ≤ num / den) :
    den * twos (exponentOf num den) * 2 ^ 52 ≤ num := by
  have large : 52 ≤ Nat.log2 (num / den) := (Nat.le_log2 (by omega)).mpr normal
  have whole : 2 ^ (exponentOf num den + 52) ≤ num / den := by
    rw [exponentOf, Nat.sub_add_cancel large]
    exact Nat.log2_self_le (by omega)
  rw [Nat.mul_assoc, twos, Nat.pow_eq, ← Nat.pow_add, Nat.mul_comm]
  exact (Nat.le_div_iff_mul_le pos).mp whole

theorem magnitude_ofScaledRatio (num den : Nat) : (ofScaledRatio num den).magnitude =
    min infinityBits (exponentOf num den * hiddenBit + significandOf num den) := by
  have small : min infinityBits (exponentOf num den * hiddenBit + significandOf num den) < signBit :=
    Nat.lt_of_le_of_lt (Nat.min_le_left _ _) (by decide)
  have fits : min infinityBits (exponentOf num den * hiddenBit + significandOf num den) < 2 ^ 64 :=
    Nat.lt_trans small (by decide)
  show (UInt64.ofNat (min infinityBits (exponentOf num den * hiddenBit + significandOf num den))).toNat %
    signBit = _
  rw [UInt64.toNat_ofNat_of_lt' fits, Nat.mod_eq_of_lt small]

theorem significandOf_le (pos : 0 < den) : significandOf num den ≤ 2 ^ 53 := by
  have small : num < den * twos (exponentOf num den) * 2 ^ 53 := lt_of_exponentOf pos
  apply roundDiv_le
  have positive : 0 < den * twos (exponentOf num den) := Nat.mul_pos pos (twos_pos _)
  rw [Nat.mul_add]
  omega

theorem log2_lt_of_lt {n a b : Nat} (pos : 0 < a) (small : n < 2 ^ a * twos b) : Nat.log2 n < a + b := by
  rcases Nat.eq_zero_or_pos n with rfl | some
  · rw [Nat.log2_zero]
    exact Nat.add_pos_left pos b
  · rw [twos, Nat.pow_eq, ← Nat.pow_add] at small
    exact (Nat.log2_lt (Nat.ne_of_gt some)).mpr small

theorem finite_ofScaledRatio (pos : 0 < den) (small : num < (2 * (2 ^ 53 - 1) + 1) * twos 2044 * den) :
    (ofScaledRatio num den).Finite := by
  have few : exponentOf num den ≤ 2045 := by
    by_contra large
    have whole : num / den < 2 ^ 54 * twos 2044 := by
      refine (Nat.div_lt_iff_lt_mul pos).mpr (Nat.lt_of_lt_of_le small ?_)
      exact Nat.mul_le_mul_right den (Nat.mul_le_mul_right (twos 2044) (by decide))
    have log := log2_lt_of_lt (by decide) whole
    unfold exponentOf at large
    omega
  have digits : exponentOf num den * hiddenBit + significandOf num den < infinityBits := by
    rcases Nat.lt_or_eq_of_le few with less | last
    · have all : significandOf num den ≤ 2 ^ 53 := significandOf_le pos
      clear small
      simp only [hiddenBit, infinityBits]
      omega
    · -- At the last exponent the significand must not be rounded up to a power of two.
      have all : significandOf num den ≤ 2 ^ 53 - 1 := by
        have step : den * twos (exponentOf num den) = twos 2044 * den * 2 := by
          rw [last, twos_succ 2044, ← Nat.mul_assoc, Nat.mul_comm den]
        rw [significandOf, step]
        refine roundDiv_double_le ?_
        rw [← Nat.mul_assoc]
        exact small
      rw [last]
      simp only [hiddenBit, infinityBits]
      omega
  rw [Finite, magnitude_ofScaledRatio]
  exact Nat.lt_of_le_of_lt (Nat.min_le_right _ _) digits

theorem scaled_of_magnitude {d : Double} {exponent significand : Nat} (low : hiddenBit ≤ significand)
    (high : significand ≤ 2 * hiddenBit) (same : d.magnitude = exponent * hiddenBit + significand) :
    d.scaled = significand * twos exponent := by
  have hidden : 0 < hiddenBit := by decide
  rcases Nat.lt_or_eq_of_le high with less | full
  · have field : d.magnitude / hiddenBit = exponent + 1 := by
      rw [same, Nat.div_eq_of_lt_le] <;> simp only [hiddenBit] at * <;> omega
    have fraction : d.magnitude % hiddenBit = significand - hiddenBit := by
      have whole := Nat.div_add_mod d.magnitude hiddenBit
      rw [field] at whole
      simp only [hiddenBit] at *
      omega
    have split : d.parts = (significand, exponent) := by
      simp [parts, field, fraction, Nat.sub_add_cancel low]
    rw [scaled, split]
    rfl
  · have whole : d.magnitude = (exponent + 2) * hiddenBit := by rw [same, full]; ring
    have split : d.parts = (hiddenBit, exponent + 1) := by
      simp [parts, whole, Nat.mul_div_cancel _ hidden]
    have double : twos (exponent + 1) = twos exponent * 2 := twos_succ exponent
    rw [scaled, split, full]
    show hiddenBit * twos (exponent + 1) = _
    rw [double]
    ring

/-- A number exceeds what it was rounded from by at most one part in `2 ^ 53`. -/
theorem scaled_ofScaledRatio_le (pos : 0 < den) (normal : 2 ^ 52 ≤ num / den)
    (finite : (ofScaledRatio num den).Finite) :
    (ofScaledRatio num den).scaled * den * 2 ^ 53 ≤ num * (2 ^ 53 + 1) := by
  have same := magnitude_ofScaledRatio num den
  rw [Finite, same] at finite
  rw [Nat.min_eq_right (by omega)] at same
  have unit : den * twos (exponentOf num den) * 2 ^ 52 ≤ num := le_of_exponentOf pos normal
  have positive : 0 < den * twos (exponentOf num den) := Nat.mul_pos pos (twos_pos _)
  have low : hiddenBit ≤ significandOf num den := by
    refine Nat.le_trans ((Nat.le_div_iff_mul_le positive).mpr ?_) (le_roundDiv _ _)
    rw [Nat.mul_comm]
    exact unit
  have rounded : 2 * (den * twos (exponentOf num den) * significandOf num den) ≤ _ := two_mul_roundDiv_le _ _
  rw [scaled_of_magnitude low (significandOf_le pos) same]
  have product : significandOf num den * twos (exponentOf num den) * den =
      den * twos (exponentOf num den) * significandOf num den := by ring
  rw [product]
  linarith

end Rounding

/-! Products. -/

section Products

variable {n exponent : Nat}

theorem ofRatio_eq (num den : Nat) : ofRatio num den = ofScaledRatio (num * twos 1074) den := by
  unfold ofRatio
  generalize 1074 = exponent
  rfl

theorem mul_eq (a b : Double) : a.mul b = ofScaledRatio (a.scaled * b.scaled) (twos 1074) := by
  unfold mul
  generalize 1074 = exponent
  rfl

theorem finite_ofNat (small : n * twos 1074 < (2 * (2 ^ 53 - 1) + 1) * twos 2044) : (ofNat n).Finite := by
  rw [ofNat, ofRatio_eq]
  refine finite_ofScaledRatio Nat.one_pos ?_
  rw [Nat.mul_one]
  exact small

theorem scaled_ofNat_le (pos : 0 < n) (small : n * twos 1074 < (2 * (2 ^ 53 - 1) + 1) * twos 2044) :
    (ofNat n).scaled * 2 ^ 53 ≤ n * twos 1074 * (2 ^ 53 + 1) := by
  have normal : twos 52 ≤ n * twos 1074 / 1 := by
    rw [Nat.div_one]
    exact Nat.le_trans (twos_le (by decide)) (Nat.le_mul_of_pos_left _ pos)
  have finite := finite_ofNat small
  rw [ofNat, ofRatio_eq] at finite ⊢
  have rounded := scaled_ofScaledRatio_le Nat.one_pos normal finite
  rw [Nat.mul_one] at rounded
  exact rounded

theorem scaled_zero : (ofNat 0).scaled = 0 := by
  rw [ofNat, ofRatio_eq, Nat.zero_mul]
  rfl

/-- A whole number and a power of ten, each rounded, have a finite product if their exact product
stays below the largest numbers. -/
theorem finite_mul_powerOfTen (small : n * 10 ^ exponent * twos 1074 ≤ (2 ^ 54 - 6) * twos 2044) :
    (mul (ofNat n) (powerOfTen exponent)).Finite := by
  have tens : 0 < 10 ^ exponent := Nat.pow_pos (by decide)
  have power : powerOfTen exponent = ofNat (10 ^ exponent) := rfl
  have half := twos_pos 2044
  have one := twos_pos 1074
  rw [power, mul_eq]
  refine finite_ofScaledRatio one ?_
  rcases Nat.eq_zero_or_pos n with rfl | pos
  · rw [scaled_zero, Nat.zero_mul]
    exact Nat.mul_pos (Nat.mul_pos (by decide) half) one
  · have below : (2 ^ 54 - 6) * twos 2044 < (2 * (2 ^ 53 - 1) + 1) * twos 2044 :=
      Nat.mul_lt_mul_of_pos_right (by decide) half
    have factor : n * twos 1074 ≤ n * 10 ^ exponent * twos 1074 :=
      Nat.mul_le_mul_right _ (Nat.le_mul_of_pos_right n tens)
    have other : 10 ^ exponent * twos 1074 ≤ n * 10 ^ exponent * twos 1074 :=
      Nat.mul_le_mul_right _ (Nat.le_mul_of_pos_left _ pos)
    have first := scaled_ofNat_le pos (Nat.lt_of_le_of_lt (Nat.le_trans factor small) below)
    have second := scaled_ofNat_le tens (Nat.lt_of_le_of_lt (Nat.le_trans other small) below)
    generalize (ofNat n).scaled = a at first ⊢
    generalize (ofNat (10 ^ exponent)).scaled = b at second ⊢
    generalize twos 2044 = top at half small ⊢
    generalize twos 1074 = unit at one small first second ⊢
    generalize 10 ^ exponent = tens at small second
    -- Both roundings together add less than what the margin leaves.
    refine Nat.lt_of_mul_lt_mul_right (a := 2 ^ 106) ?_
    calc a * b * 2 ^ 106 = a * 2 ^ 53 * (b * 2 ^ 53) := by ring
      _ ≤ n * unit * (2 ^ 53 + 1) * (tens * unit * (2 ^ 53 + 1)) := Nat.mul_le_mul first second
      _ = n * tens * unit * (unit * (2 ^ 53 + 1) ^ 2) := by ring
      _ ≤ (2 ^ 54 - 6) * top * (unit * (2 ^ 53 + 1) ^ 2) := Nat.mul_le_mul_right _ small
      _ = top * unit * ((2 ^ 54 - 6) * (2 ^ 53 + 1) ^ 2) := by ring
      _ < top * unit * ((2 * (2 ^ 53 - 1) + 1) * 2 ^ 106) :=
          Nat.mul_lt_mul_of_pos_left (by decide) (Nat.mul_pos half one)
      _ = (2 * (2 ^ 53 - 1) + 1) * top * unit * 2 ^ 106 := by ring

end Products

/-! Shortest decimals. -/

section Shortest

variable {d : Double} {cell : Cell} {scale step point : Nat}

theorem parts_cases (d : Double) :
    d.magnitude / hiddenBit = 0 ∧ d.parts = (d.magnitude % hiddenBit, 0) ∨ d.magnitude / hiddenBit ≠ 0 ∧
      d.parts = (d.magnitude % hiddenBit + hiddenBit, d.magnitude / hiddenBit - 1) := by
  by_cases subnormal : d.magnitude / hiddenBit = 0
  · exact .inl ⟨subnormal, by simp only [parts, if_pos subnormal]⟩
  · exact .inr ⟨subnormal, by simp only [parts, if_neg subnormal]⟩

theorem parts_lt (d : Double) : d.parts.1 < 2 ^ 53 := by
  have fraction : d.magnitude % hiddenBit < hiddenBit := Nat.mod_lt _ (by decide)
  obtain ⟨-, split⟩ | ⟨-, split⟩ := parts_cases d
  · rw [split]
    exact Nat.lt_trans fraction (by decide)
  · rw [split]
    exact Nat.add_lt_add_right fraction hiddenBit

theorem parts_pos (some : d.isZero = false) : 0 < d.parts.1 := by
  have positive : d.magnitude ≠ 0 := by simpa [isZero] using some
  obtain ⟨subnormal, split⟩ | ⟨-, split⟩ := parts_cases d
  · have whole := Nat.div_add_mod d.magnitude hiddenBit
    rw [subnormal, Nat.mul_zero, Nat.zero_add] at whole
    rw [split, whole]
    exact Nat.pos_of_ne_zero positive
  · rw [split]
    exact Nat.add_pos_right _ (by decide)

theorem exponent_le (finite : d.Finite) : d.parts.2 ≤ 2045 := by
  have field : d.magnitude / hiddenBit < 2047 := (Nat.div_lt_iff_lt_mul (by decide)).mpr finite
  obtain ⟨-, split⟩ | ⟨-, split⟩ := parts_cases d
  · rw [split]
    exact Nat.zero_le _
  · rw [split]
    exact Nat.sub_le_of_le_add (Nat.le_of_lt_succ field)

theorem high_eq (d : Double) : d.cell.high = (4 * d.parts.1 + 2) * twos d.parts.2 := rfl

theorem low_pos (some : d.isZero = false) : 0 < d.cell.low := by
  have digits := parts_pos some
  show 0 < (4 * d.parts.1 - if d.parts.1 = hiddenBit ∧ 0 < d.parts.2 then 1 else 2) * twos d.parts.2
  refine Nat.mul_pos ?_ (twos_pos _)
  split <;> omega

theorem high_le (finite : d.Finite) : d.cell.high ≤ 2 ^ 55 * twos 2045 := by
  have digits := parts_lt d
  rw [high_eq]
  exact Nat.mul_le_mul (by omega) (twos_le (exponent_le finite))

theorem high_le_of_lt (below : d.magnitude < infinityBits - 3) :
    d.cell.high ≤ (2 ^ 54 - 6) * twos 2044 * 4 := by
  have finite : d.Finite := Nat.lt_of_lt_of_le below (Nat.sub_le _ _)
  have digits := parts_lt d
  have double : twos 2045 = twos 2044 * 2 := twos_succ 2044
  rw [high_eq]
  rcases Nat.lt_or_eq_of_le (exponent_le finite) with less | last
  · have power : twos d.parts.2 ≤ twos 2044 := twos_le (by omega)
    calc (4 * d.parts.1 + 2) * twos d.parts.2 ≤ (4 * (2 ^ 54 - 6)) * twos 2044 :=
          Nat.mul_le_mul (by omega) power
      _ = (2 ^ 54 - 6) * twos 2044 * 4 := by ring
  · have few : d.parts.1 ≤ 2 ^ 53 - 4 := by
      obtain ⟨-, split⟩ | ⟨-, split⟩ := parts_cases d
      · rw [split] at last
        cases last
      · rw [split] at last ⊢
        simp only [hiddenBit, infinityBits] at last below ⊢
        omega
    rw [last, double]
    calc (4 * d.parts.1 + 2) * (twos 2044 * 2) ≤ (2 * (2 ^ 54 - 6)) * (twos 2044 * 2) :=
          Nat.mul_le_mul_right _ (by omega)
      _ = (2 ^ 54 - 6) * twos 2044 * 4 := by ring

theorem le_of_holds (holds : cell.holds scale step point = true) :
    cell.low * scale ≤ point * step ∧ point * step ≤ cell.high * scale := by
  simp only [Cell.holds] at holds
  split at holds
  · simpa using holds
  · simp only [Bool.and_eq_true, decide_eq_true_eq] at holds
    exact ⟨Nat.le_of_lt holds.1, Nat.le_of_lt holds.2⟩

theorem holds_of_nearest? (nearest : cell.nearest? scale step = some point) :
    cell.holds scale step point = true := by
  simp only [Cell.nearest?] at nearest
  split at nearest
  · cases nearest
  · cases nearest
    assumption
  · cases nearest
    assumption
  · split at nearest <;> cases nearest <;> assumption

/-- The decimal lies no higher than the cell. -/
def Cell.Covers (cell : Cell) (digits : Nat) (exponent : Int) : Prop :=
  digits * (10 ^ exponent.toNat * twos 1076) ≤ cell.high * 10 ^ (-exponent).toNat

/-- What comes of a search down from an exponent. Without digits it has gone all the way. -/
structure Cell.Found (cell : Cell) (fuel : Nat) (start : Int) (found : Nat × Int) : Prop where
  covers : cell.Covers found.1 found.2
  high : found.2 ≤ start
  low : start - fuel ≤ found.2
  some : 0 < found.1 ∨ found.2 = start - fuel

theorem covers_of_nearest {digits : Nat} {exponent : Int} (low : 0 < cell.low)
    (nearest : (if 0 ≤ exponent then cell.nearest? 1 (Nat.pow 10 exponent.toNat * twos 1076)
      else cell.nearest? (Nat.pow 10 (-exponent).toNat) (twos 1076)) = some digits) :
    0 < digits ∧ cell.Covers digits exponent := by
  have inside {scale step : Nat} (pos : 0 < scale) (nearest : cell.nearest? scale step = some digits) :
      0 < digits ∧ digits * step ≤ cell.high * scale := by
    obtain ⟨above, below⟩ := le_of_holds (holds_of_nearest? nearest)
    exact ⟨Nat.pos_of_mul_pos_right (Nat.lt_of_lt_of_le (Nat.mul_pos low pos) above), below⟩
  unfold Cell.Covers
  split at nearest
  · rename_i whole
    have none : (-exponent).toNat = 0 := Int.toNat_of_nonpos (by omega)
    rw [none, Nat.pow_zero]
    exact inside Nat.one_pos nearest
  · rename_i fraction
    have none : exponent.toNat = 0 := Int.toNat_of_nonpos (by omega)
    rw [none, Nat.pow_zero, Nat.one_mul]
    exact inside (Nat.pow_pos (by decide)) nearest

theorem search_succ (cell : Cell) (fuel : Nat) (exponent : Int) : cell.search (fuel + 1) exponent =
    match if 0 ≤ exponent then cell.nearest? 1 (Nat.pow 10 exponent.toNat * twos 1076)
      else cell.nearest? (Nat.pow 10 (-exponent).toNat) (twos 1076) with
    | some digits => (digits, exponent)
    | none => cell.search fuel (exponent - 1) := by
  rw [Cell.search]
  generalize 1076 = unit
  rfl

theorem found_of_search (low : 0 < cell.low) (fuel : Nat) (start : Int) :
    cell.Found fuel start (cell.search fuel start) := by
  induction fuel generalizing start with
  | zero =>
    have none : cell.search 0 start = (0, start) := rfl
    rw [none]
    exact ⟨by simp [Cell.Covers], Int.le_refl _, by simp, .inr (by simp)⟩
  | succ fuel ih =>
    rw [search_succ]
    split
    · rename_i digits nearest
      obtain ⟨some, covers⟩ := covers_of_nearest low nearest
      exact ⟨covers, Int.le_refl _, Int.sub_le_self _ (Int.natCast_nonneg _), .inl some⟩
    · obtain ⟨covers, high, far, some⟩ := ih (start - 1)
      exact ⟨covers, by omega, by omega, some.imp_right fun last => by omega⟩

end Shortest

end LanguageClient.Double
