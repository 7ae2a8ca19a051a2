/-! Sets of code points as ascending ranges. -/

set_option autoImplicit false
namespace LanguageClient.Text

/-- Whether one of the ranges from index `low` up to `high` holds `n`, halving at
most `fuel` times. -/
def searchRanges (ranges : Array (Nat × Nat)) (n : Nat) : Nat → Nat → Nat → Bool
  | 0, _, _ => false
  | fuel + 1, low, high =>
      if low < high then
        let middle := (low + high) / 2
        match ranges[middle]? with
        | none => false
        | some (first, last) =>
            if n < first then searchRanges ranges n fuel low middle
            else if last < n then searchRanges ranges n fuel (middle + 1) high
            else true
      else false

/-- Whether ascending ranges, each given by its first and last member, hold `n`. -/
def inRanges (ranges : Array (Nat × Nat)) (n : Nat) : Bool :=
  searchRanges ranges n (ranges.size.log2 + 1) 0 ranges.size

end LanguageClient.Text
