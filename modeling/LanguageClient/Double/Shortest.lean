import LanguageClient.Double.Basic

/-! The shortest decimal text that reads back as the same number.

A decimal reads back as a number when it lies between the midpoints to its two
neighbours, ends included for an even significand. The digits are those of the
coarsest decimal grid with a point in that interval, the nearer point if two lie in it.
-/

set_option autoImplicit false
namespace LanguageClient.Double

/-- The interval of reals that round to a number, in units of `2 ^ -1076`. -/
structure Cell where
  low : Nat
  value : Nat
  high : Nat
  closed : Bool

def cell (d : Double) : Cell :=
  let (m, e) := d.parts
  let unit := Nat.pow 2 e
  let below := if m = hiddenBit ∧ 0 < e then 1 else 2
  { low := (4 * m - below) * unit, value := 4 * m * unit, high := (4 * m + 2) * unit,
    closed := m % 2 == 0 }

/-- Whether `point · step` lies in the cell, all in units of `1 / scale`. -/
def Cell.holds (cell : Cell) (scale step point : Nat) : Bool :=
  let here := point * step
  let low := cell.low * scale
  let high := cell.high * scale
  if cell.closed then low ≤ here && here ≤ high else low < here && here < high

/-- The grid point of the cell nearest to its value, if the grid has any there;
the even point if both neighbours are equally near. -/
def Cell.nearest? (cell : Cell) (scale step : Nat) : Option Nat :=
  let value := cell.value * scale
  let below := value / step
  let above := below + 1
  match cell.holds scale step below, cell.holds scale step above with
  | false, false => none
  | true, false => some below
  | false, true => some above
  | true, true =>
      let left := value - below * step
      let right := above * step - value
      some (if left < right ∨ (left = right ∧ below % 2 = 0) then below else above)

def Cell.search (cell : Cell) : Nat → Int → Nat × Int
  | 0, exponent => (0, exponent)
  | fuel + 1, exponent =>
      let unit := Nat.pow 2 1076
      let point := if 0 ≤ exponent then cell.nearest? 1 (Nat.pow 10 exponent.toNat * unit)
        else cell.nearest? (Nat.pow 10 (-exponent).toNat) unit
      match point with
      | some digits => (digits, exponent)
      | none => cell.search fuel (exponent - 1)

def shortest (d : Double) : Nat × Int := d.cell.search 650 308

structure Style where
  /-- Most digits before the point in positional notation. -/
  wholeDigits : Int
  /-- Most zeros after the point before the first digit. -/
  leadingZeros : Int
  /-- Written before a positive exponent. -/
  plus : List Char

/-- Positional from `1e-5` up to below `1e16`, with a signed exponent otherwise. -/
def style : Style := ⟨16, 4, ['+']⟩

def zeros (n : Int) : List Char := List.replicate n.toNat '0'

def Style.render (style : Style) (digits : List Char) (exponent : Int) : List Char :=
  let point := digits.length + exponent
  if 0 ≤ exponent ∧ point ≤ style.wholeDigits then digits ++ zeros exponent ++ ['.', '0']
  else if 0 < point ∧ point ≤ style.wholeDigits then
    digits.take point.toNat ++ '.' :: digits.drop point.toNat
  else if -style.leadingZeros ≤ point ∧ point ≤ 0 then '0' :: '.' :: zeros (-point) ++ digits
  else
    let tail := if digits.length ≤ 1 then [] else '.' :: digits.drop 1
    let sign := if point - 1 < 0 then ['-'] else style.plus
    digits.take 1 ++ tail ++ 'e' :: sign ++ Nat.toDigits 10 (point - 1).natAbs

def text (d : Double) : List Char :=
  let sign := if d.isNegative then ['-'] else []
  if d.isZero then sign ++ ['0', '.', '0']
  else
    let (digits, exponent) := d.shortest
    sign ++ style.render (Nat.toDigits 10 digits) exponent

end LanguageClient.Double
