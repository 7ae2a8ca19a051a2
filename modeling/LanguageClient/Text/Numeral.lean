/-! Numerals: decimal ones, and the hexadecimal ones that name a character. -/

set_option autoImplicit false
namespace LanguageClient.Text

def digits? (chars : List Char) : Option Nat :=
  if chars.isEmpty then none
  else chars.foldl (fun total c =>
    total.bind fun n => if c.isDigit then some (n * 10 + (c.toNat - 48)) else none) (some 0)

/-- A number below `2 ^ 64`; a plus sign and leading zeros are allowed. -/
def unsigned64? (chars : List Char) : Option Nat :=
  let digits := match chars with
    | '+' :: rest => rest
    | _ => chars
  (digits? digits).filter (· < 0x10000000000000000)

def splitSign : List Char → Bool × List Char
  | '+' :: rest => (false, rest)
  | '-' :: rest => (true, rest)
  | word => (false, word)

/-- The number `± digits · 10 ^ exponent`. -/
structure Decimal where
  negative : Bool
  digits : Nat
  exponent : Int
  deriving DecidableEq, Repr

/-- What may follow the digits of a number: nothing, or a mark and an exponent. -/
def exponent? : List Char → Option Int
  | [] => some 0
  | mark :: rest =>
      let (negative, digits) := splitSign rest
      if mark = 'e' ∨ mark = 'E' then
        (digits? digits).map fun n => if negative then -(n : Int) else n
      else none

/-- Reads a sign, digits and an exponent; a point may stand between the digits, in front of
them or behind them. -/
def decimal? (word : List Char) : Option Decimal := do
  let (negative, unsigned) := splitSign word
  let whole := unsigned.takeWhile Char.isDigit
  let (fraction, rest) := match unsigned.drop whole.length with
    | '.' :: rest => rest.span Char.isDigit
    | rest => ([], rest)
  let digits ← digits? (whole ++ fraction)
  let exponent ← exponent? rest
  return ⟨negative, digits, exponent - fraction.length⟩

def hexDigit? (c : Char) : Option Nat :=
  if c.isDigit then some (c.toNat - 48)
  else if 'a' ≤ c ∧ c ≤ 'f' then some (c.toNat - 87)
  else if 'A' ≤ c ∧ c ≤ 'F' then some (c.toNat - 55)
  else none

def charOfHex? (digits : List Char) : Option Char :=
  (digits.foldl (fun total c => total.bind fun n => (hexDigit? c).map (n * 16 + ·)) (some 0)).bind
    fun n => if n.isValidChar then some (Char.ofNat n) else none

end LanguageClient.Text
