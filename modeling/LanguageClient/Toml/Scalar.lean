import LanguageClient.Text.Numeral
import LanguageClient.Toml.Edition
import LanguageClient.Toml.Table

/-! The TOML values without quotes or brackets: booleans, numbers and times. -/

set_option autoImplicit false
namespace LanguageClient.Toml

/-- The characters of a word with its underscores left out; each must stand between two
characters of the class, and there must be one. -/
def groups? (isDigit : Char → Bool) (word : List Char) : Option (List Char) :=
  let parts := word.splitOn '_'
  if parts.all fun part => !part.isEmpty && part.all isDigit then some parts.flatten else none

def digitsIn (base : Nat) (c : Char) : Bool :=
  c.isDigit && c.toNat - 48 < base || base == 16 && ('a' ≤ c && c ≤ 'f' || 'A' ≤ c && c ≤ 'F')

def digitValue (c : Char) : Nat :=
  if c.isDigit then c.toNat - 48 else if 'a' ≤ c then c.toNat - 87 else c.toNat - 55

def natural? (base : Nat) (word : List Char) : Option Nat :=
  (groups? (digitsIn base) word).map fun digits =>
    digits.foldl (fun total c => total * base + digitValue c) 0

/-- A decimal number has no leading zero. -/
def decimal? (word : List Char) : Option Nat :=
  match word with
  | '0' :: _ :: _ => none
  | _ => natural? 10 word

/-- An integer of 64 bits. Only decimal ones have a sign. -/
def integer? (word : List Char) : Option Int :=
  let n : Option Int := match word with
    | '0' :: 'x' :: rest => (natural? 16 rest).map Int.ofNat
    | '0' :: 'o' :: rest => (natural? 8 rest).map Int.ofNat
    | '0' :: 'b' :: rest => (natural? 2 rest).map Int.ofNat
    | _ =>
        let (negative, rest) := Text.splitSign word
        (decimal? rest).map fun n => if negative then -(n : Int) else n
  n.filter fun n => -0x8000000000000000 ≤ n && n < 0x8000000000000000

def isExponent (word : List Char) : Bool := (groups? Char.isDigit (Text.splitSign word).2).isSome

def isFraction (word : List Char) : Bool :=
  let digits := word.takeWhile fun c => c != 'e' && c != 'E'
  (groups? Char.isDigit digits).isSome
    && match word.drop digits.length with
      | [] => true
      | _ :: exponent => isExponent exponent

def isFloat (word : List Char) : Bool :=
  let unsigned := (Text.splitSign word).2
  let whole := unsigned.takeWhile fun c => c.isDigit || c == '_'
  (decimal? whole).isSome
    && match unsigned.drop whole.length with
      | '.' :: rest => isFraction rest
      | mark :: rest => (mark == 'e' || mark == 'E') && isExponent rest
      | [] => false

/-- A number of the binary64 format. The words for infinity and for no number at all have no
finite value; a number that is too large for one is refused. -/
def float? (word : List Char) : Option (Option Double) := do
  let unsigned := (Text.splitSign word).2
  if unsigned = "inf".toList ∨ unsigned = "nan".toList then return none
  if !isFloat word then none
  let decimal ← Text.decimal? (word.filter (· != '_'))
  let value := Double.ofDecimal decimal
  if value.isInfinite then none
  return some value

def fixed? (count : Nat) (chars : List Char) : Option (Nat × List Char) :=
  let digits := chars.take count
  if digits.length = count then (Text.digits? digits).map (·, chars.drop count) else none

def daysOf (year month : Nat) : Nat :=
  if month = 2 then
    if year % 4 = 0 ∧ (year % 100 ≠ 0 ∨ year % 400 = 0) then 29 else 28
  else if month = 4 ∨ month = 6 ∨ month = 9 ∨ month = 11 then 30
  else 31

def afterDate? (chars : List Char) : Option (List Char) := do
  let (year, rest) ← fixed? 4 chars
  let '-' :: rest := rest | none
  let (month, rest) ← fixed? 2 rest
  let '-' :: rest := rest | none
  let (day, rest) ← fixed? 2 rest
  if 1 ≤ month ∧ month ≤ 12 ∧ 1 ≤ day ∧ day ≤ daysOf year month then some rest else none

/-- What follows seconds and their fraction. A second may be a leap second. -/
def afterSeconds? (chars : List Char) : Option (List Char) := do
  let (second, rest) ← fixed? 2 chars
  if second ≤ 60 then
    match rest with
    | '.' :: rest =>
        let fraction := rest.takeWhile Char.isDigit
        if fraction.isEmpty then none else some (rest.drop fraction.length)
    | _ => some rest
  else none

def afterTime? (edition : Edition) (chars : List Char) : Option (List Char) := do
  let (hour, rest) ← fixed? 2 chars
  let ':' :: rest := rest | none
  let (minute, rest) ← fixed? 2 rest
  if hour ≤ 23 ∧ minute ≤ 59 then
    match rest with
    | ':' :: rest => afterSeconds? rest
    | _ => if edition.optionalSeconds then some rest else none
  else none

def isOffset : List Char → Bool
  | [] => true
  | ['Z'] => true
  | ['z'] => true
  | sign :: rest =>
      (sign == '+' || sign == '-')
        && match fixed? 2 rest with
          | some (hour, ':' :: rest) =>
              match fixed? 2 rest with
              | some (minute, []) => hour ≤ 23 && minute ≤ 59
              | _ => false
          | _ => false

def isTime (edition : Edition) (dated : Bool) (word : List Char) : Bool :=
  match afterTime? edition word with
  | some rest => if dated then isOffset rest else rest.isEmpty
  | none => false

/-- A date, alone or with a time behind a letter. -/
def isDate (edition : Edition) (word : List Char) : Bool :=
  match afterDate? word with
  | some [] => true
  | some (mark :: rest) => (mark == 'T' || mark == 't') && isTime edition true rest
  | none => false

def isWordChar (c : Char) : Bool :=
  c.isAlphanum || c == '+' || c == '-' || c == '.' || c == '_' || c == ':'

def ofWord? (edition : Edition) (word : List Char) : Option Value :=
  if word = "true".toList then some (.boolean true)
  else if word = "false".toList then some (.boolean false)
  else match integer? word with
    | some n => some (.integer n)
    | none => match float? word with
      | some value => some (.float value)
      | none =>
          if isDate edition word || isTime edition false word then some (.time (.ofList word))
          else none

/-- A value without quotes or brackets. A blank may stand between a date and its time. -/
def readScalar (edition : Edition) (chars : List Char) : Option (Value × List Char) :=
  let word := chars.takeWhile isWordChar
  let rest := chars.drop word.length
  let joined := match afterDate? word, rest with
    | some [], ' ' :: later =>
        let time := later.takeWhile isWordChar
        if isTime edition true time then some (word ++ ' ' :: time, later.drop time.length) else none
    | _, _ => none
  match joined with
  | some (text, rest) => some (.time (.ofList text), rest)
  | none => (ofWord? edition word).map (·, rest)

end LanguageClient.Toml
