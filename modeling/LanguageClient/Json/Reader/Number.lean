import LanguageClient.Json.Reader.Basic
import LanguageClient.Json.Value

/-! Numbers.

Digits are gathered into a significand of 64 bits. Whole digits that no longer fit
only raise the decimal exponent, and fraction digits that no longer fit are dropped.
The significand then becomes a double and is scaled by powers of ten, with one
rounding for each step.
-/

set_option autoImplicit false
namespace LanguageClient.Json

def significandLimit : Nat := 0x10000000000000000

def digitValue (b : UInt8) : Nat := b.toNat - 48

/-- Appends digits to a significand while it stays below its limit; also yields how
many were appended and the digits that were not. -/
def gather (significand : Nat) : List UInt8 → Nat × Nat × List UInt8
  | [] => (significand, 0, [])
  | d :: rest =>
      let next := significand * 10 + digitValue d
      if next < significandLimit then
        let (result, count, left) := gather next rest
        (result, count + 1, left)
      else (significand, 0, d :: rest)

/-- Scales by a power of ten, `10 ^ 308` at a time when that is far below one. -/
def scale : Nat → Double → Int → Option Double
  | 0, d, _ => some d
  | fuel + 1, d, exponent =>
      if 308 < exponent.natAbs then
        if d.isZero then some d
        else if 0 ≤ exponent then none
        else scale fuel (d.div (.powerOfTen 308)) (exponent + 308)
      else if 0 ≤ exponent then
        let product := d.mul (.powerOfTen exponent.toNat)
        if product.isInfinite then none else some product
      else some (d.div (.powerOfTen exponent.natAbs))

def signed (positive : Bool) (d : Double) : Double := if positive then d else d.negate

def floating (positive : Bool) (significand : Nat) (exponent : Int) (left : List UInt8) :
    Except Failure (Number × List UInt8) :=
  match scale 4 (.ofNat significand) exponent with
  | some d => .ok (.double (signed positive d), left)
  | none => failAt .numberOutOfRange left

/-- Exponent digits up to the 32-bit range; none once they pass it, with the digits
after the one that did. -/
def gatherExponent (exponent : Nat) : List UInt8 → Option Nat × List UInt8
  | [] => (some exponent, [])
  | d :: rest =>
      if isDigit d then
        let next := exponent * 10 + digitValue d
        if next < 0x80000000 then gatherExponent next rest else (none, rest)
      else (some exponent, d :: rest)

def readExponent (positive : Bool) (significand : Nat) (start : Int) (bytes : List UInt8) :
    Except Failure (Number × List UInt8) :=
  let (raises, bytes) := match bytes with
    | b :: rest => if b = ascii '-' then (false, rest) else if b = ascii '+' then (true, rest)
        else (true, bytes)
    | [] => (true, [])
  match bytes with
  | [] => failAt .endInValue []
  | b :: rest =>
      if isDigit b then
        match gatherExponent (digitValue b) rest with
        | (some n, left) => floating positive significand (if raises then start + n else start - n) left
        | (none, left) =>
            -- The exponent is out of range itself: without a significand, or far below, the number is zero.
            if significand ≠ 0 ∧ raises then failAt .numberOutOfRange left
            else .ok (.double (signed positive (.ofNat 0)), left.dropWhile isDigit)
      else failAt .invalidNumber rest

def isExponentMark (b : UInt8) : Bool := b == ascii 'e' || b == ascii 'E'

def readFraction (positive : Bool) (significand : Nat) (start : Int) (bytes : List UInt8) :
    Except Failure (Number × List UInt8) :=
  let digits := bytes.takeWhile isDigit
  let rest := bytes.drop digits.length
  let (significand, count, _) := gather significand digits
  if digits.isEmpty then
    if rest.isEmpty then failAt .endInValue [] else failBefore .invalidNumber rest
  else match rest with
    | b :: more =>
        if isExponentMark b then readExponent positive significand (start - count) more
        else floating positive significand (start - count) rest
    | [] => floating positive significand (start - count) []

def wholeNumber (positive : Bool) (n : Nat) : Number :=
  if positive then .integer n
  else if 0 < n ∧ n ≤ 0x8000000000000000 then .integer (-n)
  else .double (Double.ofNat n).negate

def readNumber (positive : Bool) (bytes : List UInt8) : Except Failure (Number × List UInt8) :=
  match bytes with
  | [] => failAt .endInValue []
  | b :: rest =>
      if !isDigit b then failAt .invalidNumber rest
      else if b = ascii '0' ∧ (rest.head?.map isDigit).getD false then
        failBefore .invalidNumber rest
      else
        let digits := bytes.takeWhile isDigit
        let rest := bytes.drop digits.length
        let (significand, _, excess) := gather 0 digits
        match rest with
        | b :: more =>
            if b = ascii '.' then readFraction positive significand excess.length more
            else if isExponentMark b then readExponent positive significand excess.length more
            else if excess.isEmpty then .ok (wholeNumber positive significand, rest)
            else floating positive significand excess.length rest
        | [] =>
            if excess.isEmpty then .ok (wholeNumber positive significand, [])
            else floating positive significand excess.length []

def skipExponent (bytes : List UInt8) : Except Failure (List UInt8) :=
  let unsigned := match bytes with
    | b :: rest => if b = ascii '-' ∨ b = ascii '+' then rest else bytes
    | [] => []
  match unsigned with
  | [] => failAt .invalidNumber []
  | b :: rest => if isDigit b then .ok (rest.dropWhile isDigit) else failAt .invalidNumber rest

/-- Passes over a number whose sign is read; its size does not matter. -/
def skipNumber (bytes : List UInt8) : Except Failure (List UInt8) :=
  match bytes with
  | [] => failAt .invalidNumber []
  | b :: rest =>
      if !isDigit b then failAt .invalidNumber rest
      else if b = ascii '0' ∧ (rest.head?.map isDigit).getD false then
        failBefore .invalidNumber rest
      else
        match bytes.dropWhile isDigit with
        | [] => .ok []
        | b :: rest =>
            if b = ascii '.' then
              let after := rest.dropWhile isDigit
              if after.length = rest.length then failBefore .invalidNumber rest
              else match after with
                | c :: more => if isExponentMark c then skipExponent more else .ok after
                | [] => .ok []
            else if isExponentMark b then skipExponent rest
            else .ok (b :: rest)

end LanguageClient.Json
