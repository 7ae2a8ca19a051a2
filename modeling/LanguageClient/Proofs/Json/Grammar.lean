import Mathlib.Data.List.DropRight
import LanguageClient.Json.Reader.Value

/-! The grammar of JSON texts.

A rule relates the octets at which something starts to those behind it. Octets of a
string count as such whether or not they are UTF-8.
-/

set_option autoImplicit false
namespace LanguageClient.Json

def Open.opening : Open → UInt8
  | .list => ascii '['
  | .object => ascii '\x7b'

def Open.closing : Open → UInt8
  | .list => ascii ']'
  | .object => ascii '\x7d'

theorem Open.closes_iff (kind : Open) (b : UInt8) : kind.closes b = true ↔ b = kind.closing := by
  cases kind <;> simp [closes, closing]

namespace Grammar

inductive Digits : List UInt8 → List UInt8 → Prop where
  | last {d : UInt8} {rest : List UInt8} (digit : isDigit d = true) : Digits (d :: rest) rest
  | more {d : UInt8} {bytes rest : List UInt8} (digit : isDigit d = true) :
      Digits bytes rest → Digits (d :: bytes) rest

/-- No zero stands before other digits. -/
inductive Whole : List UInt8 → List UInt8 → Prop where
  | zero {rest : List UInt8} : Whole (ascii '0' :: rest) rest
  | digits {d : UInt8} {bytes rest : List UInt8} (leading : d ≠ ascii '0') :
      Digits (d :: bytes) rest → Whole (d :: bytes) rest

inductive Fraction : List UInt8 → List UInt8 → Prop where
  | absent {rest : List UInt8} : Fraction rest rest
  | present {bytes rest : List UInt8} : Digits bytes rest → Fraction (ascii '.' :: bytes) rest

inductive Exponent : List UInt8 → List UInt8 → Prop where
  | absent {rest : List UInt8} : Exponent rest rest
  | unsigned {mark : UInt8} {bytes rest : List UInt8} (marked : isExponentMark mark = true) :
      Digits bytes rest → Exponent (mark :: bytes) rest
  | signed {mark sign : UInt8} {bytes rest : List UInt8} (marked : isExponentMark mark = true)
      (sign_eq : sign = ascii '-' ∨ sign = ascii '+') :
      Digits bytes rest → Exponent (mark :: sign :: bytes) rest

inductive Magnitude : List UInt8 → List UInt8 → Prop where
  | parts {bytes fraction exponent rest : List UInt8} :
      Whole bytes fraction → Fraction fraction exponent → Exponent exponent rest → Magnitude bytes rest

inductive Quoted : List UInt8 → List UInt8 → Prop where
  | close {rest : List UInt8} : Quoted (ascii '"' :: rest) rest
  | plain {b : UInt8} {bytes rest : List UInt8} (quote : b ≠ ascii '"') (escape : b ≠ ascii '\\')
      (control : ¬ b < 32) : Quoted bytes rest → Quoted (b :: bytes) rest
  | simple {b : UInt8} {bytes rest : List UInt8} (known : (simpleEscape? b).isSome = true) :
      Quoted bytes rest → Quoted (ascii '\\' :: b :: bytes) rest
  | unicode {a b c d : UInt8} {bytes rest : List UInt8}
      (digits : ∀ digit ∈ [a, b, c, d], (hexValue? digit).isSome = true) :
      Quoted bytes rest → Quoted (ascii '\\' :: ascii 'u' :: a :: b :: c :: d :: bytes) rest

inductive Scalar : List UInt8 → List UInt8 → Prop where
  | null {rest : List UInt8} : Scalar (['n', 'u', 'l', 'l'].map ascii ++ rest) rest
  | yes {rest : List UInt8} : Scalar (['t', 'r', 'u', 'e'].map ascii ++ rest) rest
  | no {rest : List UInt8} : Scalar (['f', 'a', 'l', 's', 'e'].map ascii ++ rest) rest
  | number {bytes rest : List UInt8} : Magnitude bytes rest → Scalar bytes rest
  | negative {bytes rest : List UInt8} : Magnitude bytes rest → Scalar (ascii '-' :: bytes) rest
  | string {bytes rest : List UInt8} : Quoted bytes rest → Scalar (ascii '"' :: bytes) rest

mutual
inductive Value : List UInt8 → List UInt8 → Prop where
  | scalar {bytes rest : List UInt8} : Scalar (skipBlank bytes) rest → Value bytes rest
  | group {bytes rest : List UInt8} (kind : Open) : Group kind bytes rest → Value bytes rest

inductive Group : Open → List UInt8 → List UInt8 → Prop where
  | opened {kind : Open} {bytes inner rest : List UInt8} (start : skipBlank bytes = kind.opening :: inner) :
      Inside kind inner rest → Group kind bytes rest

inductive Inside : Open → List UInt8 → List UInt8 → Prop where
  | empty {kind : Open} {bytes rest : List UInt8} (start : skipBlank bytes = kind.closing :: rest) :
      Inside kind bytes rest
  | entries {kind : Open} {bytes next rest : List UInt8} :
      Entry kind bytes next → Onward kind next rest → Inside kind bytes rest

/-- What stands behind an entry. -/
inductive Onward : Open → List UInt8 → List UInt8 → Prop where
  | close {kind : Open} {bytes rest : List UInt8} (start : skipBlank bytes = kind.closing :: rest) :
      Onward kind bytes rest
  | comma {kind : Open} {bytes entry next rest : List UInt8} (start : skipBlank bytes = ascii ',' :: entry) :
      Entry kind entry next → Onward kind next rest → Onward kind bytes rest

inductive Entry : Open → List UInt8 → List UInt8 → Prop where
  | item {bytes rest : List UInt8} : Value bytes rest → Entry .list bytes rest
  | member {bytes name named value rest : List UInt8} (start : skipBlank bytes = ascii '"' :: name) :
      Quoted name named → skipBlank named = ascii ':' :: value → Value value rest → Entry .object bytes rest
end

def Remainder (kind : Open) (first : Bool) : List UInt8 → List UInt8 → Prop :=
  if first then Inside kind else Onward kind

/-- Where an entry starts: at once if it is the first, else behind a comma. -/
def Starts (first : Bool) (bytes entry : List UInt8) : Prop :=
  if first then entry = skipBlank bytes
  else ∃ more, skipBlank bytes = ascii ',' :: more ∧ entry = skipBlank more

section Blanks

variable {kind : Open} {first : Bool} {bytes entry next rest : List UInt8}

theorem skipBlank_skipBlank (bytes : List UInt8) : skipBlank (skipBlank bytes) = skipBlank bytes :=
  List.dropWhile_idempotent isBlank bytes

theorem Value.of_skipBlank (value : Value (skipBlank bytes) rest) : Value bytes rest := by
  cases value with
  | scalar form => exact .scalar (skipBlank_skipBlank bytes ▸ form)
  | group kind form =>
    obtain ⟨start, inside⟩ := form
    exact .group kind (.opened (skipBlank_skipBlank bytes ▸ start) inside)

theorem Entry.of_skipBlank (form : Entry kind (skipBlank bytes) rest) : Entry kind bytes rest := by
  cases form with
  | item value => exact .item value.of_skipBlank
  | member start name colon value => exact .member (skipBlank_skipBlank bytes ▸ start) name colon value

theorem Starts.at_once (leads : first = true) (start : skipBlank bytes = entry) : Starts first bytes entry := by
  rw [leads]
  exact start.symm

theorem Starts.behind_comma {b : UInt8} {more : List UInt8} (later : ¬first = true)
    (start : skipBlank bytes = b :: more) (comma : b = ascii ',') (behind : skipBlank more = entry) :
    Starts first bytes entry := by
  rw [Bool.not_eq_true] at later
  rw [later]
  exact ⟨more, comma ▸ start, behind.symm⟩

/-- Where a closing mark is next, nothing else stands behind the last entry. -/
theorem Onward.closed {after : List UInt8} (onward : Onward kind bytes rest)
    (start : skipBlank bytes = kind.closing :: after) : skipBlank bytes = kind.closing :: rest := by
  cases onward with
  | close closing => exact closing
  | comma divided _ _ =>
    have other : kind.closing ≠ ascii ',' := by cases kind <;> decide
    exact absurd (List.cons.inj (start.symm.trans divided)).1 other

theorem Remainder.close (start : skipBlank bytes = kind.closing :: rest) : Remainder kind first bytes rest := by
  cases first with
  | true => exact .empty start
  | false => exact .close start

theorem Remainder.enter (starts : Starts first bytes entry) (form : Entry kind entry next)
    (onward : Onward kind next rest) : Remainder kind first bytes rest := by
  cases first with
  | true =>
    have start : entry = skipBlank bytes := starts
    rw [start] at form
    exact .entries form.of_skipBlank onward
  | false =>
    obtain ⟨more, comma, start⟩ := starts
    rw [start] at form
    exact .comma comma form.of_skipBlank onward

end Blanks

/-- A whole text that is a list or an object. -/
def Text (kind : Open) (bytes : List UInt8) : Prop :=
  ∃ rest, Group kind bytes rest ∧ skipBlank rest = []

theorem Text.start {kind : Open} {bytes : List UInt8} (text : Text kind bytes) :
    ∃ inner, skipBlank bytes = kind.opening :: inner := by
  obtain ⟨rest, ⟨start, -⟩, -⟩ := text
  exact ⟨_, start⟩

end Grammar
end LanguageClient.Json
