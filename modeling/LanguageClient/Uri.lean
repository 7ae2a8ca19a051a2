import LanguageClient.Text.Utf8

/-! URI references as RFC 3986 spells them.

A reference is only checked; its spelling is kept. The checks take octets from
the left and name the octet at which they give up.
-/

set_option autoImplicit false
namespace LanguageClient.Uri

inductive Fault where
  | unexpected
  | percent
  | address
  deriving DecidableEq, Repr

structure Error where
  fault : Fault
  index : Nat
  deriving DecidableEq, Repr

def Fault.describe : Fault → String
  | .unexpected => "unexpected character"
  | .percent => "invalid percent-encoded octet"
  | .address => "invalid IP literal"

def Error.message (e : Error) : String := e.fault.describe ++ " at index " ++ toString e.index

/-- A check consumes octets and returns the rest, or the fault and the rest at which it lies. -/
abbrev Check := Except (Fault × List UInt8) (List UInt8)

def byte (c : Char) : UInt8 := .ofNat c.toNat

def isDigit (b : UInt8) : Bool := 0x30 ≤ b && b ≤ 0x39
def isLetter (b : UInt8) : Bool := (0x41 ≤ b && b ≤ 0x5A) || (0x61 ≤ b && b ≤ 0x7A)
def isHex (b : UInt8) : Bool := isDigit b || (0x41 ≤ b && b ≤ 0x46) || (0x61 ≤ b && b ≤ 0x66)

def isOneOf (set : String) (b : UInt8) : Bool := set.toList.any fun c => byte c == b

def isSchemePart (b : UInt8) : Bool := isLetter b || isDigit b || isOneOf "+-." b

def isName (b : UInt8) : Bool := isLetter b || isDigit b || isOneOf "-._~!$&'()*+,;=" b

def isAuthority (b : UInt8) : Bool := isName b || b == byte ':'

def isBarePath (b : UInt8) : Bool := isName b || isOneOf "@/" b

def isPath (b : UInt8) : Bool := isBarePath b || b == byte ':'

def isQuery (b : UInt8) : Bool := isPath b || b == byte '?'

/-- Skips allowed octets and percent-encoded ones. -/
def skip (allowed : UInt8 → Bool) : List UInt8 → Check
  | [] => .ok []
  | b :: rest =>
      if b = byte '%' then
        match rest with
        | high :: low :: more =>
            if isHex high && isHex low then skip allowed more else .error (.percent, b :: rest)
        | _ => .error (.percent, b :: rest)
      else if allowed b then skip allowed rest
      else .ok (b :: rest)

def splitAt (separator : UInt8) : List UInt8 → List (List UInt8)
  | [] => [[]]
  | b :: rest =>
      if b = separator then [] :: splitAt separator rest
      else match splitAt separator rest with
        | first :: more => (b :: first) :: more
        | [] => [[b]]

/-- A decimal octet of an IPv4 address: at most 255, without leading zeros. -/
def isDecimalOctet (digits : List UInt8) : Bool :=
  match digits with
  | [a] => isDigit a
  | [a, b] => isDigit a && a != byte '0' && isDigit b
  | [a, b, c] => isDigit a && a != byte '0' && isDigit b && isDigit c
      && (a.toNat - 48) * 100 + (b.toNat - 48) * 10 + (c.toNat - 48) ≤ 255
  | _ => false

def isIPv4 (text : List UInt8) : Bool :=
  let parts := splitAt (byte '.') text
  parts.length == 4 && parts.all isDecimalOctet

def isGroup (text : List UInt8) : Bool := 1 ≤ text.length && text.length ≤ 4 && text.all isHex

/-- The number of 16-bit groups that colon-separated pieces stand for, if all are
well formed; only the very last may be an IPv4 address, which stands for two. -/
def groups? (last : Bool) : List (List UInt8) → Option Nat
  | [] => some 0
  | [piece] =>
      if isGroup piece then some 1 else if last && isIPv4 piece then some 2 else none
  | piece :: more => if isGroup piece then (groups? last more).map (· + 1) else none

/-- The texts before and after the first double colon. -/
def ellipsis? : List UInt8 → Option (List UInt8 × List UInt8)
  | a :: b :: rest =>
      if a = byte ':' ∧ b = byte ':' then some ([], rest)
      else (ellipsis? (b :: rest)).map fun (before, after) => (a :: before, after)
  | _ => none

def half? (last : Bool) (text : List UInt8) : Option Nat :=
  if text.isEmpty then some 0 else groups? last (splitAt (byte ':') text)

/-- Eight groups, or fewer around one double colon that stands for the missing ones. -/
def isIPv6 (text : List UInt8) : Bool :=
  match ellipsis? text with
  | none => half? true text == some 8
  | some (before, after) =>
      match half? false before, half? true after with
      | some left, some right => left + right ≤ 7
      | _, _ => false

def port (text : List UInt8) : List UInt8 :=
  match text with
  | b :: rest => if b = byte ':' then rest.dropWhile isDigit else text
  | [] => []

def host (text : List UInt8) : Check :=
  match text with
  | b :: rest =>
      if b = byte '[' then
        let inside := rest.takeWhile (· != byte ']')
        match rest.drop inside.length with
        | _ :: after => if isIPv6 inside then .ok (port after) else .error (.address, text)
        | [] => .error (.address, text)
      else (skip isName text).map port
  | [] => .ok []

/-- The last octet of the reversed text that precedes its colon and is no digit,
with all that follows it. -/
def badPort? : List UInt8 → List UInt8 → Option (List UInt8)
  | [], _ => none
  | b :: before, after =>
      if isDigit b then badPort? before (b :: after)
      else if b = byte ':' then none
      else some (b :: after)

/-- Without user information a single colon introduces the port, and more than
one is a fault at the first. -/
def authority (text : List UInt8) : Check := do
  let after ← skip isAuthority text
  let read := text.take (text.length - after.length)
  match after with
  | b :: rest =>
      if b = byte '@' then host rest
      else if read.isEmpty then host text
      else plain read after
  | [] => plain read after
where
  plain (read after : List UInt8) : Check :=
    match read.count (byte ':') with
    | 0 => .ok after
    | 1 => match badPort? read.reverse after with
        | none => .ok after
        | some fault => .error (.unexpected, fault)
    | _ => .error (.unexpected, read.dropWhile (· != byte ':') ++ after)

/-- A mark and the query characters after it, if the mark is there. -/
def marked (mark : Char) (text : List UInt8) : Check :=
  match text with
  | b :: rest => if b = byte mark then skip isQuery rest else .ok text
  | [] => .ok []

def tail (path : List UInt8) : Check := do
  let rest ← marked '#' (← marked '?' path)
  match rest with
  | [] => .ok []
  | _ => .error (.unexpected, rest)

/-- The path; unless a scheme came first, its first segment has no colon. -/
def path (hasScheme : Bool) (text : List UInt8) : Check := do
  if hasScheme then tail (← skip isPath text)
  else
    let rest ← skip (fun b => isBarePath b && b != byte '/') text
    match rest with
    | b :: _ => if b = byte '/' then tail (← skip isPath rest) else tail rest
    | [] => .ok []

def afterScheme (hasScheme : Bool) (text : List UInt8) : Check := do
  match text with
  | a :: b :: rest =>
      if a = byte '/' ∧ b = byte '/' then
        let after ← authority rest
        let rest ← skip isPath after
        match after with
        | c :: _ => if c = byte '/' ∨ rest = after then tail rest else .error (.unexpected, after)
        | [] => .ok []
      else path hasScheme text
  | _ => path hasScheme text

def reference (text : List UInt8) : Check :=
  match text.dropWhile isSchemePart with
  | b :: rest =>
      if b = byte ':' then
        if (text.head?.map isLetter).getD false then afterScheme true rest
        else .error (.unexpected, text)
      else afterScheme false text
  | [] => afterScheme false text

def fault? (text : String) : Option Error :=
  let bytes := Text.Utf8.encode text
  match reference bytes with
  | .ok _ => none
  | .error (fault, rest) => some ⟨fault, bytes.length - rest.length⟩

end LanguageClient.Uri
