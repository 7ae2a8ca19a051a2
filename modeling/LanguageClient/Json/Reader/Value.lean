import LanguageClient.Json.Reader.Number
import LanguageClient.Json.Reader.String

/-! Values of any shape: read with a limit on nesting, or passed over without one. -/

set_option autoImplicit false
namespace LanguageClient.Json

/-- How many lists and objects may be open, the outermost included, before reading gives up. -/
def nestingLimit : Nat := 128

mutual
/-- Reads a value; `room` is what is left of the nesting limit. -/
def readNested : Nat → Nat → List UInt8 → Except Failure (Value × List UInt8)
  | 0, _, bytes => failAt .endInValue bytes
  | fuel + 1, room, bytes =>
      match skipBlank bytes with
      | [] => failAt .endInValue []
      | b :: rest =>
          if b = ascii 'n' then readWord .null ['u', 'l', 'l'] rest
          else if b = ascii 't' then readWord (.boolean true) ['r', 'u', 'e'] rest
          else if b = ascii 'f' then readWord (.boolean false) ['a', 'l', 's', 'e'] rest
          else if b = ascii '-' then do
            let (n, rest) ← readNumber false rest
            .ok (.number n, rest)
          else if isDigit b then do
            let (n, rest) ← readNumber true (b :: rest)
            .ok (.number n, rest)
          else if b = ascii '"' then do
            let (s, rest) ← readString rest
            .ok (.string s, rest)
          else if b = ascii '[' then
            if room ≤ 1 then failBefore .tooDeep (b :: rest)
            else readItems fuel (room - 1) [] rest
          else if b = ascii '\x7b' then
            if room ≤ 1 then failBefore .tooDeep (b :: rest)
            else readMembers fuel (room - 1) [] rest
          else failBefore .expectedValue (b :: rest)

/-- Reads the rest of a list; `read` holds the items before, the last first. -/
def readItems : Nat → Nat → List Value → List UInt8 → Except Failure (Value × List UInt8)
  | 0, _, _, bytes => failAt .endInList bytes
  | fuel + 1, room, read, bytes =>
      match skipBlank bytes with
      | [] => failAt .endInList []
      | b :: rest =>
          if b = ascii ']' then .ok (.array read.reverse, rest)
          else if read.isEmpty then do
            let (item, rest) ← readNested fuel room (b :: rest)
            readItems fuel room [item] rest
          else if b = ascii ',' then
            match skipBlank rest with
            | [] => failAt .endInValue []
            | c :: more =>
                if c = ascii ']' then failBefore .trailingComma (c :: more)
                else do
                  let (item, rest) ← readNested fuel room (c :: more)
                  readItems fuel room (item :: read) rest
          else failBefore .expectedCommaOrBracket (b :: rest)

/-- Reads the rest of an object; `read` holds the members before, the last first. -/
def readMembers : Nat → Nat → List (String × Value) → List UInt8 → Except Failure (Value × List UInt8)
  | 0, _, _, bytes => failAt .endInObject bytes
  | fuel + 1, room, read, bytes =>
      match skipBlank bytes with
      | [] => failAt .endInObject []
      | b :: rest =>
          if b = ascii '\x7d' then .ok (.ofMembers read.reverse, rest)
          else if read.isEmpty then
            if b = ascii '"' then do
              let (name, rest) ← readString rest
              let rest ← readColon rest
              let (value, rest) ← readNested fuel room rest
              readMembers fuel room [(name, value)] rest
            else failBefore .keyMustBeString (b :: rest)
          else if b = ascii ',' then
            match skipBlank rest with
            | [] => failAt .endInValue []
            | c :: more =>
                if c = ascii '"' then do
                  let (name, rest) ← readString more
                  let rest ← readColon rest
                  let (value, rest) ← readNested fuel room rest
                  readMembers fuel room ((name, value) :: read) rest
                else if c = ascii '\x7d' then failBefore .trailingComma (c :: more)
                else failBefore .keyMustBeString (c :: more)
          else failBefore .expectedCommaOrBrace (b :: rest)
end

/-- Reads a value. Each octet pays for at most two calls. -/
def readValue (room : Nat) (bytes : List UInt8) : Except Failure (Value × List UInt8) :=
  readNested (2 * bytes.length + 2) room bytes

inductive Open where
  | list
  | object
  deriving DecidableEq, Repr

inductive Awaiting where
  /-- A value; in an object its name comes first. -/
  | value
  /-- A value, or the end of the list or object just opened. -/
  | first
  /-- A comma, or the end of the list or object. -/
  | next
  deriving DecidableEq, Repr

def skipStart (bytes : List UInt8) : Except Failure (Option Open × List UInt8) :=
  match skipBlank bytes with
  | [] => failAt .endInValue []
  | b :: rest =>
      if b = ascii 'n' then (readWord none ['u', 'l', 'l'] rest)
      else if b = ascii 't' then (readWord none ['r', 'u', 'e'] rest)
      else if b = ascii 'f' then (readWord none ['a', 'l', 's', 'e'] rest)
      else if b = ascii '-' then (skipNumber rest).map (none, ·)
      else if isDigit b then (skipNumber (b :: rest)).map (none, ·)
      else if b = ascii '"' then (skipString rest.length rest).map (none, ·)
      else if b = ascii '[' then .ok (some .list, rest)
      else if b = ascii '\x7b' then .ok (some .object, rest)
      else failBefore .expectedValue (b :: rest)

def skipName (bytes : List UInt8) : Except Failure (List UInt8) :=
  match skipBlank bytes with
  | [] => failAt .endInObject []
  | b :: rest =>
      if b = ascii '"' then do readColon (← skipString rest.length rest)
      else failBefore .keyMustBeString (b :: rest)

def Open.closes : Open → UInt8 → Bool
  | .list, b => b == ascii ']'
  | .object, b => b == ascii '\x7d'

def Open.unended : Open → Cause
  | .list => .endInList
  | .object => .endInObject

def Open.undivided : Open → Cause
  | .list => .expectedCommaOrBracket
  | .object => .expectedCommaOrBrace

def skipOpen : Nat → Awaiting → List Open → List UInt8 → Except Failure (List UInt8)
  -- What is open is kept in a list of its own, so nothing is nested too deep to be passed over.
  | _, _, [], bytes => .ok bytes
  | 0, _, _ :: _, bytes => failAt .endInValue bytes
  | fuel + 1, .value, inner :: outer, bytes => do
      let bytes ← if inner = .object then skipName bytes else .ok bytes
      match ← skipStart bytes with
      | (none, rest) => skipOpen fuel .next (inner :: outer) rest
      | (some opened, rest) => skipOpen fuel .first (opened :: inner :: outer) rest
  | fuel + 1, .first, inner :: outer, bytes =>
      match skipBlank bytes with
      | [] => failAt inner.unended []
      | b :: rest =>
          if inner.closes b then skipOpen fuel .next outer rest
          else skipOpen fuel .value (inner :: outer) (b :: rest)
  | fuel + 1, .next, inner :: outer, bytes =>
      match skipBlank bytes with
      | [] => failAt inner.unended []
      | b :: rest =>
          if b = ascii ',' then skipOpen fuel .value (inner :: outer) rest
          else if inner.closes b then skipOpen fuel .next outer rest
          else failBefore inner.undivided (b :: rest)

def skipValue (bytes : List UInt8) : Except Failure (List UInt8) := do
  match ← skipStart bytes with
  | (none, rest) => .ok rest
  | (some opened, rest) => skipOpen (2 * rest.length + 2) .first [opened] rest

def Value.ofText (input : List UInt8) : Except Error Value := readAll (readValue nestingLimit) input

end LanguageClient.Json
