import LanguageClient.Json.Reader.Value
import LanguageClient.Schema.Decode

/-! Reading a JSON text by a schema, without a value in between.

Members that are no fields are passed over unread, so neither their nesting nor
their numbers matter. Shapes for which alternatives have to be tried are read as a
value first.
-/

set_option autoImplicit false
namespace LanguageClient

open Json

/-- What is left of the nesting limit, and the octets. -/
abbrev TextReader := Nat → List UInt8 → Except Failure (Data × List UInt8)

namespace Schema

/-- The failure on a value of the wrong type. Scalars are read for its wording;
lists and objects are left standing. -/
def misread (expected : Expected) (bytes : List UInt8) : Failure :=
  let unfit (found : Found) (left : List UInt8) : Failure := ⟨.invalidType found expected, left, true⟩
  let orElse (reading : Except Failure (Found × List UInt8)) : Failure :=
    match reading with
    | .ok (found, left) => unfit found left
    | .error f => f
  let number (reading : Except Failure (Number × List UInt8)) : Failure :=
    orElse (reading.map fun (n, left) => ((Value.number n).found, left))
  match bytes with
  | [] => ⟨.expectedValue, [], true⟩
  | b :: rest =>
      if b = ascii 'n' then orElse (readWord .null ['u', 'l', 'l'] rest)
      else if b = ascii 't' then orElse (readWord (.boolean true) ['r', 'u', 'e'] rest)
      else if b = ascii 'f' then orElse (readWord (.boolean false) ['a', 'l', 's', 'e'] rest)
      else if b = ascii '-' then number (readNumber false rest)
      else if Json.isDigit b then number (readNumber true bytes)
      else if b = ascii '"' then
        orElse ((readString rest).map fun (s, left) => (.string s, left))
      else if b = ascii '[' then unfit .sequence bytes
      else if b = ascii '\x7b' then unfit .map bytes
      else ⟨.expectedValue, rest, true⟩

def readText (bytes : List UInt8) : Except Failure (String × List UInt8) :=
  match skipBlank bytes with
  | [] => failAt .endInValue []
  | b :: rest => if b = ascii '"' then readString rest else .error (misread .string (b :: rest))

def readBoolean (bytes : List UInt8) : Except Failure (Data × List UInt8) :=
  match skipBlank bytes with
  | [] => failAt .endInValue []
  | b :: rest =>
      if b = ascii 't' then readWord (.boolean true) ['r', 'u', 'e'] rest
      else if b = ascii 'f' then readWord (.boolean false) ['a', 'l', 's', 'e'] rest
      else .error (misread .boolean (b :: rest))

def readUnit (bytes : List UInt8) : Except Failure (Data × List UInt8) :=
  match skipBlank bytes with
  | [] => failAt .endInValue []
  | b :: rest =>
      if b = ascii 'n' then readWord .unit ['u', 'l', 'l'] rest
      else .error (misread .unit (b :: rest))

def readInteger (range : IntegerRange) (bytes : List UInt8) : Except Failure (Data × List UInt8) :=
  match skipBlank bytes with
  | [] => failAt .endInValue []
  | b :: rest =>
      if b = ascii '-' ∨ Json.isDigit b then do
        let (n, left) ← if b = ascii '-' then readNumber false rest else readNumber true (b :: rest)
        match n with
        | .integer n =>
            if range.contains n then .ok (.integer n, left)
            else failAt (.invalidValue (.integer n) (.integer range)) left
        | .double d => failAt (.invalidType (.floating d) (.integer range)) left
      else .error (misread (.integer range) (b :: rest))

/-- Where the next item of a list starts, none at its closing bracket. -/
def nextItem (first : Bool) (bytes : List UInt8) : Except Failure (Option (List UInt8)) :=
  match skipBlank bytes with
  | [] => failAt .endInList []
  | b :: rest =>
      if b = ascii ']' then .ok none
      else if first then .ok (some (b :: rest))
      else if b = ascii ',' then
        match skipBlank rest with
        | [] => failAt .endInValue []
        | c :: more =>
            if c = ascii ']' then failBefore .trailingComma (c :: more) else .ok (some (c :: more))
      else failBefore .expectedCommaOrBracket (b :: rest)

def nextName (first : Bool) (bytes : List UInt8) : Except Failure (Option (String × List UInt8)) :=
  match skipBlank bytes with
  | [] => failAt .endInObject []
  | b :: rest =>
      if b = ascii '\x7d' then .ok none
      else if first then
        if b = ascii '"' then (readString rest).map some else failBefore .keyMustBeString (b :: rest)
      else if b = ascii ',' then
        match skipBlank rest with
        | [] => failAt .endInValue []
        | c :: more =>
            if c = ascii '"' then (readString more).map some
            else if c = ascii '\x7d' then failBefore .trailingComma (c :: more)
            else failBefore .keyMustBeString (c :: more)
      else failBefore .expectedCommaOrBrace (b :: rest)

/-- The octets after the closing bracket, or where a reading that failed would look for it. -/
def pastList (bytes : List UInt8) : List UInt8 :=
  match skipBlank bytes with
  | [] => []
  | b :: rest =>
      if b = ascii ']' then rest
      else if b = ascii ',' then skipBlank rest
      else b :: rest

def pastObject (bytes : List UInt8) : List UInt8 :=
  match skipBlank bytes with
  | [] => []
  | b :: rest => if b = ascii '\x7d' then rest else b :: rest

def closeList (bytes : List UInt8) : Except Failure (List UInt8) :=
  match skipBlank bytes with
  | [] => failAt .endInList []
  | b :: rest =>
      if b = ascii ']' then .ok rest
      else if b = ascii ',' then
        match skipBlank rest with
        | [] => failAt .trailingCharacters []
        | c :: more =>
            failBefore (if c = ascii ']' then .trailingComma else .trailingCharacters) (c :: more)
      else failBefore .trailingCharacters (b :: rest)

def closeObject (bytes : List UInt8) : Except Failure (List UInt8) :=
  match skipBlank bytes with
  | [] => failAt .endInObject []
  | b :: rest =>
      if b = ascii '\x7d' then .ok rest
      else failBefore (if b = ascii ',' then .trailingComma else .trailingCharacters) (b :: rest)

/-- The contents of a list, its closing bracket, and a place for failures that have none. -/
def inList {α : Type} (contents : Except Failure (α × List UInt8)) :
    Except Failure (α × List UInt8) :=
  match contents with
  | .ok (a, bytes) => (closeList bytes).map (a, ·)
  | .error f => .error (f.placeAt (pastList f.left))

def inObject {α : Type} (contents : Except Failure (α × List UInt8)) :
    Except Failure (α × List UInt8) :=
  match contents with
  | .ok (a, bytes) => (closeObject bytes).map (a, ·)
  | .error f => .error (f.placeAt (pastObject f.left))

def readItemsBy (item : List UInt8 → Except Failure (Data × List UInt8)) :
    Nat → List Data → List UInt8 → Except Failure (Data × List UInt8)
  | 0, _, bytes => failAt .endInList bytes
  | fuel + 1, read, bytes => do
      match ← nextItem read.isEmpty bytes with
      | none => .ok (.list read.reverse, bytes)
      | some bytes =>
          let (d, rest) ← item bytes
          readItemsBy item fuel (d :: read) rest

/-- The members of an object that are fields, with their readers. -/
def readMembersBy (readers : List (String × (List UInt8 → Except Failure (Data × List UInt8)))) :
    Nat → Bool → List (String × Data) → List UInt8 → Except Failure (List (String × Data) × List UInt8)
  | 0, _, _, bytes => failAt .endInObject bytes
  | fuel + 1, first, read, bytes => do
      match ← nextName first bytes with
      | none => .ok (read, bytes)
      | some (name, rest) =>
          match readers.lookup name with
          | none => do
              let rest ← skipValue (← readColon rest)
              readMembersBy readers fuel false read rest
          | some reader =>
              -- A field may stand once; a member of no field as often as it likes.
              if (read.lookup name).isSome then misfit (.duplicateField name) rest
              else do
                let (d, rest) ← reader (← readColon rest)
                readMembersBy readers fuel false ((name, d) :: read) rest

def collect (fields : List (Field Schema)) (read : List (String × Data)) (bytes : List UInt8) :
    Except Failure (Data × List UInt8) :=
  match fill fields (fields.map fun field => (read.lookup field.name).map .ok) with
  | .ok ds => .ok (.record ds, bytes)
  | .error cause => misfit cause bytes

/-- The fields of a record written as a list: each with its reader, the first being
number `index` of `count`. -/
def readFieldsBy (name : String) (count : Nat) :
    List (Absence × (List UInt8 → Except Failure (Data × List UInt8))) → Nat → List UInt8 →
    Except Failure (List Data × List UInt8)
  | [], _, bytes => .ok ([], bytes)
  | (absence, reader) :: rest, index, bytes => do
      match ← nextItem (index == 0) bytes with
      | some bytes =>
          let (d, bytes) ← reader bytes
          let (ds, bytes) ← readFieldsBy name count rest (index + 1) bytes
          .ok (d :: ds, bytes)
      | none =>
          match absence with
          | .default d =>
              let (ds, bytes) ← readFieldsBy name count rest (index + 1) bytes
              .ok (d :: ds, bytes)
          | _ => misfit (.invalidLength index (.elements name count)) bytes

def readVariant (names : List String) (room : Nat) (bytes : List UInt8) :
    Except Failure (Data × List UInt8) :=
  let choose (s : String) (left : List UInt8) : Except Failure (Data × List UInt8) :=
    match decodeVariant names s with
    | .ok d => .ok (d, left)
    | .error cause => failAt cause left
  match skipBlank bytes with
  | [] => failAt .endInValue []
  | b :: rest =>
      if b = ascii '"' then do
        let (s, left) ← readString rest
        choose s left
      else if b = ascii '\x7b' then
        if room ≤ 1 then failBefore .tooDeep (b :: rest)
        else do
          let (s, left) ← match skipBlank rest with
            | [] => failAt .endInValue []
            | c :: more =>
                if c = ascii '"' then readString more else .error (misread .variantName (c :: more))
          let (d, left) ← choose s left
          let (_, left) ← readUnit (← readColon left)
          match skipBlank left with
          | [] => failAt .endInObject []
          | c :: more =>
              if c = ascii '\x7d' then .ok (d, more) else failAt .expectedValue (c :: more)
      else failBefore .expectedValue (b :: rest)

def readDetached (schema : Schema) : TextReader := fun room bytes => do
  let (v, rest) ← readValue room bytes
  match schema.decodeWith (unroll id 0) true v with
  | .ok d => .ok (d, rest)
  | .error cause => misfit cause rest

mutual
def readWith : Schema → TextReader
  | .value => fun room bytes => (readValue room bytes).map fun (v, rest) => (.json v, rest)
  | .ignored => fun _ bytes => (skipValue bytes).map (.unit, ·)
  | .unit => fun _ bytes => readUnit bytes
  | .boolean => fun _ bytes => readBoolean bytes
  | .text => fun _ bytes => (readText bytes).map fun (s, rest) => (.text s, rest)
  | .integer range => fun _ bytes => readInteger range bytes
  | .option content => fun room bytes =>
      match skipBlank bytes with
      | b :: rest =>
          if b = ascii 'n' then readWord .absent ['u', 'l', 'l'] rest
          else readWith content room (b :: rest)
      | [] => readWith content room []
  | .list item => fun room bytes =>
      match skipBlank bytes with
      | [] => failAt .endInValue []
      | b :: rest =>
          if b = ascii '[' then
            if room ≤ 1 then failBefore .tooDeep (b :: rest)
            else inList (readItemsBy (readWith item (room - 1)) (rest.length + 1) [] rest)
          else .error (misread .sequence (b :: rest))
  | .variant names => readVariant names
  | .record name fields => fun room bytes =>
      match skipBlank bytes with
      | [] => failAt .endInValue []
      | b :: rest =>
          if b = ascii '[' then
            if room ≤ 1 then failBefore .tooDeep (b :: rest)
            else
              let readers := fieldReaders fields (room - 1)
              inList ((readFieldsBy name fields.length
                ((fields.map (·.absence)).zip (readers.map (·.2))) 0 rest).map
                fun (ds, left) => (.record ds, left))
          else if b = ascii '\x7b' then
            if room ≤ 1 then failBefore .tooDeep (b :: rest)
            else inObject do
              let (read, left) ←
                readMembersBy (fieldReaders fields (room - 1)) (rest.length + 1) true [] rest
              collect fields read left
          else .error (misread (.record name) (b :: rest))
  -- The others are not read off the text: a value is, and they judge it.
  | schema => readDetached schema

def fieldReaders : List (Field Schema) → Nat →
    List (String × (List UInt8 → Except Failure (Data × List UInt8)))
  | [], _ => []
  | ⟨name, shape, _, _⟩ :: rest, room => (name, readWith shape room) :: fieldReaders rest room
end

theorem readWith_value (room : Nat) (bytes : List UInt8) :
    readWith .value room bytes = (readValue room bytes).map fun (v, rest) => (.json v, rest) := by
  simp only [readWith]

theorem readWith_integer (range : IntegerRange) (room : Nat) (bytes : List UInt8) :
    readWith (.integer range) room bytes = readInteger range bytes := by
  simp only [readWith]

def read (schema : Schema) (input : List UInt8) : Except Json.Error Data :=
  readAll (schema.readWith nestingLimit) input

end Schema
end LanguageClient
