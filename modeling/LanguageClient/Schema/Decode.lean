import LanguageClient.Schema.Basic

/-! Reading a JSON value by a schema.

A value taken out of a larger object, to be divided among its parts or tried by
several alternatives, is called detached. The only difference that makes is the
wording of the error on a list that is too long.
-/

set_option autoImplicit false
namespace LanguageClient

open Json (Value Cause Found Expected)

/-- Whether the value is detached, the value, and what it carries. -/
abbrev Decoder := Bool → Value → Except Cause Data

def Json.Value.found : Value → Found
  | .null => .null
  | .boolean b => .boolean b
  | .number (.integer n) => .integer n
  | .number (.double d) => .floating d
  | .string s => .string s
  | .array _ => .sequence
  | .object _ => .map

namespace Schema

def unfit {α : Type} (expected : Expected) (v : Value) : Except Cause α :=
  .error (.invalidType v.found expected)

/-- Decodes `n` levels of a shape that refers to itself. -/
def unroll (body : Decoder → Decoder) : Nat → Decoder
  | 0 => fun _ v => unfit .map v
  | n + 1 => body (unroll body n)

def decodeUri (s : String) : Except Cause Data :=
  match Uri.fault? s with
  | none => .ok (.text s)
  | some error => .error (.invalidUri error)

def decodeVariant (names : List String) (name : String) : Except Cause Data :=
  match names.idxOf? name with
  | some index => .ok (.choice index .unit)
  | none => .error (.unknownVariant name names)

/-- A name by itself, or as the only member of an object, with null. -/
def decodeVariantValue (names : List String) : Value → Except Cause Data
  | .string s => decodeVariant names s
  | .object [(name, content)] => do
      let choice ← decodeVariant names name
      match content with
      | .null => .ok choice
      | other => unfit .unit other
  | .object _ => .error (.invalidValue .map .oneMember)
  | other => unfit .variant other

/-- The index of the alternative that a tag names; it may be given by its number. -/
def tagIndex? (names : List String) : Value → Option Nat
  | .string s => names.idxOf? s
  | .number (.integer n) => if 0 ≤ n ∧ n < names.length then some n.toNat else none
  | _ => none

def Absence.resolve (name : String) : Absence → Except Cause Data
  | .refused => .error (.missingField name)
  | .optional => .ok .absent
  | .default d => .ok d

abbrev Attempts := List (Option (Except Cause Data))

def firstFault? (names : List String) (attempts : Attempts) (members : List (String × Value)) :
    Option Cause :=
  members.findSome? fun (name, _) =>
    match (names.zip attempts).lookup name with
    | some (some (.error cause)) => some cause
    | _ => none

def fill : List (Field Schema) → Attempts → Except Cause (List Data)
  | field :: fields, attempt :: attempts => do
      let d ← match attempt with
        | some result => result
        | none => Absence.resolve field.name field.absence
      let ds ← fill fields attempts
      .ok (d :: ds)
  | _, _ => .ok []

/-- Unfitting members count in order of their names, before fields that are missing. -/
def settle (fields : List (Field Schema)) (attempts : Attempts) (members : List (String × Value)) :
    Except Cause (List Data) :=
  match firstFault? (fields.map (·.name)) attempts members with
  | some cause => .error cause
  | none => fill fields attempts

def tooLong (detached : Bool) (fields items : Nat) : Cause :=
  .invalidLength items (if detached then .sequenceOf fields else .fewerElements)

/-- The names that a part of a merged record takes out of what is left; none if it
takes all of it. -/
def ownNames? : Schema → Option (List String)
  | .record _ fields => some (fields.map (·.name))
  | _ => none

mutual
def decodeWith : Schema → Decoder → Decoder
  | .unit, _, _, .null => .ok .unit
  | .unit, _, _, v => unfit .unit v
  | .ignored, _, _, _ => .ok .unit
  | .value, _, _, v => .ok (.json v)
  | .boolean, _, _, .boolean b => .ok (.boolean b)
  | .boolean, _, _, v => unfit .boolean v
  | .text, _, _, .string s => .ok (.text s)
  | .text, _, _, v => unfit .string v
  | .uri, _, _, .string s => decodeUri s
  | .uri, _, _, v => unfit .string v
  | .integer range, _, _, v =>
      match v with
      | .number (.integer n) =>
          if range.contains n then .ok (.integer n)
          else .error (.invalidValue (.integer n) (.integer range))
      | _ => unfit (.integer range) v
  | .option _, _, _, .null => .ok .absent
  | .option content, self, detached, v => decodeWith content self detached v
  | .list item, self, detached, v =>
      match v with
      | .array items => (items.mapM (decodeWith item self detached)).map .list
      | _ => unfit .sequence v
  | .map uriNames item, self, detached, v =>
      match v with
      | .object members => (members.mapM fun (name, content) => do
          if uriNames then let _ ← decodeUri name
          let d ← decodeWith item self detached content
          .ok (name, d)).map .entries
      | _ => unfit .map v
  | .record name fields, self, detached, v =>
      match v with
      | .object members => (settle fields (attempt fields self detached members) members).map .record
      | .array items => (decodeItems fields name fields.length items.length self detached 0 items).map .record
      | _ => unfit (.record name) v
  | .merged name fields parts, self, detached, v =>
      match v with
      | .object members => do
          let own ← settle fields (attempt fields self detached members) members
          -- The parts see only what the record does not name.
          let names := fields.map (·.name)
          let shared ← decodeParts parts self (members.filter fun m => !names.contains m.1)
          .ok (.record (own ++ shared))
      | _ => unfit (.record name) v
  | .variant names, _, _, v => decodeVariantValue names v
  | .tagged name tag alternatives, self, _, v =>
      let names := alternatives.map (·.1)
      match v with
      | .object members =>
          match members.lookup tag with
          | none => .error (.missingField tag)
          | some marker =>
              match tagIndex? names marker with
              | none => unfit .variantName marker
              | some index =>
                  (decodeTagged alternatives self index
                    (.object (members.filter (·.1 != tag)))).map (.choice index)
      | .array (marker :: items) =>
          match tagIndex? names marker with
          | none => unfit .variantName marker
          | some index => (decodeTagged alternatives self index (.array items)).map (.choice index)
      | .array [] => .error (.missingField tag)
      | _ => unfit (.taggedUnion name) v
  | .untagged name alternatives, self, _, v =>
      match decodeFirst alternatives self 0 v with
      | some d => .ok d
      | none => .error (.noAlternative name)
  | .toggled content whenTrue, self, detached, v =>
      match v with
      | .null | .boolean false => .ok .absent
      | .boolean true => .ok whenTrue
      | _ => decodeWith content self detached v
  -- A value is nested no deeper than its depth, so that many rounds of the body are enough.
  | .recursive body, _, detached, v => unroll (decodeWith body) (v.depth + 1) detached v
  | .recur, self, detached, v => self detached v

def attempt : List (Field Schema) → Decoder → Bool → List (String × Value) → Attempts
  | [], _, _, _ => []
  | ⟨name, shape, _, _⟩ :: rest, self, detached, members =>
      (members.lookup name).map (decodeWith shape self detached) :: attempt rest self detached members

/-- A record written as an array: `index` fields are read and `items` are left. -/
def decodeItems : List (Field Schema) → String → Nat → Nat → Decoder → Bool → Nat → List Value →
    Except Cause (List Data)
  | [], _, count, length, _, detached, _, items =>
      if items.isEmpty then .ok [] else .error (tooLong detached count length)
  | ⟨_, shape, absence, _⟩ :: rest, name, count, length, self, detached, index, items =>
      match items with
      | item :: items => do
          let d ← decodeWith shape self detached item
          let ds ← decodeItems rest name count length self detached (index + 1) items
          .ok (d :: ds)
      | [] =>
          match absence with
          | .default d => do
              let ds ← decodeItems rest name count length self detached (index + 1) []
              .ok (d :: ds)
          | _ => .error (.invalidLength index (.elements name count))

def decodeParts : List Schema → Decoder → List (String × Value) → Except Cause (List Data)
  | [], _, _ => .ok []
  | part :: rest, self, members => do
      let (taken, left) := match ownNames? part with
        | some names => members.partition fun m => names.contains m.1
        | none => (members, members)
      let d ← decodeWith part self true (.object taken)
      let ds ← decodeParts rest self left
      .ok (d :: ds)

def decodeTagged : List (String × Schema) → Decoder → Nat → Value → Except Cause Data
  | [], _, _, v => unfit .variantName v
  | (_, shape) :: _, self, 0, v => decodeWith shape self true v
  | _ :: rest, self, index + 1, v => decodeTagged rest self index v

def decodeFirst : List Schema → Decoder → Nat → Value → Option Data
  | [], _, _, _ => none
  | shape :: rest, self, index, v =>
      match decodeWith shape self true v with
      | .ok d => some (.choice index d)
      | .error _ => decodeFirst rest self (index + 1) v
end

def decode (schema : Schema) (v : Value) : Except Cause Data :=
  schema.decodeWith (unroll id 0) false v

end Schema
end LanguageClient
