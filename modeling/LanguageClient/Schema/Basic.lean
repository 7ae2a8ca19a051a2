import LanguageClient.Json.Error
import LanguageClient.Json.Value

/-! Shapes of JSON values, and the data that a value of such a shape carries. -/

set_option autoImplicit false
namespace LanguageClient

open Json (Value IntegerRange)

/-- What remains of a JSON value once it is read by a schema. -/
inductive Data where
  | unit
  | boolean (b : Bool)
  | integer (n : Int)
  | text (s : String)
  | json (v : Value)
  /-- An optional value that is not there. -/
  | absent
  | list (items : List Data)
  | entries (members : List (String × Data))
  /-- The fields of a record in their declared order. -/
  | record (fields : List Data)
  /-- One of several alternatives, counted from zero. -/
  | choice (index : Nat) (content : Data)
  deriving Repr

/-- What a record makes of a field that is not there. -/
inductive Absence where
  | refused
  /-- Read as absent; a record written as an array still has to hold the field. -/
  | optional
  | default (d : Data)
  deriving Repr

structure Field (σ : Type) where
  name : String
  shape : σ
  absence : Absence
  /-- Whether an absent value is left out when the record is written. -/
  omitted : Bool

inductive Schema where
  /-- Only null. -/
  | unit
  /-- Anything, and nothing is kept of it. -/
  | ignored
  | value
  | boolean
  | text
  | uri
  | integer (range : IntegerRange)
  | option (content : Schema)
  | list (item : Schema)
  /-- An object with arbitrary names. -/
  | map (uriNames : Bool) (item : Schema)
  | record (name : String) (fields : List (Field Schema))
  /-- A record that is never written as an array. It shares its object with other records or
  maps, if there are any, which divide among themselves the members that are not its own. -/
  | merged (name : String) (fields : List (Field Schema)) (parts : List Schema)
  /-- One of some names. -/
  | variant (names : List String)
  /-- A record whose member `tag` names its alternative. -/
  | tagged (name tag : String) (alternatives : List (String × Schema))
  /-- The first alternative that fits. -/
  | untagged (name : String) (alternatives : List Schema)
  /-- False stands for absence and true for `whenTrue`. -/
  | toggled (content : Schema) (whenTrue : Data)
  /-- A shape that refers to itself by `recur`. -/
  | recursive (body : Schema)
  | recur

namespace Schema

def required (name : String) (shape : Schema) : Field Schema := ⟨name, shape, .refused, false⟩

def optional (name : String) (shape : Schema) : Field Schema :=
  ⟨name, .option shape, .optional, true⟩

/-- A field that is optional also when the record is written as an array. -/
def defaulted (name : String) (shape : Schema) : Field Schema :=
  ⟨name, .option shape, .default .absent, true⟩

end Schema
end LanguageClient
