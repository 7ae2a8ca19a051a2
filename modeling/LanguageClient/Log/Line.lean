import LanguageClient.Config.Basic
import LanguageClient.Log
import LanguageClient.Text.Quoted

/-! The line of a log record, without the time in front of it. -/

set_option autoImplicit false
namespace LanguageClient.Log

def Field.plain : Field → String
  | text s => s
  | integer n => toString n
  | shown s => s

def Field.show : Field → String
  | text s => Text.quote s
  | field => field.plain

def Field.toValue : Field → Json.Value
  | text s => .string s
  | integer n => .ofInt n
  | shown s => .string s

def writeChar (c : Char) : List Char :=
  if ['\x07', '\x08', '\x0c', '\x1b', '\x7f'].contains c then
    '\\' :: 'x' :: [Nat.digitChar (c.toNat / 16), Nat.digitChar (c.toNat % 16)]
  else if 0x80 ≤ c.toNat ∧ c.toNat < 0xA0 then
    ['\\', 'u', '\x7b'] ++ Text.hexNumeral c.toNat ++ ['\x7d']
  else [c]

def writeMessage (text : String) : String := .ofList (text.toList.flatMap writeChar)

/-- A field behind its name; one that is called a message is written like the message. -/
def compactField : String × Field → String
  | ("message", field) => writeMessage field.plain
  | (name, field) => name ++ "=" ++ field.show

def Record.compact (r : Record) : String :=
  "".pushn ' ' (5 - r.level.name.length) ++ r.level.name ++ " " ++ r.target.name ++ ": "
    ++ writeMessage r.message ++ String.join (r.fields.map fun field => " " ++ compactField field)

/-- The members of a record as an object; its fields stand among them. -/
def Record.members (r : Record) : List (String × Json.Value) :=
  [("level", .string r.level.name), ("message", .string r.message)]
    ++ r.fields.map (fun (name, field) => (name, field.toValue))
    ++ [("target", .string r.target.name)]

def Record.json (r : Record) : String :=
  .ofList (Json.writeRecord (r.members.map fun (name, value) => (name, value.write)))

def Record.line (r : Record) : LogFormat → String
  | .json => r.json
  | .compact => r.compact

end LanguageClient.Log
