import LanguageClient.Schema.Basic

/-! Writing data back as a JSON value by the schema it was read by. -/

set_option autoImplicit false
namespace LanguageClient

open Json (Value)

mutual
def Data.depth : Data → Nat
  | .list items => depthAll items + 1
  | .record fields => depthAll fields + 1
  | .entries members => depthEntries members + 1
  | .choice _ content => content.depth + 1
  | _ => 0

def depthAll : List Data → Nat
  | [] => 0
  | d :: rest => max d.depth (depthAll rest)

def depthEntries : List (String × Data) → Nat
  | [] => 0
  | (_, d) :: rest => max d.depth (depthEntries rest)
end

namespace Schema

/-- Encodes `n` levels of a shape that refers to itself. -/
def unrollEncoder (body : (Data → Value) → Data → Value) : Nat → Data → Value
  | 0 => fun _ => .null
  | n + 1 => body (unrollEncoder body n)

def membersOf : Value → List (String × Value)
  | .object members => members
  | _ => []

def Data.isAbsent : Data → Bool
  | .absent => true
  | _ => false

mutual
def encodeWith : Schema → (Data → Value) → Data → Value
  | .boolean, _, .boolean b => .boolean b
  | .text, _, .text s => .string s
  | .uri, _, .text s => .string s
  | .integer _, _, .integer n => .ofInt n
  | .value, _, .json v => v
  | .option _, _, .absent => .null
  | .option content, self, d => encodeWith content self d
  | .list item, self, .list items => .array (items.map (encodeWith item self))
  | .map _ item, self, .entries members =>
      .ofMembers (members.map fun (name, d) => (name, encodeWith item self d))
  | .record _ fields, self, .record ds => .ofMembers (encodeFields fields self ds)
  | .merged _ fields parts, self, .record ds =>
      .ofMembers (encodeFields fields self ds ++ encodeParts parts self (ds.drop fields.length))
  | .variant names, _, .choice index _ => .string (names.getD index "")
  | .tagged _ tag alternatives, self, .choice index d =>
      let (name, content) := encodeTagged alternatives self index d
      .ofMembers ((tag, .string name) :: membersOf content)
  | .untagged _ alternatives, self, .choice index d => encodeChoice alternatives self index d
  | .toggled _ _, _, .absent => .null
  | .toggled content _, self, d => encodeWith content self d
  | .recursive body, _, d => unrollEncoder (encodeWith body) (d.depth + 1) d
  | .recur, self, d => self d
  | _, _, _ => .null

def encodeFields : List (Field Schema) → (Data → Value) → List Data → List (String × Value)
  | ⟨name, shape, _, omitted⟩ :: rest, self, d :: ds =>
      let tail := encodeFields rest self ds
      if omitted && Data.isAbsent d then tail else (name, encodeWith shape self d) :: tail
  | _, _, _ => []

def encodeParts : List Schema → (Data → Value) → List Data → List (String × Value)
  | part :: rest, self, d :: ds => membersOf (encodeWith part self d) ++ encodeParts rest self ds
  | _, _, _ => []

def encodeTagged : List (String × Schema) → (Data → Value) → Nat → Data → String × Value
  | [], _, _, _ => ("", .null)
  | (name, shape) :: _, self, 0, d => (name, encodeWith shape self d)
  | _ :: rest, self, index + 1, d => encodeTagged rest self index d

def encodeChoice : List Schema → (Data → Value) → Nat → Data → Value
  | [], _, _, _ => .null
  | shape :: _, self, 0, d => encodeWith shape self d
  | _ :: rest, self, index + 1, d => encodeChoice rest self index d
end

def encode (schema : Schema) (d : Data) : Value := schema.encodeWith (fun _ => .null) d

end Schema
end LanguageClient
