import LanguageClient.Toml.Scalar
import LanguageClient.Toml.Text

/-! TOML documents: lines that each set a key or open a table. -/

set_option autoImplicit false
namespace LanguageClient.Toml

def readItems (item : List Char → Option (Value × List Char)) (read : List Value) :
    Nat → List Char → Option (Value × List Char)
  | 0, _ => none
  | fuel + 1, chars => do
      match ← skipFiller false chars with
      | ']' :: rest => return (.array read.reverse, rest)
      | rest =>
          let (value, rest) ← item rest
          match ← skipFiller false rest with
          | ',' :: rest => readItems item (value :: read) fuel rest
          | ']' :: rest => return (.array (value :: read).reverse, rest)
          | _ => none

def Edition.skipInBraces (edition : Edition) (chars : List Char) : Option (List Char) :=
  if edition.openBraces then skipFiller false chars else some (skipBlanks chars)

def readEntries (edition : Edition) (item : List Char → Option (Value × List Char))
    (table : Table) : Nat → List Char → Option (Value × List Char)
  | 0, _ => none
  | fuel + 1, chars => do
      let (key, rest) ← readKey edition chars
      let '=' :: rest ← edition.skipInBraces rest | none
      let (value, rest) ← item (← edition.skipInBraces rest)
      let table ← table.put value key
      match ← edition.skipInBraces rest with
      | ',' :: rest =>
          match ← edition.skipInBraces rest with
          | '\x7d' :: rest => if edition.openBraces then return (.table .braces table, rest) else none
          | rest => readEntries edition item table fuel rest
      | '\x7d' :: rest => return (.table .braces table, rest)
      | _ => none

/-- A value; arrays and tables have `room` to nest. -/
def readValue (edition : Edition) : Nat → List Char → Option (Value × List Char)
  | room, chars =>
      match chars with
      | '"' :: _ => (readText edition chars).map fun (s, rest) => (.string s, rest)
      | '\x27' :: _ => (readText edition chars).map fun (s, rest) => (.string s, rest)
      | '[' :: rest =>
          match room with
          | 0 => none
          | room + 1 => readItems (readValue edition room) [] (rest.length + 1) rest
      | '\x7b' :: rest =>
          match room with
          | 0 => none
          | room + 1 => do
              match ← edition.skipInBraces rest with
              | '\x7d' :: rest => return (.table .braces [], rest)
              | rest => readEntries edition (readValue edition room) [] (rest.length + 1) rest
      | _ => readScalar edition chars

/-- A document being read: its entries, and the header that the next entries stand below. -/
structure Draft where
  root : Table := []
  header : List String := []

/-- A header takes effect at once, at the last of its names. -/
def Draft.enter (draft : Draft) (key : List String) (change : String → Table → Option Table) :
    Option Draft := do
  let name ← key.getLast?
  return ⟨← draft.root.alter (change name) key.dropLast, key⟩

def readLine (edition : Edition) (draft : Draft) (chars : List Char) : Option (Draft × List Char) :=
  match chars with
  | '[' :: '[' :: rest => do
      let (key, rest) ← readKey edition rest
      let ']' :: ']' :: rest := rest | none
      return (← draft.enter key Table.openElement, rest)
  | '[' :: rest => do
      let (key, rest) ← readKey edition rest
      let ']' :: rest := rest | none
      return (← draft.enter key Table.openHeader, rest)
  | _ => do
      let (key, rest) ← readKey edition chars
      let '=' :: rest := rest | none
      let (value, rest) ← readValue edition edition.nesting (skipBlanks rest)
      return (⟨← draft.root.alter (Table.put value key) draft.header, draft.header⟩, rest)

def readLines (edition : Edition) (draft : Draft) : Nat → List Char → Option Draft
  | 0, _ => none
  | fuel + 1, chars => do
      match ← skipFiller false chars with
      | [] => return draft
      | chars =>
          let (draft, rest) ← readLine edition draft chars
          readLines edition draft fuel (← readLineEnd false rest)

/-- The entries of a document. A mark of the byte order in front of it is no part of it. -/
def read (edition : Edition) (text : String) : Option Table :=
  let chars := match text.toList with
    | '\ufeff' :: rest => rest
    | chars => chars
  (readLines edition {} (chars.length + 1) chars).map Draft.root

end LanguageClient.Toml
