import LanguageClient.Config.Layer
import LanguageClient.Text.Numeral
import LanguageClient.Text.Split
import LanguageClient.Toml.Text

/-! Settings from environment variables.

A variable holds a text, but one that looks like a list, a flag, a number or a table is
taken for it. A text that cannot be read as any of them stands for itself.
-/

set_option autoImplicit false
namespace LanguageClient.Config

open Json (Value)

def isSpace (c : Char) : Bool :=
  c == ' ' || c == '\t' || c == '\n' || c == '\r' || c == '\x0c'

def skipSpace (chars : List Char) : List Char := chars.dropWhile isSpace

def whole? (word : List Char) : Option Int :=
  match word with
  | '-' :: digits =>
      ((Text.digits? digits).filter (· ≤ 0x8000000000000000)).map fun n => -(n : Int)
  | _ => (Text.unsigned64? word).map Int.ofNat

/-- A word without quotes: a number with a point, an integer, or a text. -/
def ofBareWord (word : List Char) : Value :=
  match (Text.decimal? word).filter fun _ => word.contains '.' with
  | some decimal => .ofDouble (.ofDecimal decimal)
  | none => match whole? word with
    | some n => .ofInt n
    | none => .string (.ofList word)

def isSeparator (c : Char) : Bool :=
  c == ',' || c == '[' || c == ']' || c == '\x7b' || c == '\x7d'

def readCharacter : List Char → Option (String × List Char)
  | c :: '\x27' :: rest => some (c.toString, rest)
  | _ => none

def fitting (octets : Nat) : List Char → List Char
  | [] => []
  | c :: rest =>
      let width := (Text.Utf8.encodeChar c).length
      if width ≤ octets then c :: fitting (octets - width) rest else []

/-- A text in double quotes, behind the first one. What stands before its first escape only
counts as far as it fits into as many octets as it has characters. -/
def readQuoted (chars : List Char) : Option (String × List Char) := do
  let (text, rest) ← Toml.readBasic .v10 [] chars
  let plain := chars.takeWhile fun c => c != '"' && c != '\\'
  match chars.drop plain.length with
  | '\\' :: _ =>
      return (.ofList (fitting plain.length plain ++ text.toList.drop plain.length), rest)
  | _ => return (text, rest)

def readName (chars : List Char) : Option (String × List Char) :=
  match chars with
  | '"' :: rest => readQuoted rest
  | _ =>
      let name := chars.takeWhile Toml.isBare
      if name.isEmpty then none else some (.ofList name, chars.drop name.length)

/-- Items behind an opening bracket, with commas between them; one may stand at the end. -/
def readItems {α : Type} (item : List Char → Option (α × List Char)) (stop : Char)
    (read : List α) : Nat → List Char → Option (List α × List Char)
  | 0, _ => none
  | fuel + 1, chars =>
      match chars with
      | [] => none
      | c :: rest =>
          if c = stop then some (read.reverse, rest)
          else do
            let (value, rest) ← item chars
            match rest with
            | ',' :: rest => readItems item stop (value :: read) fuel rest
            | c :: rest => if c = stop then return ((value :: read).reverse, rest) else none
            | [] => none

/-- A value with the space around it; lists and tables have `room` to nest. -/
def readSetting : Nat → List Char → Option (Value × List Char)
  | room, chars => do
      let chars := skipSpace chars
      let (value, rest) ←
        if "true".toList.isPrefixOf chars then some (.boolean true, chars.drop 4)
        else if "false".toList.isPrefixOf chars then some (.boolean false, chars.drop 5)
        else match chars, room with
          -- Each round takes a character at least, so the fuel lasts to the end of the text.
          | '\x7b' :: rest, room + 1 =>
              (readItems (fun chars => do
                let (name, rest) ← readName (skipSpace chars)
                let '=' :: rest := skipSpace rest | none
                let (value, rest) ← readSetting room rest
                return ((name, value), rest)) '\x7d' [] (rest.length + 1) rest).map
                fun (entries, rest) => (.ofMembers entries, rest)
          | '[' :: rest, room + 1 =>
              (readItems (readSetting room) ']' [] (rest.length + 1) rest).map fun (items, rest) =>
                (.array items, rest)
          | '\x7b' :: _, 0 => none
          | '[' :: _, 0 => none
          | '"' :: rest, _ => (readQuoted rest).map fun (s, rest) => (.string s, rest)
          | '\x27' :: rest, _ => (readCharacter rest).map fun (s, rest) => (.string s, rest)
          | _, _ =>
              let word := chars.takeWhile fun c => !isSeparator c
              some (ofBareWord (Text.trimChars word), chars.drop word.length)
      return (value, skipSpace rest)

/-- Whether a text is a plain list: it has a comma, and nothing says that it is something else. -/
def isPlainList (text : List Char) : Bool :=
  text.contains ',' && match text with
    | '[' :: _ | '\x7b' :: _ | '"' :: _ | '\x27' :: _ => false
    | _ => true

/-- The value of a variable. Blanks around it, and around the items of a plain list, do
not count. -/
def ofVariable (value : String) : Value :=
  let text := Text.trim value
  let chars := text.toList
  if isPlainList chars then
    .array ((Text.splitOn ',' text).map fun item => .string (Text.trim item))
  else if Text.lowerAscii text = "true" then .boolean true
  else if Text.lowerAscii text = "false" then .boolean false
  else match readSetting chars.length chars with
    | some (value, []) => value
    | _ => .string text

/-- What the name of a variable leads to: it has a given beginning, in any case, and then
names with two underscores or a point between them. -/
def pathOf? (name : String) : Option (List String) :=
  let name := Text.lowerAscii (Text.trim name)
  if "courier_".toList.isPrefixOf name.toList then
    let rest := Text.trim (.ofList (name.toList.drop 8))
    let path := (Text.splitPairs '_' [] rest.toList).flatMap fun part => Text.splitOn '.' (.ofList part)
    if path.any String.isEmpty then none else some path
  else none

def entryOf? (definition : String × String) : Option (String × Value) := do
  let key :: inner ← pathOf? definition.1 | none
  return (key, inner.foldr (fun name value => .object [(name, value)]) (ofVariable definition.2))

/-- What the variables say; of two for one entry the later counts. -/
def Layer.ofVariables (environment : List (String × String)) : Layer :=
  .ofEntries (environment.filterMap entryOf?).reverse

end LanguageClient.Config
