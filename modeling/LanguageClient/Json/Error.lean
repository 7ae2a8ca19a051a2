import LanguageClient.Double.Shortest
import LanguageClient.Text.Numeral
import LanguageClient.Text.Quoted
import LanguageClient.Uri

/-! Why a JSON text cannot be read, or a value does not fit its schema. -/

set_option autoImplicit false
namespace LanguageClient.Json

inductive IntegerRange where
  | signed32
  | unsigned32
  | signed64
  deriving DecidableEq, Repr

def IntegerRange.name : IntegerRange → String
  | .signed32 => "i32"
  | .unsigned32 => "u32"
  | .signed64 => "i64"

def IntegerRange.contains : IntegerRange → Int → Bool
  | .signed32, n => -0x80000000 ≤ n && n < 0x80000000
  | .unsigned32, n => 0 ≤ n && n < 0x100000000
  | .signed64, n => -0x8000000000000000 ≤ n && n < 0x8000000000000000

inductive Found where
  | null
  | boolean (b : Bool)
  | integer (n : Int)
  | floating (d : Double)
  | string (s : String)
  | sequence
  | map
  deriving DecidableEq, Repr

def Found.describe : Found → String
  | .null => "null"
  | .boolean b => "boolean `" ++ toString b ++ "`"
  | .integer n => "integer `" ++ toString n ++ "`"
  | .floating d => "floating point `" ++ .ofList d.text ++ "`"
  | .string s => "string " ++ Text.quote s
  | .sequence => "sequence"
  | .map => "map"

inductive Expected where
  | unit
  | boolean
  | string
  | sequence
  | map
  | integer (range : IntegerRange)
  | record (name : String)
  | elements (name : String) (count : Nat)
  | fewerElements
  | sequenceOf (count : Nat)
  | variant
  | oneMember
  | variantName
  | taggedUnion (name : String)
  deriving DecidableEq, Repr

def countOf (count : Nat) (noun : String) : String :=
  toString count ++ " " ++ noun ++ if count = 1 then "" else "s"

def Expected.describe : Expected → String
  | .unit => "unit"
  | .boolean => "a boolean"
  | .string => "a string"
  | .sequence => "a sequence"
  | .map => "a map"
  | .integer range => range.name
  | .record name => "struct " ++ name
  | .elements name count => "struct " ++ name ++ " with " ++ countOf count "element"
  | .fewerElements => "fewer elements in array"
  | .sequenceOf count => countOf count "element" ++ " in sequence"
  | .variant => "string or map"
  | .oneMember => "map with a single key"
  | .variantName => "variant identifier"
  | .taggedUnion name => "internally tagged enum " ++ name

inductive Cause where
  /-- The text ends inside a value, a list, an object or a string. -/
  | endInValue
  | endInList
  | endInObject
  | endInString
  /-- The text departs from the grammar. -/
  | expectedValue
  | expectedIdent
  | invalidNumber
  | numberOutOfRange
  | keyMustBeString
  | expectedColon
  | expectedCommaOrBrace
  | expectedCommaOrBracket
  | trailingComma
  | trailingCharacters
  | invalidEscape
  | controlCharacter
  | loneSurrogate
  | unfinishedSurrogate
  | invalidCodePoint
  | tooDeep
  /-- The value does not fit. -/
  | invalidType (found : Found) (expected : Expected)
  | invalidValue (found : Found) (expected : Expected)
  | invalidLength (length : Nat) (expected : Expected)
  | missingField (name : String)
  | duplicateField (name : String)
  | unknownVariant (name : String) (known : List String)
  | noAlternative (union : String)
  | invalidUri (error : Uri.Error)
  /-- A value that refuses to be written gives a reason of its own. -/
  | unwritable (reason : String)
  deriving DecidableEq, Repr

inductive Category where
  | data
  | syntactic
  | truncated
  deriving DecidableEq, Repr

def Cause.category : Cause → Category
  | .endInValue | .endInList | .endInObject | .endInString => .truncated
  | .invalidType .. | .invalidValue .. | .invalidLength .. | .missingField _ | .duplicateField _
  | .unknownVariant .. | .noAlternative _ | .invalidUri _ | .unwritable _ => .data
  | _ => .syntactic

def ticked (name : String) : String := "`" ++ name ++ "`"

def oneOf : List String → String
  | [] => "there are no variants"
  | [a] => "expected " ++ ticked a
  | [a, b] => "expected " ++ ticked a ++ " or " ++ ticked b
  | names => "expected one of " ++ ", ".intercalate (names.map ticked)

def Cause.describe : Cause → String
  | .endInValue => "EOF while parsing a value"
  | .endInList => "EOF while parsing a list"
  | .endInObject => "EOF while parsing an object"
  | .endInString => "EOF while parsing a string"
  | .expectedValue => "expected value"
  | .expectedIdent => "expected ident"
  | .invalidNumber => "invalid number"
  | .numberOutOfRange => "number out of range"
  | .keyMustBeString => "key must be a string"
  | .expectedColon => "expected `:`"
  | .expectedCommaOrBrace => "expected `,` or `\x7d`"
  | .expectedCommaOrBracket => "expected `,` or `]`"
  | .trailingComma => "trailing comma"
  | .trailingCharacters => "trailing characters"
  | .invalidEscape => "invalid escape"
  | .controlCharacter => "control character (\\u0000-\\u001F) found while parsing a string"
  | .loneSurrogate => "lone leading surrogate in hex escape"
  | .unfinishedSurrogate => "unexpected end of hex escape"
  | .invalidCodePoint => "invalid unicode code point"
  | .tooDeep => "recursion limit exceeded"
  | .invalidType found expected =>
      "invalid type: " ++ found.describe ++ ", expected " ++ expected.describe
  | .invalidValue found expected =>
      "invalid value: " ++ found.describe ++ ", expected " ++ expected.describe
  | .invalidLength length expected =>
      "invalid length " ++ toString length ++ ", expected " ++ expected.describe
  | .missingField name => "missing field " ++ ticked name
  | .duplicateField name => "duplicate field " ++ ticked name
  | .unknownVariant name known => "unknown variant " ++ ticked name ++ ", " ++ oneOf known
  | .noAlternative union => "data did not match any variant of untagged enum " ++ union
  | .invalidUri error => error.message
  | .unwritable reason => reason

/-- A place in a text: lines from one, columns in octets from the start of the line. -/
structure Position where
  line : Nat
  column : Nat
  deriving DecidableEq, Repr

def Position.after (read : List UInt8) : Position :=
  read.foldl (fun p b => if b = 10 then ⟨p.line + 1, 0⟩ else ⟨p.line, p.column + 1⟩) ⟨1, 0⟩

structure Error where
  cause : Cause
  position : Option Position
  deriving DecidableEq, Repr

def Position.describe (p : Position) : String :=
  " at line " ++ toString p.line ++ " column " ++ toString p.column

/-- Lines count from one, so line zero is no place at all. -/
def Error.message (e : Error) : String :=
  e.cause.describe ++ match e.position with
    | none => ""
    | some p => if p.line = 0 then "" else p.describe

def numberAtEnd (text : List Char) : List Char × Option Nat :=
  let digits := (text.reverse.takeWhile Char.isDigit).reverse
  (text.take (text.length - digits.length), Text.unsigned64? digits)

def Position.atEnd? (text : String) : Option (String × Position) := do
  let (rest, column) := numberAtEnd text.toList
  let (rest, line) := numberAtEnd (← " column ".toList.isSuffixOf? rest)
  let before ← " at line ".toList.isSuffixOf? rest
  return (.ofList before, ⟨← line, ← column⟩)

/-- The error of a value that refuses to be written. A place at the end of its reason is
taken for the place of the error. -/
def Error.ofReason (reason : String) : Error :=
  match Position.atEnd? reason with
  | some (before, position) => ⟨.unwritable before, some position⟩
  | none => ⟨.unwritable reason, none⟩

end LanguageClient.Json
