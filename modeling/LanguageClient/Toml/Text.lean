import LanguageClient.Text.Numeral
import LanguageClient.Toml.Edition

/-! Texts and keys of a TOML document.

A reader takes what it reads off the front of some characters and gives the rest;
on malformed input it gives nothing.
-/

set_option autoImplicit false
namespace LanguageClient.Toml

def isPrintable (c : Char) : Bool :=
  c == '\t' || (0x20 ≤ c.toNat && c.toNat != 0x7F)

def isBlank (c : Char) : Bool := c == ' ' || c == '\t'

def skipBlanks (chars : List Char) : List Char := chars.dropWhile isBlank

def Edition.escape? (edition : Edition) (c : Char) : Option Char :=
  if edition.shortEscapes ∧ c = 'e' then some '\x1b'
  else [('b', '\x08'), ('t', '\t'), ('n', '\n'), ('f', '\x0c'), ('r', '\r'), ('"', '"'),
    ('\\', '\\')].lookup c

def Edition.shortHex? (edition : Edition) (a b : Char) : Option Char :=
  if edition.shortEscapes then Text.charOfHex? [a, b] else none

/-- A text in double quotes, behind the first one; `read` holds its characters so far,
the last first. -/
def readBasic (edition : Edition) (read : List Char) : List Char → Option (String × List Char)
  | [] => none
  | '"' :: rest => some (.ofList read.reverse, rest)
  | '\\' :: 'u' :: a :: b :: c :: d :: rest =>
      match Text.charOfHex? [a, b, c, d] with
      | some char => readBasic edition (char :: read) rest
      | none => none
  | '\\' :: 'U' :: a :: b :: c :: d :: e :: f :: g :: h :: rest =>
      match Text.charOfHex? [a, b, c, d, e, f, g, h] with
      | some char => readBasic edition (char :: read) rest
      | none => none
  | '\\' :: 'x' :: a :: b :: rest =>
      match edition.shortHex? a b with
      | some char => readBasic edition (char :: read) rest
      | none => none
  | '\\' :: c :: rest =>
      match edition.escape? c with
      | some char => readBasic edition (char :: read) rest
      | none => none
  | c :: rest => if isPrintable c then readBasic edition (c :: read) rest else none

def readLiteral (chars : List Char) : Option (String × List Char) :=
  let body := chars.takeWhile (· != '\x27')
  match chars.drop body.length with
  | [] => none
  | _ :: rest => if body.all isPrintable then some (.ofList body, rest) else none

inductive Gap where
  | closed
  /-- Only blanks may come before the end of the line. -/
  | line
  /-- Blanks and line ends are left out. -/
  | margin
  deriving DecidableEq

def Gap.close? : Gap → Option Unit
  | .line => none
  | _ => some ()

/-- Behind the three quotes that may end a text: up to two more are the end of its content. -/
def endBlock (quote : Char) (read rest : List Char) : String × List Char :=
  let more := ((rest.take 2).takeWhile (· == quote)).length
  (.ofList (read.reverse ++ List.replicate more quote), rest.drop more)

def readBlock (edition : Edition) (gap : Gap) (read : List Char) :
    List Char → Option (String × List Char)
  | [] => none
  | '\r' :: '\n' :: rest =>
      if gap = .closed then readBlock edition .closed ('\n' :: read) rest else readBlock edition .margin read rest
  | '\n' :: rest =>
      if gap = .closed then readBlock edition .closed ('\n' :: read) rest else readBlock edition .margin read rest
  | '"' :: '"' :: '"' :: rest => do
      gap.close?
      return endBlock '"' read rest
  | '\\' :: 'u' :: a :: b :: c :: d :: rest => do
      gap.close?
      readBlock edition .closed ((← Text.charOfHex? [a, b, c, d]) :: read) rest
  | '\\' :: 'U' :: a :: b :: c :: d :: e :: f :: g :: h :: rest => do
      gap.close?
      readBlock edition .closed ((← Text.charOfHex? [a, b, c, d, e, f, g, h]) :: read) rest
  | '\\' :: 'x' :: a :: b :: rest => do
      gap.close?
      readBlock edition .closed ((← edition.shortHex? a b) :: read) rest
  | '\\' :: c :: rest => do
      gap.close?
      match edition.escape? c with
      | some char => readBlock edition .closed (char :: read) rest
      | none =>
          if isBlank c || c == '\n' || c == '\r' then readBlock edition .line read (c :: rest) else none
  | c :: rest =>
      if gap ≠ .closed ∧ isBlank c then readBlock edition gap read rest
      else do
        gap.close?
        if isPrintable c then readBlock edition .closed (c :: read) rest else none

def readRawBlock (read : List Char) : List Char → Option (String × List Char)
  | [] => none
  | '\x27' :: '\x27' :: '\x27' :: rest => some (endBlock '\x27' read rest)
  | '\r' :: '\n' :: rest => readRawBlock ('\n' :: read) rest
  | '\n' :: rest => readRawBlock ('\n' :: read) rest
  | c :: rest => if isPrintable c then readRawBlock (c :: read) rest else none

/-- The end of a line right behind the quotes of a text of several lines is not part of it. -/
def dropLineEnd : List Char → List Char
  | '\n' :: rest => rest
  | '\r' :: '\n' :: rest => rest
  | chars => chars

def readText (edition : Edition) : List Char → Option (String × List Char)
  | '"' :: '"' :: '"' :: rest => readBlock edition .closed [] (dropLineEnd rest)
  | '"' :: rest => readBasic edition [] rest
  | '\x27' :: '\x27' :: '\x27' :: rest => readRawBlock [] (dropLineEnd rest)
  | '\x27' :: rest => readLiteral rest
  | _ => none

def isBare (c : Char) : Bool := c.isAlphanum || c == '-' || c == '_'

def readName (edition : Edition) (chars : List Char) : Option (String × List Char) :=
  match chars with
  | '"' :: rest => readBasic edition [] rest
  | '\x27' :: rest => readLiteral rest
  | _ =>
      let name := chars.takeWhile isBare
      if name.isEmpty then none else some (.ofList name, chars.drop name.length)

/-- Names between dots, with blanks around them; at most `room` names. -/
def readNames (edition : Edition) : Nat → List Char → Option (List String × List Char)
  | 0, _ => none
  | room + 1, chars => do
      let (name, rest) ← readName edition (skipBlanks chars)
      match skipBlanks rest with
      | '.' :: rest =>
          let (names, rest) ← readNames edition room rest
          return (name :: names, rest)
      | rest => return ([name], rest)

def readKey (edition : Edition) (chars : List Char) : Option (List String × List Char) :=
  readNames edition edition.names chars

def skipFiller (comment : Bool) : List Char → Option (List Char)
  | [] => some []
  | '\n' :: rest => skipFiller false rest
  | '\r' :: '\n' :: rest => skipFiller false rest
  | c :: rest =>
      if comment then if isPrintable c then skipFiller true rest else none
      else if isBlank c then skipFiller false rest
      else if c = '#' then skipFiller true rest
      else some (c :: rest)

/-- The end of a line: blanks, a comment perhaps, and a line end unless the document ends. -/
def readLineEnd (comment : Bool) : List Char → Option (List Char)
  | [] => some []
  | '\n' :: rest => some rest
  | '\r' :: '\n' :: rest => some rest
  | c :: rest =>
      if comment then if isPrintable c then readLineEnd true rest else none
      else if isBlank c then readLineEnd false rest
      else if c = '#' then readLineEnd true rest
      else none

end LanguageClient.Toml
