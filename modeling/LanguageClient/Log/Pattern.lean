import LanguageClient.Text.Blank
import LanguageClient.Text.Letter
import LanguageClient.Text.Numeral

/-! Patterns for the values of fields: regular expressions over Unicode text.

Patterns are only checked. What needs tables of Unicode properties (classes of letters, digits
or blanks, and letters without their case) is refused, and so is what could match less than
a whole character. A check reads from the left, with a level for every group around it.
-/

set_option autoImplicit false
namespace LanguageClient.Log.Pattern

inductive Fault where
  | malformed
  /-- A boundary between words that goes by Unicode. -/
  | wordBoundary
  deriving DecidableEq, Repr

def Fault.message : Fault → String
  | malformed => "error building NFA"
  | wordBoundary =>
      "unsupported regex feature for DFAs: cannot build DFAs for regexes with Unicode word "
        ++ "boundaries; switch to ASCII word boundaries, or heuristically enable Unicode word "
        ++ "boundaries or use a different regex engine"

/-! ## Flags -/

structure Flags where
  ignoreCase : Bool := false
  unicode : Bool := true
  /-- Whether blanks and comments stand for nothing. -/
  spaced : Bool := false
  deriving DecidableEq, Repr

namespace Flags

def set (flags : Flags) (on : Bool) (letter : Char) : Flags :=
  if letter = 'i' then { flags with ignoreCase := on }
  else if letter = 'u' then { flags with unicode := on }
  else if letter = 'x' then { flags with spaced := on }
  else flags

/-- Sets the letters up to a dash, and clears those behind it. No sign may come twice, and
something must follow the dash. -/
def read? (flags : Flags) (signs : List Char) : Option Flags :=
  let on := signs.takeWhile (· != '-')
  let off := signs.drop (on.length + 1)
  if signs.Nodup ∧ signs.getLast? ≠ some '-' ∧ signs.all "imsUuRx-".toList.contains then
    some (off.foldl (·.set false) (on.foldl (·.set true) flags))
  else none

def skipSpace (comment : Bool) : List Char → List Char
  | [] => []
  | c :: rest =>
      if comment then skipSpace (c != '\n') rest
      else if Text.isBlank c then skipSpace false rest
      else if c = '#' then skipSpace true rest
      else c :: rest

def skip (flags : Flags) (chars : List Char) : List Char :=
  if flags.spaced then skipSpace false chars else chars

/-- What seems to come after blanks. Of a comment it is the first character that is not blank. -/
def peek (flags : Flags) (chars : List Char) : Option Char :=
  if flags.spaced then
    match chars.dropWhile Text.isBlank with
    | '#' :: rest => (rest.dropWhile Text.isBlank).head?
    | rest => rest.head?
  else chars.head?

end Flags

/-! ## Characters and escapes -/

inductive Item where
  /-- A character; it may be written as an octet. -/
  | literal (c : Char) (octet : Bool)
  /-- A class of characters by a letter, or what is outside it. -/
  | letters (negated : Bool)
  | edge
  | wordEdge
  deriving DecidableEq, Repr

def readHex (flags : Flags) (read : List Char) : Nat → List Char → Option (Char × List Char)
  | 0, chars => (Text.charOfHex? read.reverse).map (·, flags.skip chars)
  | count + 1, chars =>
      match flags.skip chars with
      | [] => none
      | c :: rest => readHex flags (c :: read) count rest

def control? (c : Char) : Option Char :=
  [('a', '\x07'), ('f', '\x0c'), ('t', '\t'), ('n', '\n'), ('r', '\r'), ('v', '\x0b')].lookup c

/-- An escape behind its backslash. Marks stand for themselves. -/
def readEscape (flags : Flags) : List Char → Option (Item × List Char)
  | [] => none
  | c :: rest =>
      if c = 'x' then (readHex flags [] 2 rest).map fun (d, rest) => (.literal d true, rest)
      else if c = 'u' then (readHex flags [] 4 rest).map fun (d, rest) => (.literal d false, rest)
      else if c = 'U' then (readHex flags [] 8 rest).map fun (d, rest) => (.literal d false, rest)
      else if "dsw".toList.contains c then some (.letters false, rest)
      else if "DSW".toList.contains c then some (.letters true, rest)
      else if "bB<>".toList.contains c then some (.wordEdge, rest)
      else if "Az".toList.contains c then some (.edge, rest)
      else match control? c with
        | some d => some (.literal d false, rest)
        | none => if c.toNat < 0x80 ∧ !c.isAlphanum then some (.literal c false, rest) else none

def Flags.admits (flags : Flags) (c : Char) (octet : Bool) : Bool :=
  if flags.unicode then !flags.ignoreCase else !octet || c.toNat < 0x80

def Flags.admitsInClass (flags : Flags) (c : Char) : Bool :=
  if flags.unicode then !flags.ignoreCase else c.toNat < 0x80

def Flags.admitsLetters (flags : Flags) (negated : Bool) : Bool := !flags.unicode && !negated

/-! ## Classes in brackets -/

/-- How deep the parts of a sequence go; a sequence of several is one more around them. -/
def joined : List Nat → Nat
  | [] => 0
  | [depth] => depth
  | depths => depths.foldl max 0 + 1

/-- An open bracket: how deep its items go, and what stands before the last operator. -/
structure Bracket where
  items : List Nat := []
  left : Option Nat := none
  /-- Whether nothing but dashes has come yet. -/
  fresh : Bool := true
  deriving DecidableEq, Repr

namespace Bracket

def depth (b : Bracket) : Nat :=
  match b.left with
  | none => joined b.items
  | some left => max left (joined b.items) + 1

def push (b : Bracket) (depth : Nat) : Bracket := { b with items := depth :: b.items, fresh := false }

def operate (b : Bracket) : Bracket := ⟨[], some b.depth, false⟩

end Bracket

def asciiClasses : List String :=
  ["alnum", "alpha", "ascii", "blank", "cntrl", "digit", "graph", "lower", "print", "punct",
    "space", "upper", "word", "xdigit"]

def readNamed (chars : List Char) : Option (Bool × List Char) := do
  let ':' :: rest := chars | none
  let (negated, rest) := match rest with
    | '^' :: rest => (true, rest)
    | rest => (false, rest)
  let name := rest.takeWhile (· != ':')
  let ':' :: ']' :: rest := rest.drop name.length | none
  if asciiClasses.contains (.ofList name) then some (negated, rest) else none

def openBracket (flags : Flags) (chars : List Char) : Option (List Char) :=
  match flags.skip chars with
  | '^' :: rest => if flags.unicode then some rest else none
  | rest => some rest

def readItem (flags : Flags) : List Char → Option (Item × List Char)
  | [] => none
  | '\\' :: rest => readEscape flags rest
  | c :: rest => some (.literal c false, rest)

/-- An item of a bracket, or a range of characters. A dash makes a range unless the
bracket, or another dash, seems to come next. -/
def readRange (flags : Flags) (chars : List Char) : Option (List Char) := do
  let (first, rest) ← readItem flags chars
  let single : Bool := match first with
    | .literal c _ => flags.admitsInClass c
    | .letters negated => flags.admitsLetters negated
    | .edge | .wordEdge => false
  if !single then none
  match flags.skip rest with
  | [] => none
  | '-' :: more =>
      if [some ']', some '-'].contains (flags.peek more) then return '-' :: more
      else
        let (second, rest) ← readItem flags (flags.skip more)
        match first, second with
        | .literal a _, .literal b _ => if a ≤ b ∧ flags.admitsInClass b then return rest else none
        | _, _ => none
  | rest => return rest

def readClass (flags : Flags) :
    Nat → Bracket → List Bracket → List Char → Option (Nat × List Char)
  | 0, _, _, _ => none
  | fuel + 1, inner, outer, chars =>
      match flags.skip chars with
      | '[' :: rest =>
          match readNamed rest with
          | some (negated, rest) =>
              if if flags.unicode then flags.ignoreCase else negated then none
              else readClass flags fuel (inner.push 0) outer rest
          | none => do readClass flags fuel {} (inner :: outer) (← openBracket flags rest)
      | ']' :: rest =>
          if inner.fresh ∧ inner.items.isEmpty then
            if flags.admitsInClass ']' then readClass flags fuel (inner.push 0) outer rest else none
          else match outer with
            | [] => some (inner.depth + 1, rest)
            | next :: outer => readClass flags fuel (next.push (inner.depth + 1)) outer rest
      | '&' :: '&' :: rest => readClass flags fuel inner.operate outer rest
      | '~' :: '~' :: rest => readClass flags fuel inner.operate outer rest
      | '-' :: rest =>
          if inner.fresh then
            if flags.admitsInClass '-' then
              readClass flags fuel { inner with items := 0 :: inner.items } outer rest
            else none
          else match rest with
            | '-' :: rest => readClass flags fuel inner.operate outer rest
            | _ => do readClass flags fuel (inner.push 0) outer (← readRange flags ('-' :: rest))
      | rest => do readClass flags fuel (inner.push 0) outer (← readRange flags rest)

/-! ## Groups -/

structure Term where
  repeatable : Bool
  depth : Nat
  deriving DecidableEq, Repr

/-- The inside of a group: the terms since the last bar, the last first, and how deep the
alternatives before it go. -/
structure Level where
  flags : Flags := {}
  terms : List Term := []
  alternatives : List Nat := []
  deriving DecidableEq, Repr

namespace Level

def alternative (level : Level) : Nat := joined (level.terms.map (·.depth))

def depth (level : Level) : Nat := joined (level.alternative :: level.alternatives)

def push (level : Level) (term : Term) : Level := { level with terms := term :: level.terms }

def bar (level : Level) : Level :=
  { level with terms := [], alternatives := level.alternative :: level.alternatives }

def repeat? (level : Level) : Option Level :=
  match level.terms with
  | ⟨true, depth⟩ :: before => some { level with terms := ⟨true, depth + 1⟩ :: before }
  | _ => none

end Level

structure Reading where
  inner : Level := {}
  outer : List Level := []
  /-- The names of groups so far. -/
  names : List String := []
  /-- Whether a word boundary has come that goes by Unicode. -/
  boundary : Bool := false
  deriving DecidableEq, Repr

namespace Reading

def push (r : Reading) (term : Term) : Reading := { r with inner := r.inner.push term }

def descend (r : Reading) (flags : Flags) : Reading :=
  { r with inner := { flags }, outer := r.inner :: r.outer }

/-- The innermost group closes; the flags inside it end with it. -/
def ascend? (r : Reading) : Option Reading :=
  match r.outer with
  | [] => none
  | level :: outer => some { r with inner := level.push ⟨true, r.inner.depth + 1⟩, outer }

end Reading

def isNameChar (first : Bool) (c : Char) : Bool :=
  c == '_' || if first then Text.isAlphabetic c else ".[]".toList.contains c || Text.isAlphanumeric c

def readGroupName (r : Reading) (chars : List Char) : Option (Reading × List Char) := do
  let name := chars.takeWhile (· != '>')
  let '>' :: rest := chars.drop name.length | none
  let first :: more := name | none
  if isNameChar true first ∧ more.all (isNameChar false) ∧ !r.names.contains (.ofList name) then
    return ({ r with names := .ofList name :: r.names }.descend r.inner.flags, rest)
  else none

def readFlags (r : Reading) (chars : List Char) : Option (Reading × List Char) := do
  let signs := chars.takeWhile fun c => c != ':' && c != ')'
  let flags ← r.inner.flags.read? signs
  match chars.drop signs.length with
  | ':' :: rest => return (r.descend flags, rest)
  | ')' :: rest =>
      if signs.isEmpty then none
      else return ({ r with inner := { r.inner.push ⟨false, 0⟩ with flags } }, rest)
  | _ => none

/-- A group behind its parenthesis. There is no looking ahead or back. -/
def readGroup (r : Reading) (chars : List Char) : Option (Reading × List Char) :=
  match r.inner.flags.skip chars with
  | '?' :: 'P' :: '<' :: rest => readGroupName r rest
  | '?' :: '<' :: rest => readGroupName r rest
  | '?' :: rest => readFlags r rest
  | rest => some (r.descend r.inner.flags, rest)

def Reading.take? (r : Reading) : Item → Option Reading
  | .literal c octet => if r.inner.flags.admits c octet then some (r.push ⟨true, 0⟩) else none
  | .letters negated => if r.inner.flags.admitsLetters negated then some (r.push ⟨true, 0⟩) else none
  | .edge => some (r.push ⟨true, 0⟩)
  | .wordEdge => some { r.push ⟨true, 0⟩ with boundary := r.boundary || r.inner.flags.unicode }

def readTerm (r : Reading) (c : Char) (rest : List Char) : Option (Reading × List Char) :=
  let flags := r.inner.flags
  if c = '(' then readGroup r rest
  else if c = ')' then r.ascend?.map (·, rest)
  else if c = '|' then some ({ r with inner := r.inner.bar }, rest)
  else if c = '[' then do
    let (depth, rest) ← readClass flags (rest.length + 1) {} [] (← openBracket flags rest)
    return (r.push ⟨true, depth⟩, rest)
  else if c = '?' ∨ c = '*' ∨ c = '+' then do
    let inner ← r.inner.repeat?
    return ({ r with inner }, if rest.head? = some '?' then rest.drop 1 else rest)
  else if c = '\x7b' then none
  else if c = '\\' then do
    let (item, rest) ← readEscape flags rest
    return (← r.take? item, rest)
  else if c = '.' then if flags.unicode then some (r.push ⟨true, 0⟩, rest) else none
  else if c = '^' ∨ c = '$' then some (r.push ⟨true, 0⟩, rest)
  else (r.take? (.literal c false)).map (·, rest)

def readAll (r : Reading) : Nat → List Char → Option Reading
  | 0, _ => none
  | fuel + 1, chars =>
      match r.inner.flags.skip chars with
      | [] => if r.outer.isEmpty then some r else none
      | c :: rest => do
          let (r, rest) ← readTerm r c rest
          readAll r fuel rest

/-- The most groups, classes, repetitions and sequences around one another. -/
def depthLimit : Nat := 250

def fault? (pattern : String) : Option Fault :=
  let chars := pattern.toList
  match readAll {} (chars.length + 1) chars with
  | none => some .malformed
  | some r =>
      if depthLimit < r.inner.depth then some .malformed
      else if r.boundary then some .wordBoundary
      else none

end LanguageClient.Log.Pattern
