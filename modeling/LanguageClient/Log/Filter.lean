import LanguageClient.Log
import LanguageClient.Log.Pattern
import LanguageClient.Text.Split
import LanguageClient.Text.Utf8

/-! Filters: which events are let through, the log records of the client among them.

A filter is written as directives between commas, each a bare level, a target with or
without a level, or a target with a selector in brackets. Of the rules that apply to an
event the most specific one decides.
-/

set_option autoImplicit false
namespace LanguageClient.Log

def Level.urgency : Level → Nat
  | .trace => 0
  | .debug => 1
  | .info => 2
  | .warn => 3
  | .error => 4

inductive Threshold where
  | off
  | least (level : Level)
  deriving DecidableEq, Repr

namespace Threshold

def all : List Threshold :=
  [off, least .error, least .warn, least .info, least .debug, least .trace]

def name : Threshold → String
  | off => "off"
  | least level => Text.lowerAscii level.name

def admits : Threshold → Level → Bool
  | off, _ => false
  | least bound, level => bound.urgency ≤ level.urgency

def ofText? (text : String) : Option Threshold :=
  match Text.unsigned64? text.toList with
  | some n => all[n]?
  | none => all.find? (·.name == Text.lowerAscii text)

end Threshold

inductive FilterFault where
  | malformed
  | unknownLevel
  | badValue (fault : Pattern.Fault)
  deriving DecidableEq, Repr

def FilterFault.message : FilterFault → String
  | malformed => "invalid filter directive"
  | unknownLevel =>
      "error parsing level filter: expected one of \"off\", \"error\", \"warn\", \"info\", "
        ++ "\"debug\", \"trace\", or a number 0-5"
  | badValue fault => "invalid field filter: " ++ fault.message

structure Directive where
  target : Option String := none
  span : Option String := none
  field : Option (String × Option String) := none
  threshold : Threshold := .least .trace
  deriving DecidableEq, Repr

namespace Directive

/-- The text as it is written from a position of the text without its outer blanks on. The
position is counted in octets, so blanks in front shift it. -/
def after (text inner : List Char) (start : Nat) : List UInt8 :=
  (text.flatMap Text.Utf8.encodeChar).drop (Text.Utf8.width (inner.take start))

def cut (text inner : List Char) (start stop : Nat) : String :=
  let width := Text.Utf8.width ((inner.take stop).drop start)
  Text.Utf8.decodeLossy ((after text inner start).take width)

def seek (marks : List Char) (text : List Char) (start : Nat) : Nat :=
  start + ((text.drop start).takeWhile (!marks.contains ·)).length

def withLevel (d : Directive) (level : String) : Except FilterFault Directive :=
  if level.isEmpty then .ok d
  else match Threshold.ofText? level with
    | some threshold => .ok { d with threshold }
    | none => .error .unknownLevel

/-- A word is a level if it can be one, else a target. -/
def ofWord (word : String) : Directive :=
  match Threshold.ofText? word with
  | some threshold => { threshold }
  | none => { target := some word }

/-- Whether a value is a number, and so no pattern. -/
def isNumber (value : String) : Bool :=
  (Text.decimal? value.toList).isSome
    || ["inf", "infinity", "nan"].contains
      (Text.lowerAscii (.ofList (Text.splitSign value.toList).2))

def fieldOf (text : String) : Except FilterFault (String × Option String) :=
  match Text.splitOn '=' text with
  | [] => .ok (text, none)
  | [name] => .ok (name, none)
  | name :: value :: _ =>
      match (Pattern.fault? value).filter fun _ => !isNumber value with
      | none => .ok (name, some value)
      | some fault => .error (.badValue fault)

def readLevel (text inner : List Char) (d : Directive) (position : Nat) :
    Except FilterFault Directive :=
  match inner.drop position with
  | [] => .ok d
  | '=' :: _ => d.withLevel (Text.Utf8.decodeLossy (after text inner (position + 1)))
  | _ => .error .malformed

/-- A selector, whose bracket stands at the position. -/
def readSelector (text inner : List Char) (d : Directive) (position : Nat) :
    Except FilterFault Directive :=
  let stop := seek [']', '\x7b'] inner (position + 1)
  let span := cut text inner (position + 1) stop
  match inner.drop stop with
  | [] => .error .malformed
  | ']' :: _ => readLevel text inner { d with span := some span } (stop + 1)
  | _ =>
      let last := seek ['\x7d'] inner (stop + 1)
      let field := cut text inner (stop + 1) last
      match inner.drop last with
      | [] => .error .malformed
      | _ :: rest =>
          if field.isEmpty then .error .malformed
          else do
            let field ← fieldOf field
            let span := if span.isEmpty then none else some span
            match rest with
            | ']' :: _ => readLevel text inner { d with span, field := some field } (last + 2)
            | _ => .error .malformed

def startsWord (c : Char) : Bool :=
  c == '-' || c == ':' || c == '_' || Text.isAlphanumeric c

/-- Reads a directive. Marks are looked for in the text without its outer blanks; the
parts are cut at the same positions of the text as it is written. -/
def read (text : List Char) : Except FilterFault Directive :=
  let inner := Text.trimChars text
  match inner with
  | [] => .error .malformed
  | '[' :: _ => readSelector text inner {} 0
  | c :: _ =>
      if !startsWord c then .error .malformed
      else
        let stop := seek ['=', '['] inner 0
        let target := cut text inner 0 stop
        match inner.drop stop with
        | [] => .ok (ofWord (.ofList text))
        | '=' :: _ => readLevel text inner { target := some target } stop
        | _ => readSelector text inner { target := some target } stop

end Directive

structure Rule where
  target : Option String
  field : Option String
  threshold : Threshold
  deriving DecidableEq, Repr

namespace Rule

/-- The rule of a directive. Events are chosen before their values are known, and spans stand
apart, so a directive for a span or for a value has none. -/
def ofDirective? (d : Directive) : Option Rule :=
  match d.span, d.field with
  | none, none => some ⟨d.target, none, d.threshold⟩
  | none, some (name, none) => some ⟨d.target, some name, d.threshold⟩
  | _, _ => none

def targetLength (rule : Rule) : Nat := (rule.target.map (·.utf8ByteSize + 1)).getD 0

def applies (rule : Rule) (site : Site) : Bool :=
  rule.target.all (·.isPrefixOf site.target) && rule.field.all site.fields.contains

/-- Longer targets come first, then rules with a field; the rest only makes the order total. -/
def outranks (a b : Rule) : Bool :=
  if a.targetLength != b.targetLength then b.targetLength < a.targetLength
  else if a.field.isSome != b.field.isSome then a.field.isSome
  else if a.target != b.target then b.target.getD "" < a.target.getD ""
  else b.field.getD "" < a.field.getD ""

end Rule

def Directive.selects (d : Directive) : Bool := d.span.isSome || d.field.isSome

/-- Rules, the most specific first, and the directives that pick spans. -/
structure Filter where
  rules : List Rule
  selectors : List Directive := []
  deriving DecidableEq, Repr

namespace Filter

/-- Puts a rule at its rank; one of the same reach gives way to it. -/
def insert (rule : Rule) : List Rule → List Rule
  | [] => [rule]
  | other :: rest =>
      if rule.target = other.target ∧ rule.field = other.field then rule :: rest
      else if rule.outranks other then rule :: other :: rest
      else other :: insert rule rest

def add (filter : Filter) (rule : Rule) : Filter :=
  { filter with rules := insert rule filter.rules }

/-- The filter of some directives; those with a selector come after all others. None at all
let errors through. -/
def ofDirectives (directives : List Directive) : Filter :=
  if directives.isEmpty then ⟨[⟨none, none, .least .error⟩], []⟩
  else
    let selectors := directives.filter Directive.selects
    let plain := directives.filter (!·.selects)
    ((plain ++ selectors).filterMap Rule.ofDirective?).foldl add ⟨[], selectors⟩

def readDirectives (text : String) : Except FilterFault (List Directive) :=
  ((Text.splitOn ',' text).filter (!·.isEmpty)).mapM fun part => Directive.read part.toList

def read (text : String) : Except FilterFault Filter := (readDirectives text).map ofDirectives

def decides (filter : Filter) (site : Site) : Bool :=
  match filter.rules.find? (·.applies site) with
  | some rule => rule.threshold.admits site.level
  | none => false

/-- An event is let through by the rules, or by a span that it happens in. What the spans let
through depends on the directives that pick them. -/
def enables (filter : Filter) (spans : List Directive → List Threshold) (site : Site) : Bool :=
  (spans filter.selectors).any (·.admits site.level) || filter.decides site

/-- The client has no spans of its own. -/
def admits (filter : Filter) (r : Record) : Bool := filter.enables (fun _ => []) r.site

end Filter
end LanguageClient.Log
