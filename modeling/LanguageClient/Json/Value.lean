import LanguageClient.Double.Basic

/-! JSON values.

An object keeps its members sorted by name, so equal objects are equal values
and a text written from one has a single order.
-/

set_option autoImplicit false
namespace LanguageClient.Json

/-- Integers of the 64-bit ranges stay exact; any other number is a double. -/
inductive Number where
  | integer (n : Int)
  | double (d : Double)
  deriving DecidableEq, Repr

inductive Value where
  | null
  | boolean (b : Bool)
  | number (n : Number)
  | string (s : String)
  | array (items : List Value)
  | object (members : List (String × Value))
  deriving Repr

mutual
def Value.beq : Value → Value → Bool
  | .null, .null => true
  | .boolean a, .boolean b => a == b
  | .number a, .number b => a == b
  | .string a, .string b => a == b
  | .array a, .array b => beqItems a b
  | .object a, .object b => beqMembers a b
  | _, _ => false

def beqItems : List Value → List Value → Bool
  | [], [] => true
  | a :: as, b :: bs => a.beq b && beqItems as bs
  | _, _ => false

def beqMembers : List (String × Value) → List (String × Value) → Bool
  | [], [] => true
  | (k, a) :: as, (l, b) :: bs => k == l && a.beq b && beqMembers as bs
  | _, _ => false
end

instance : BEq Value := ⟨Value.beq⟩

instance : Inhabited Value := ⟨.null⟩

/-- Puts a member at its place; an equal name gives way to the new value. -/
def insertMember {α : Type} (name : String) (value : α) : List (String × α) → List (String × α)
  | [] => [(name, value)]
  | (other, kept) :: rest =>
      if name = other then (name, value) :: rest
      else if name < other then (name, value) :: (other, kept) :: rest
      else (other, kept) :: insertMember name value rest

/-- The members in order of their names; of equal names the last counts. -/
def sortMembers {α : Type} (members : List (String × α)) : List (String × α) :=
  members.foldl (fun sorted (name, value) => insertMember name value sorted) []

def Value.ofMembers (members : List (String × Value)) : Value := .object (sortMembers members)

def Value.ofInt (n : Int) : Value := .number (.integer n)

/-- There are no infinite numbers; null stands for them. -/
def Value.ofDouble (d : Double) : Value := if d.isInfinite then .null else .number (.double d)

def Value.string? : Value → Option String
  | .string s => some s
  | _ => none

def Value.boolean? : Value → Option Bool
  | .boolean b => some b
  | _ => none

def Value.member? (name : String) : Value → Option Value
  | .object members => members.lookup name
  | _ => none

mutual
def Value.depth : Value → Nat
  | .array items => depthItems items + 1
  | .object members => depthMembers members + 1
  | _ => 0

def depthItems : List Value → Nat
  | [] => 0
  | item :: rest => max item.depth (depthItems rest)

def depthMembers : List (String × Value) → Nat
  | [] => 0
  | (_, value) :: rest => max value.depth (depthMembers rest)
end

end LanguageClient.Json
