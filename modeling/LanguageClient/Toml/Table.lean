import LanguageClient.Double.Basic

/-! Values of a TOML document, and how its lines fill its tables.

A table may be written once in braces, once below a header, or piece by piece by
dotted keys. What has been written one way cannot be continued another way.
-/

set_option autoImplicit false
namespace LanguageClient.Toml

inductive Origin where
  /-- Written in braces. -/
  | braces
  | header
  /-- A header of a table inside it came first. -/
  | implied
  | dotted
  deriving DecidableEq, Repr

inductive Value where
  | string (s : String)
  | boolean (b : Bool)
  | integer (n : Int)
  /-- A number that is infinite, or is none, has no value. -/
  | float (value : Option Double)
  /-- A time keeps its text. -/
  | time (text : String)
  | array (items : List Value)
  | table (origin : Origin) (entries : List (String × Value))
  /-- Tables below headers in double brackets. -/
  | tables (elements : List (List (String × Value)))
  deriving Repr

instance : Inhabited Value := ⟨.boolean false⟩

abbrev Table := List (String × Value)

namespace Table

def set (table : Table) (name : String) (value : Value) : Table :=
  match table with
  | [] => [(name, value)]
  | (other, kept) :: rest =>
      if other = name then (name, value) :: rest else (other, kept) :: set rest name value

/-- Enters a value under a dotted key. The tables on the way are those that other dotted
keys, or headers further down, brought about; the last one a dotted key did. -/
def put (value : Value) : List String → Table → Option Table
  | [], _ => none
  | [name], table =>
      if (table.lookup name).isSome then none else some (table.set name value)
  | name :: next :: rest, table =>
      match table.lookup name with
      | none => (put value (next :: rest) []).map fun inner => table.set name (.table .dotted inner)
      | some (.table origin inner) =>
          -- A key may go on through a table that a header implied, but not end in it.
          if origin = .dotted ∨ origin = .implied ∧ !rest.isEmpty then
            (put value (next :: rest) inner).map fun inner => table.set name (.table origin inner)
          else none
      | some (.tables elements) =>
          match elements.getLast? with
          | some last =>
              if rest.isEmpty then none
              else (put value (next :: rest) last).map fun last =>
                table.set name (.tables (elements.dropLast ++ [last]))
          | none => none
      | some _ => none

/-- Changes the table that a header names; of an array of tables that is the last one. -/
def alter (change : Table → Option Table) : List String → Table → Option Table
  | [], table => change table
  | name :: rest, table =>
      match table.lookup name with
      | none => (alter change rest []).map fun inner => table.set name (.table .implied inner)
      | some (.table origin inner) =>
          if origin = .braces then none
          else (alter change rest inner).map fun inner => table.set name (.table origin inner)
      | some (.tables elements) =>
          match elements.getLast? with
          | some last => (alter change rest last).map fun last =>
              table.set name (.tables (elements.dropLast ++ [last]))
          | none => none
      | some _ => none

/-- A header opens a table that is new, or only implied so far. -/
def openHeader (name : String) (table : Table) : Option Table :=
  match table.lookup name with
  | none => some (table.set name (.table .header []))
  | some (.table .implied inner) => some (table.set name (.table .header inner))
  | some _ => none

/-- A header in double brackets adds a table to an array of tables. -/
def openElement (name : String) (table : Table) : Option Table :=
  match table.lookup name with
  | none => some (table.set name (.tables [[]]))
  | some (.tables elements) => some (table.set name (.tables (elements ++ [[]])))
  | some _ => none

end Table
end LanguageClient.Toml
