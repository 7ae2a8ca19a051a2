import LanguageClient.Proofs.Json.Passing
import LanguageClient.Schema.Read

/-! Records are read as they were written.

What the readers of a record make of its members is said member by member: a member
that is no field is passed over, and one that is a field is read by the reader of that
field. A reader is judged by the text it is given, whatever comes behind.
-/

set_option autoImplicit false
namespace LanguageClient.Schema

open Json

/-- The reader makes this of the text, whatever comes behind it. -/
def Reads (reader : List UInt8 → Except Failure (Data × List UInt8)) (text : List Char) (d : Data) :
    Prop :=
  ∀ ⦃rest : List UInt8⦄, Stops rest → reader (octets text ++ rest) = .ok (d, rest)

def Passed (text : List Char) : Prop :=
  ∀ ⦃rest : List UInt8⦄, Stops rest → skipValue (octets text ++ rest) = .ok rest

/-- What the readers have made of the members before, the last one first, and in the end of all. -/
inductive Takes (readers : List (String × (List UInt8 → Except Failure (Data × List UInt8)))) :
    List (String × Data) → List (String × List Char) → List (String × Data) → Prop where
  | done {read : List (String × Data)} : Takes readers read [] read
  | passed {name : String} {text : List Char} {members : List (String × List Char)}
      {read found : List (String × Data)} (unread : readers.lookup name = none) (passed : Passed text)
      (others : Takes readers read members found) : Takes readers read ((name, text) :: members) found
  | taken {name : String} {text : List Char} {members : List (String × List Char)} {d : Data}
      {reader : List UInt8 → Except Failure (Data × List UInt8)} {read found : List (String × Data)}
      (listed : readers.lookup name = some reader) (fresh : read.lookup name = none)
      (reads : Reads reader text d) (others : Takes readers ((name, d) :: read) members found) :
      Takes readers read ((name, text) :: members) found

/-! Written records. -/

def laterNamed (members : List (String × List Char)) : List Char :=
  members.flatMap fun member => ',' :: named member.1 member.2

theorem intercalate_named (name : String) (text : List Char) (members : List (String × List Char)) :
    List.intercalate [','] (named name text :: members.map fun (name, text) => named name text) =
      named name text ++ laterNamed members := by
  induction members generalizing name text with
  | nil => rw [List.map_nil, List.intercalate_singleton, laterNamed, List.flatMap_nil, List.append_nil]
  | cons member members ih =>
    rw [List.map_cons, List.intercalate_cons_cons, ih member.1 member.2, List.append_assoc]
    rfl

theorem octets_writeRecord (name : String) (text : List Char) (members : List (String × List Char))
    (rest : List UInt8) :
    octets (writeRecord ((name, text) :: members)) ++ rest =
      ascii '\x7b' :: (octets (named name text) ++
        (octets (laterNamed members) ++ ascii '\x7d' :: rest)) := by
  have closing : octets ['\x7d'] = [ascii '\x7d'] := octets_ascii (by decide) []
  have written : writeRecord ((name, text) :: members) =
      '\x7b' :: (named name text ++ laterNamed members) ++ ['\x7d'] :=
    congrArg (fun text => '\x7b' :: text ++ ['\x7d']) (intercalate_named name text members)
  rw [written, octets_append, octets_ascii (by decide), closing, octets_append]
  simp only [List.cons_append, List.append_assoc, List.nil_append]

theorem octets_laterNamed (name : String) (text : List Char) (members : List (String × List Char))
    (rest : List UInt8) :
    octets (laterNamed ((name, text) :: members)) ++ rest =
      ascii ',' :: (octets (named name text) ++ (octets (laterNamed members) ++ rest)) := by
  rw [laterNamed, List.flatMap_cons, List.cons_append, octets_comma, octets_append, List.cons_append,
    List.append_assoc]
  rfl

theorem stops_laterNamed (members : List (String × List Char)) (rest : List UInt8) :
    Stops (octets (laterNamed members) ++ ascii '\x7d' :: rest) := by
  cases members with
  | nil => exact stops_cons (by decide) _
  | cons member members =>
    rw [octets_laterNamed]
    exact stops_cons (by decide) _

/-! Members read one after the other. -/

section Members

variable {rest : List UInt8}

theorem nextName_first (name : String) (text : List Char) :
    nextName true (octets (named name text) ++ rest) =
      .ok (some (name, ascii ':' :: (octets text ++ rest))) := by
  have other : ascii '"' ≠ ascii '\x7d' := by decide
  rw [octets_named, nextName, skipBlank_solid (by decide)]
  simp only [if_neg other, if_true, readString_written]
  rfl

theorem nextName_later (name : String) (text : List Char) :
    nextName false (ascii ',' :: (octets (named name text) ++ rest)) =
      .ok (some (name, ascii ':' :: (octets text ++ rest))) := by
  have other : ascii ',' ≠ ascii '\x7d' := by decide
  have quote : isBlank (ascii '"') = false := by decide
  rw [octets_named, nextName, skipBlank_solid (by decide)]
  simp only [if_neg other, Bool.false_eq_true, if_false, if_true, skipBlank_solid quote,
    readString_written]
  rfl

theorem nextName_end (first : Bool) : nextName first (ascii '\x7d' :: rest) = .ok none := by
  rw [nextName, skipBlank_solid (by decide)]
  rfl

variable {readers : List (String × (List UInt8 → Except Failure (Data × List UInt8)))}
  {read found : List (String × Data)} {fuel : Nat} {first : Bool} {bytes : List UInt8}

theorem readMembersBy_passed {name : String} {text : List Char}
    (named : nextName first bytes = .ok (some (name, ascii ':' :: (octets text ++ rest))))
    (unread : readers.lookup name = none) (passed : Passed text) (stops : Stops rest) :
    readMembersBy readers (fuel + 1) first read bytes = readMembersBy readers fuel false read rest := by
  simp only [readMembersBy, named, unread, bind, Except.bind, readColon_written, passed stops]

theorem readMembersBy_taken {name : String} {text : List Char} {d : Data}
    {reader : List UInt8 → Except Failure (Data × List UInt8)}
    (named : nextName first bytes = .ok (some (name, ascii ':' :: (octets text ++ rest))))
    (listed : readers.lookup name = some reader) (fresh : read.lookup name = none)
    (reads : Reads reader text d) (stops : Stops rest) :
    readMembersBy readers (fuel + 1) first read bytes =
      readMembersBy readers fuel false ((name, d) :: read) rest := by
  simp only [readMembersBy, named, listed, fresh, Option.isSome_none, Bool.false_eq_true, if_false, bind,
    Except.bind, readColon_written, reads stops]

theorem readMembersBy_end (named : nextName first bytes = .ok none) :
    readMembersBy readers (fuel + 1) first read bytes = .ok (read, bytes) := by
  simp only [readMembersBy, named, bind, Except.bind]

theorem readMembersBy_later {members : List (String × List Char)} (takes : Takes readers read members found)
    (enough : members.length < fuel) :
    readMembersBy readers fuel false read (octets (laterNamed members) ++ ascii '\x7d' :: rest) =
      .ok (found, ascii '\x7d' :: rest) := by
  induction takes generalizing fuel with
  | done =>
    obtain ⟨fuel, rfl⟩ := Nat.exists_eq_add_of_lt enough
    exact readMembersBy_end (nextName_end false)
  | passed unread passed others ih =>
    obtain ⟨fuel, rfl⟩ : ∃ more, fuel = more + 1 := Nat.exists_eq_add_of_le' (by omega)
    rw [octets_laterNamed, readMembersBy_passed (nextName_later _ _) unread passed (stops_laterNamed _ _)]
    exact ih (Nat.lt_of_succ_lt_succ enough)
  | taken listed fresh reads others ih =>
    obtain ⟨fuel, rfl⟩ : ∃ more, fuel = more + 1 := Nat.exists_eq_add_of_le' (by omega)
    rw [octets_laterNamed,
      readMembersBy_taken (nextName_later _ _) listed fresh reads (stops_laterNamed _ _)]
    exact ih (Nat.lt_of_succ_lt_succ enough)

theorem readMembersBy_written {name : String} {text : List Char} {members : List (String × List Char)}
    (takes : Takes readers read ((name, text) :: members) found) (enough : members.length + 1 < fuel) :
    readMembersBy readers fuel true read
        (octets (named name text) ++ (octets (laterNamed members) ++ ascii '\x7d' :: rest)) =
      .ok (found, ascii '\x7d' :: rest) := by
  obtain ⟨fuel, rfl⟩ : ∃ more, fuel = more + 1 := Nat.exists_eq_add_of_le' (by omega)
  cases takes with
  | passed unread passed others =>
    rw [readMembersBy_passed (nextName_first _ _) unread passed (stops_laterNamed _ _)]
    exact readMembersBy_later others (Nat.lt_of_succ_lt_succ enough)
  | taken listed fresh reads others =>
    rw [readMembersBy_taken (nextName_first _ _) listed fresh reads (stops_laterNamed _ _)]
    exact readMembersBy_later others (Nat.lt_of_succ_lt_succ enough)

end Members

theorem length_laterNamed (members : List (String × List Char)) (rest : List UInt8) :
    members.length ≤ (octets (laterNamed members) ++ rest).length := by
  induction members with
  | nil => exact Nat.zero_le _
  | cons member members ih =>
    rw [octets_laterNamed, List.length_cons, List.length_cons, List.length_append]
    omega

theorem length_members (name : String) (text : List Char) (members : List (String × List Char))
    (rest : List UInt8) : members.length + 1 <
      (octets (named name text) ++ (octets (laterNamed members) ++ ascii '\x7d' :: rest)).length + 1 := by
  have later := length_laterNamed members (ascii '\x7d' :: rest)
  rw [octets_named, List.length_cons, List.length_append, List.length_cons, List.length_cons, List.length_append]
  omega

theorem closeObject_written (rest : List UInt8) : closeObject (ascii '\x7d' :: rest) = .ok rest := by
  rw [closeObject, skipBlank_solid (by decide)]
  rfl

theorem readWith_opened {name : String} {fields : List (Field Schema)} {room : Nat} {bytes : List UInt8}
    (deep : 1 < room) :
    readWith (.record name fields) room (ascii '\x7b' :: bytes) =
      inObject (readMembersBy (fieldReaders fields (room - 1)) (bytes.length + 1) true [] bytes >>=
        fun (read, left) => collect fields read left) := by
  have shallow : ¬ room ≤ 1 := Nat.not_le.mpr deep
  have other : ascii '\x7b' ≠ ascii '[' := by decide
  have opening : isBlank (ascii '\x7b') = false := by decide
  simp only [readWith, skipBlank_solid opening, if_neg other, if_true, if_neg shallow]

theorem readWith_record {name : String} {fields : List (Field Schema)} {room : Nat}
    {members : List (String × List Char)} {found : List (String × Data)} {ds : List Data}
    (deep : 1 < room) (some : members ≠ [])
    (takes : Takes (fieldReaders fields (room - 1)) [] members found)
    (filled : fill fields (fields.map fun field => (found.lookup field.name).map .ok) = .ok ds) :
    Reads (readWith (.record name fields) room) (writeRecord members) (.record ds) := by
  intro rest _
  obtain _ | ⟨⟨first, text⟩, members⟩ := members
  · exact absurd rfl some
  rw [octets_writeRecord, readWith_opened deep, readMembersBy_written takes (length_members _ _ _ _)]
  simp only [bind, Except.bind, collect, filled, inObject, closeObject_written]
  rfl

/-! Single values. -/

section Fields

variable {room : Nat}

theorem reads_value {v : Value} (proper : v.Proper) (fits : v.depth < room) :
    Reads (readWith .value room) v.write (.json v.reread) := by
  intro rest stops
  rw [readWith_value, readValue_proper proper fits stops]
  rfl

theorem passed_proper {v : Value} (proper : v.Proper) : Passed v.write := fun _ stops => skipValue_write proper stops

theorem passed_value {v : Value} (exact : v.Exact) : Passed v.write := passed_proper exact.proper

theorem passed_string (s : String) : Passed (writeString s) :=
  @passed_value (.string s) trivial

theorem reads_text (s : String) : Reads (readWith .text room) (writeString s) (.text s) := by
  intro rest _
  have quote : isBlank (ascii '"') = false := by decide
  rw [octets_writeString]
  simp only [readWith, readText, skipBlank_solid quote, if_true, readString_written]
  rfl

theorem readInteger_number {range : IntegerRange} {n : Number} {rest : List UInt8} (proper : n.Proper)
    (stops : Stops rest) :
    readInteger range (octets n.write ++ rest) =
      match n.reread with
      | .integer n =>
          if range.contains n then .ok (.integer n, rest) else failAt (.invalidValue (.integer n) (.integer range)) rest
      | .double d => failAt (.invalidType (.floating d) (.integer range)) rest := by
  obtain ⟨positive, ds, shown⟩ := printed proper
  have read := shown.read stops
  rw [shown.text]
  generalize n.reread = m at read ⊢
  cases positive with
  | false =>
    have minus : isBlank (ascii '-') = false := by decide
    rw [if_neg Bool.false_ne_true, List.cons_append]
    cases m <;> simp only [readInteger, skipBlank_solid minus, true_or, if_true, read, bind, Except.bind]
  | true =>
    obtain ⟨b, more, front, digit⟩ := shown.first
    have solid := digit_solid digit
    have other : b ≠ ascii '-' := digit_apart digit rfl
    rw [if_pos rfl]
    rw [front, List.cons_append] at read ⊢
    cases m <;>
      simp only [readInteger, skipBlank_solid solid, digit, or_true, if_true, if_neg other, read, bind, Except.bind]

theorem reads_integer {range : IntegerRange} {n : Int} (exact : Exact n)
    (contained : range.contains n = true) :
    Reads (readWith (.integer range) room) (writeInt n) (.integer n) := by
  intro rest stops
  have proper : (Number.integer n).Proper := exact
  have read := @readInteger_number range _ _ proper stops
  simp only [Number.reread, contained, if_true] at read
  rw [readWith_integer]
  exact read

theorem reads_option {content : Schema} {text : List Char} {d : Data} {b : UInt8} {more : List UInt8}
    (front : octets text = b :: more) (solid : isBlank b = false) (other : b ≠ ascii 'n')
    (reads : Reads (readWith content room) text d) :
    Reads (readWith (.option content) room) text d := by
  intro rest stops
  have read := reads stops
  rw [front, List.cons_append] at read ⊢
  simp only [readWith, skipBlank_solid solid, if_neg other, read]

theorem reads_null {content : Schema} :
    Reads (readWith (.option content) room) Value.null.write .absent := by
  intro rest _
  simp only [readWith]
  rfl

theorem readWith_some {v : Value} {content : Schema} {rest : List UInt8} (proper : v.Proper) (some : v ≠ .null) :
    readWith (.option content) room (octets v.write ++ rest) = readWith content room (octets v.write ++ rest) := by
  obtain ⟨b, more, front, begins⟩ := octets_write proper
  have other : b ≠ ascii 'n' := fun letter => some (begins.null letter)
  rw [front, List.cons_append]
  simp only [readWith, skipBlank_solid begins.solid, if_neg other]

theorem reads_some {v : Value} {content : Schema} {d : Data} (exact : v.Exact) (some : v ≠ .null)
    (reads : Reads (readWith content room) v.write d) :
    Reads (readWith (.option content) room) v.write d := fun _ stops =>
  (readWith_some exact.proper some).trans (reads stops)

/-- What a value is read to that might be missing; null is as good as missing. -/
def given : Value → Data
  | .null => .absent
  | v => .json v

theorem given_some {v : Value} (some : v ≠ .null) : given v = .json v := by
  cases v with
  | null => exact absurd rfl some
  | _ => rfl

theorem reread_eq_null {v : Value} : v.reread = .null ↔ v = .null := by
  cases v <;> simp [Value.reread, Value.ofMembers]

theorem reads_reread {v : Value} (proper : v.Proper) (fits : v.depth < room) :
    Reads (readWith (.option .value) room) v.write (given v.reread) := by
  by_cases null : v = .null
  · subst null
    exact reads_null
  · rw [given_some (mt reread_eq_null.mp null)]
    exact fun _ stops => (readWith_some proper null).trans (reads_value proper fits stops)

theorem reads_given {v : Value} (exact : v.Exact) (fits : v.depth < room) :
    Reads (readWith (.option .value) room) v.write (given v) := by
  have reads := reads_reread exact.proper fits
  rwa [exact.reread] at reads

end Fields

theorem read_of_reads {schema : Schema} {text : List Char} {d : Data}
    (reads : Reads (readWith schema nestingLimit) text d) : schema.read (octets text) = .ok d := by
  have whole := reads stops_nil
  rw [List.append_nil] at whole
  simp only [Schema.read, readAll, whole]
  rfl

end LanguageClient.Schema
