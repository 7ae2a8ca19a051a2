import LanguageClient.Json.Reader.Value
import LanguageClient.Proofs.Json.Decimal

/-! Values are read as they were written, but for doubles, which may come back as others.

A list or an object is read after its opening mark, and what comes behind its first
member begins with a comma; so each of the two has one law for its start and one for
what is left.
-/

set_option autoImplicit false
namespace LanguageClient.Json

def Ordered {α : Type} (members : List (String × α)) : Prop := members.Pairwise (·.1 < ·.1)

mutual
/-- The numbers of a value are integers that stay exact, and the members of its objects stand
in order. -/
def Value.Exact : Value → Prop
  | .number (.integer n) => Json.Exact n
  | .number (.double _) => False
  | .array items => ExactItems items
  | .object members => Ordered members ∧ ExactMembers members
  | _ => True

def ExactItems : List Value → Prop
  | [] => True
  | item :: rest => item.Exact ∧ ExactItems rest

def ExactMembers : List (String × Value) → Prop
  | [] => True
  | (_, value) :: rest => value.Exact ∧ ExactMembers rest
end

mutual
/-- The numbers of a value have a text, and each name stands once in an object. -/
def Value.Proper : Value → Prop
  | .number n => n.Proper
  | .array items => ProperItems items
  | .object members => (members.map (·.1)).Nodup ∧ ProperMembers members
  | _ => True

def ProperItems : List Value → Prop
  | [] => True
  | item :: rest => item.Proper ∧ ProperItems rest

def ProperMembers : List (String × Value) → Prop
  | [] => True
  | (_, value) :: rest => value.Proper ∧ ProperMembers rest
end

mutual
/-- What the text of a value is read to. Members come in order, and of equal names the last counts. -/
def Value.reread : Value → Value
  | .number n => .number n.reread
  | .array items => .array (rereadItems items)
  | .object members => .ofMembers (rereadMembers members)
  | v => v

def rereadItems : List Value → List Value
  | [] => []
  | item :: rest => item.reread :: rereadItems rest

def rereadMembers : List (String × Value) → List (String × Value)
  | [] => []
  | (name, value) :: rest => (name, value.reread) :: rereadMembers rest
end

/-! Members in order. -/

section Members

variable {α : Type}

theorem insertMember_last {name : String} {value : α} {members : List (String × α)}
    (after : ∀ member ∈ members, member.1 < name) :
    insertMember name value members = members ++ [(name, value)] := by
  induction members with
  | nil => rfl
  | cons member members ih =>
    obtain ⟨other, kept⟩ := member
    have before : other < name := after _ List.mem_cons_self
    have apart : name ≠ other := by
      rintro rfl
      exact String.lt_irrefl _ before
    rw [insertMember, if_neg apart, if_neg (String.lt_asymm before),
      ih fun member listed => after member (List.mem_cons_of_mem _ listed)]
    rfl

theorem foldl_insertMember {sorted members : List (String × α)} (ordered : Ordered (sorted ++ members)) :
    members.foldl (fun sorted (name, value) => insertMember name value sorted) sorted =
      sorted ++ members := by
  induction members generalizing sorted with
  | nil => exact (List.append_nil _).symm
  | cons member members ih =>
    have after : ∀ other ∈ sorted, other.1 < member.1 := fun other listed =>
      (List.pairwise_append.mp ordered).2.2 other listed _ List.mem_cons_self
    rw [List.append_cons] at ordered
    simp only [List.foldl_cons, insertMember_last after]
    rw [ih ordered, List.append_assoc]
    rfl

theorem sortMembers_ordered {members : List (String × α)} (ordered : Ordered members) :
    sortMembers members = members :=
  @foldl_insertMember α [] members ordered

theorem nodup_of_ordered {members : List (String × α)} (ordered : Ordered members) :
    (members.map (·.1)).Nodup := by
  refine List.pairwise_map.mpr (ordered.imp fun before same => ?_)
  rw [same] at before
  exact String.lt_irrefl _ before

end Members

/-! Exact values. -/

mutual
theorem Value.Exact.proper : {v : Value} → v.Exact → v.Proper
  | .null, _ | .boolean _, _ | .string _, _ => trivial
  | .number (.integer _), exact => exact
  | .array _, exact => proper_items exact
  | .object _, ⟨ordered, exact⟩ => ⟨nodup_of_ordered ordered, proper_members exact⟩

theorem proper_items : {items : List Value} → ExactItems items → ProperItems items
  | [], _ => trivial
  | _ :: _, ⟨exact, others⟩ => ⟨exact.proper, proper_items others⟩

theorem proper_members : {members : List (String × Value)} → ExactMembers members → ProperMembers members
  | [], _ => trivial
  | (_, _) :: _, ⟨exact, others⟩ => ⟨exact.proper, proper_members others⟩
end

mutual
theorem Value.Exact.reread : {v : Value} → v.Exact → v.reread = v
  | .null, _ | .boolean _, _ | .string _, _ | .number (.integer _), _ => rfl
  | .array _, exact => congrArg Value.array (reread_items exact)
  | .object _, ⟨ordered, exact⟩ => by
    rw [Value.reread, reread_members exact, Value.ofMembers, sortMembers_ordered ordered]

theorem reread_items : {items : List Value} → ExactItems items → rereadItems items = items
  | [], _ => rfl
  | _ :: _, ⟨exact, others⟩ => by rw [rereadItems, exact.reread, reread_items others]

theorem reread_members : {members : List (String × Value)} → ExactMembers members → rereadMembers members = members
  | [], _ => rfl
  | (_, _) :: _, ⟨exact, others⟩ => by rw [rereadMembers, exact.reread, reread_members others]
end

/-! Written texts. -/

theorem skipBlank_solid {b : UInt8} (solid : isBlank b = false) (rest : List UInt8) :
    skipBlank (b :: rest) = b :: rest := by
  simp [skipBlank, solid]

def laterItems (items : List Value) : List Char := items.flatMap fun item => ',' :: item.write

theorem writeItems_cons (item : Value) (items : List Value) :
    writeItems (item :: items) = item.write ++ laterItems items := by
  induction items generalizing item with
  | nil => exact (List.append_nil _).symm
  | cons next items ih =>
    rw [writeItems, ih]
    · rfl
    · simp

def named (name : String) (text : List Char) : List Char := writeString name ++ ':' :: text

def writeMember (member : String × Value) : List Char := named member.1 member.2.write

def laterMembers (members : List (String × Value)) : List Char :=
  members.flatMap fun member => ',' :: writeMember member

theorem writeMembers_cons (member : String × Value) (members : List (String × Value)) :
    writeMembers (member :: members) = writeMember member ++ laterMembers members := by
  induction members generalizing member with
  | nil => exact (List.append_nil _).symm
  | cons next members ih =>
    obtain ⟨name, value⟩ := member
    rw [writeMembers, ih]
    · simp [laterMembers, writeMember, named]
    · simp

theorem octets_writeString (s : String) (rest : List UInt8) :
    octets (writeString s) ++ rest =
      ascii '"' :: (octets (s.toList.flatMap writeChar) ++ ascii '"' :: rest) := by
  have closing : octets ['"'] = [ascii '"'] := octets_ascii (by decide) []
  rw [writeString, octets_append, octets_ascii (by decide), closing]
  simp

theorem octets_named (name : String) (text : List Char) (rest : List UInt8) :
    octets (named name text) ++ rest = ascii '"' ::
      (octets (name.toList.flatMap writeChar) ++ ascii '"' :: ascii ':' :: (octets text ++ rest)) := by
  rw [named, octets_append, octets_ascii (by decide), List.append_assoc, octets_writeString]
  rfl

theorem octets_writeMember (name : String) (v : Value) (rest : List UInt8) :
    octets (writeMember (name, v)) ++ rest = ascii '"' ::
      (octets (name.toList.flatMap writeChar) ++ ascii '"' :: ascii ':' :: (octets v.write ++ rest)) :=
  octets_named name v.write rest

theorem digit_apart {b d : UInt8} (digit : isDigit b = true) (other : isDigit d = false) : b ≠ d := by
  rintro rfl
  rw [other] at digit
  cases digit

theorem digit_solid {b : UInt8} (digit : isDigit b = true) : isBlank b = false := by
  have apart {d : UInt8} (other : isDigit d = false) : (b == d) = false := by
    simpa using digit_apart digit other
  rw [isBlank, apart (by decide), apart (by decide), apart (by decide), apart (by decide)]
  rfl

def Begins : Value → UInt8 → Prop
  | .null, b => b = ascii 'n'
  | .boolean yes, b => b = ascii (if yes then 't' else 'f')
  | .number _, b => b = ascii '-' ∨ isDigit b = true
  | .string _, b => b = ascii '"'
  | .array _, b => b = ascii '['
  | .object _, b => b = ascii '\x7b'

namespace Begins

variable {v : Value} {b : UInt8}

theorem solid (begins : Begins v b) : isBlank b = false := by
  cases v with
  | boolean yes => cases yes <;> exact begins ▸ (by decide)
  | number n => exact begins.elim (fun minus => minus ▸ (by decide)) digit_solid
  | _ => exact begins ▸ (by decide)

theorem begun (begins : Begins v b) : b ≠ ascii ']' := by
  cases v with
  | boolean yes => cases yes <;> exact begins ▸ (by decide)
  | number n => exact begins.elim (fun minus => minus ▸ (by decide)) (digit_apart · rfl)
  | _ => exact begins ▸ (by decide)

theorem null (begins : Begins v b) (letter : b = ascii 'n') : v = .null := by
  subst letter
  cases v with
  | null => rfl
  | boolean yes => cases yes <;> simp +decide [Begins] at begins
  | _ => simp +decide [Begins] at begins

theorem string (begins : Begins v b) (quote : b = ascii '"') : ∃ s, v = .string s := by
  subst quote
  cases v with
  | string s => exact ⟨s, rfl⟩
  | boolean yes => cases yes <;> simp +decide [Begins] at begins
  | _ => simp +decide [Begins] at begins

theorem number (begins : Begins v b) (shape : b = ascii '-' ∨ isDigit b = true) : ∃ n, v = .number n := by
  cases v with
  | number n => exact ⟨n, rfl⟩
  | boolean yes => cases yes <;> exact absurd shape (begins ▸ (by decide))
  | _ => exact absurd shape (begins ▸ (by decide))

theorem list (begins : Begins v b) (bracket : b = ascii '[') : ∃ items, v = .array items := by
  subst bracket
  cases v with
  | array items => exact ⟨items, rfl⟩
  | boolean yes => cases yes <;> simp +decide [Begins] at begins
  | _ => simp +decide [Begins] at begins

theorem object (begins : Begins v b) (brace : b = ascii '\x7b') : ∃ members, v = .object members := by
  subst brace
  cases v with
  | object members => exact ⟨members, rfl⟩
  | boolean yes => cases yes <;> simp +decide [Begins] at begins
  | _ => simp +decide [Begins] at begins

end Begins

theorem octets_write {v : Value} (proper : v.Proper) :
    ∃ b more, octets v.write = b :: more ∧ Begins v b := by
  cases v with
  | null => exact ⟨_, _, octets_ascii (by decide) _, rfl⟩
  | boolean yes => cases yes <;> exact ⟨_, _, octets_ascii (by decide) _, rfl⟩
  | string s => exact ⟨_, _, octets_ascii (by decide) _, rfl⟩
  | array items => exact ⟨_, _, octets_ascii (by decide) _, rfl⟩
  | object members => exact ⟨_, _, octets_ascii (by decide) _, rfl⟩
  | number n =>
    obtain ⟨positive, ds, shown⟩ := printed proper
    have text : octets (Value.number n).write = if positive then ds else ascii '-' :: ds := shown.text
    rw [text]
    cases positive with
    | false => exact ⟨_, _, rfl, .inl rfl⟩
    | true =>
      obtain ⟨b, more, front, digit⟩ := shown.first
      exact ⟨b, more, front, .inr digit⟩

/-! What a value begins with decides how it is read. -/

section Dispatch

variable {fuel room : Nat} {bytes rest : List UInt8}

theorem readNested_list (deep : 1 < room) :
    readNested (fuel + 1) room (ascii '[' :: bytes) = readItems fuel (room - 1) [] bytes := by
  have shallow : ¬ room ≤ 1 := Nat.not_le.mpr deep
  rw [readNested, skipBlank_solid (by decide)]
  simp only [if_neg shallow]
  rfl

theorem readNested_object (deep : 1 < room) :
    readNested (fuel + 1) room (ascii '\x7b' :: bytes) = readMembers fuel (room - 1) [] bytes := by
  have shallow : ¬ room ≤ 1 := Nat.not_le.mpr deep
  rw [readNested, skipBlank_solid (by decide)]
  simp only [if_neg shallow]
  rfl

theorem readNested_string (s : String) :
    readNested (fuel + 1) room (octets (writeString s) ++ rest) = .ok (.string s, rest) := by
  have quote : isBlank (ascii '"') = false := by decide
  rw [octets_writeString]
  simp +decide only [readNested, skipBlank_solid quote, if_false, if_true, readString_written]
  rfl

theorem readNested_number {n : Number} (proper : n.Proper) (stops : Stops rest) :
    readNested (fuel + 1) room (octets n.write ++ rest) = .ok (.number n.reread, rest) := by
  obtain ⟨positive, ds, shown⟩ := printed proper
  have read := shown.read stops
  rw [shown.text]
  cases positive with
  | false =>
    have minus : isBlank (ascii '-') = false := by decide
    rw [if_neg Bool.false_ne_true, List.cons_append]
    simp +decide only [readNested, skipBlank_solid minus, if_false, if_true, read]
    rfl
  | true =>
    obtain ⟨b, more, front, digit⟩ := shown.first
    have apart {d : UInt8} (other : isDigit d = false) : b ≠ d := digit_apart digit other
    rw [if_pos rfl]
    rw [front, List.cons_append] at read ⊢
    rw [readNested, skipBlank_solid (digit_solid digit)]
    simp only [if_neg (apart (d := ascii 'n') rfl), if_neg (apart (d := ascii 't') rfl),
      if_neg (apart (d := ascii 'f') rfl), if_neg (apart (d := ascii '-') rfl), digit, if_true, read]
    rfl

theorem readItems_end (read : List Value) :
    readItems (fuel + 1) room read (ascii ']' :: rest) = .ok (.array read.reverse, rest) := by
  rw [readItems, skipBlank_solid (by decide)]
  rfl

theorem readMembers_end (read : List (String × Value)) :
    readMembers (fuel + 1) room read (ascii '\x7d' :: rest) = .ok (.ofMembers read.reverse, rest) := by
  rw [readMembers, skipBlank_solid (by decide)]
  rfl

theorem readItems_first {v : Value} (proper : v.Proper) :
    readItems (fuel + 1) room [] (octets v.write ++ rest) =
      readNested fuel room (octets v.write ++ rest) >>= fun (w, left) => readItems fuel room [w] left := by
  obtain ⟨b, more, front, begins⟩ := octets_write proper
  rw [front, List.cons_append, readItems, skipBlank_solid begins.solid]
  simp only [if_neg begins.begun, List.isEmpty_nil, if_true]

theorem readItems_next {v last : Value} {read : List Value} (proper : v.Proper) :
    readItems (fuel + 1) room (last :: read) (ascii ',' :: (octets v.write ++ rest)) =
      readNested fuel room (octets v.write ++ rest) >>= fun (w, left) =>
        readItems fuel room (w :: last :: read) left := by
  obtain ⟨b, more, front, begins⟩ := octets_write proper
  have other : ascii ',' ≠ ascii ']' := by decide
  rw [front, List.cons_append, readItems, skipBlank_solid (by decide)]
  simp only [if_neg other, List.isEmpty_cons, Bool.false_eq_true, if_false, if_true,
    skipBlank_solid begins.solid, if_neg begins.begun]

theorem readColon_written (bytes : List UInt8) : readColon (ascii ':' :: bytes) = .ok bytes := rfl

theorem readMembers_first {name : String} {v : Value} :
    readMembers (fuel + 1) room [] (octets (writeMember (name, v)) ++ rest) =
      readNested fuel room (octets v.write ++ rest) >>= fun (w, left) =>
        readMembers fuel room [(name, w)] left := by
  have other : ascii '"' ≠ ascii '\x7d' := by decide
  rw [octets_writeMember, readMembers, skipBlank_solid (by decide)]
  simp only [if_neg other, List.isEmpty_nil, if_true, readString_written, readColon_written, bind, Except.bind]

theorem readMembers_next {name : String} {v : Value} {last : String × Value} {read : List (String × Value)} :
    readMembers (fuel + 1) room (last :: read) (ascii ',' :: (octets (writeMember (name, v)) ++ rest)) =
      readNested fuel room (octets v.write ++ rest) >>= fun (w, left) =>
        readMembers fuel room ((name, w) :: last :: read) left := by
  have other : ascii ',' ≠ ascii '\x7d' := by decide
  rw [octets_writeMember, readMembers, skipBlank_solid (by decide)]
  simp only [if_neg other, List.isEmpty_cons, Bool.false_eq_true, if_false, if_true,
    skipBlank_solid (b := ascii '"') (by decide), readString_written, readColon_written, bind, Except.bind]

end Dispatch

/-! Whole values. -/

theorem octets_comma (chars : List Char) : octets (',' :: chars) = ascii ',' :: octets chars :=
  octets_ascii (by decide) chars

theorem length_writeMember (name : String) (v : Value) (rest : List UInt8) :
    (octets v.write ++ rest).length < (octets (writeMember (name, v)) ++ rest).length := by
  rw [octets_writeMember]
  simp only [List.length_append, List.length_cons]
  omega

theorem octets_laterItems (item : Value) (items : List Value) (rest : List UInt8) :
    octets (laterItems (item :: items)) ++ rest =
      ascii ',' :: (octets item.write ++ (octets (laterItems items) ++ rest)) := by
  rw [laterItems, List.flatMap_cons, List.cons_append, octets_comma, octets_append, List.cons_append,
    List.append_assoc]
  rfl

theorem octets_laterMembers (member : String × Value) (members : List (String × Value))
    (rest : List UInt8) :
    octets (laterMembers (member :: members)) ++ rest =
      ascii ',' :: (octets (writeMember member) ++ (octets (laterMembers members) ++ rest)) := by
  rw [laterMembers, List.flatMap_cons, List.cons_append, octets_comma, octets_append,
    List.cons_append, List.append_assoc]
  rfl

theorem stops_laterItems (items : List Value) (rest : List UInt8) :
    Stops (octets (laterItems items) ++ ascii ']' :: rest) := by
  cases items with
  | nil => exact stops_cons (by decide) _
  | cons item items =>
    rw [octets_laterItems]
    exact stops_cons (by decide) _

theorem stops_laterMembers (members : List (String × Value)) (rest : List UInt8) :
    Stops (octets (laterMembers members) ++ ascii '\x7d' :: rest) := by
  cases members with
  | nil => exact stops_cons (by decide) _
  | cons member members =>
    rw [octets_laterMembers]
    exact stops_cons (by decide) _

theorem octets_array (items : List Value) (rest : List UInt8) :
    octets (Value.array items).write ++ rest =
      ascii '[' :: (octets (writeItems items) ++ ascii ']' :: rest) := by
  have closing : octets [']'] = [ascii ']'] := octets_ascii (by decide) []
  rw [Value.write, octets_append, octets_ascii (by decide), closing]
  simp

theorem octets_object (members : List (String × Value)) (rest : List UInt8) :
    octets (Value.object members).write ++ rest =
      ascii '\x7b' :: (octets (writeMembers members) ++ ascii '\x7d' :: rest) := by
  have closing : octets ['\x7d'] = [ascii '\x7d'] := octets_ascii (by decide) []
  rw [Value.write, octets_append, octets_ascii (by decide), closing]
  simp

mutual
theorem readNested_write : (v : Value) → v.Proper → ∀ {fuel room : Nat} {rest : List UInt8},
    Stops rest → 2 * (octets v.write ++ rest).length ≤ fuel → v.depth < room →
      readNested fuel room (octets v.write ++ rest) = .ok (v.reread, rest)
  | .null, _, fuel + 1, _, _, _, _, _ => rfl
  | .boolean true, _, fuel + 1, _, _, _, _, _ => rfl
  | .boolean false, _, fuel + 1, _, _, _, _, _ => rfl
  | .string s, _, fuel + 1, _, _, _, _, _ => readNested_string s
  | .number _, proper, fuel + 1, _, _, stops, _, _ => readNested_number proper stops
  | .array items, proper, fuel + 1, room, rest, _, enough, fits => by
    have deep : depthItems items + 1 < room := fits
    rw [octets_array, List.length_cons] at enough
    rw [octets_array, readNested_list (by omega)]
    exact readItems_write items proper (by omega) (by omega)
  | .object members, proper, fuel + 1, room, rest, _, enough, fits => by
    have deep : depthMembers members + 1 < room := fits
    rw [octets_object, List.length_cons] at enough
    rw [octets_object, readNested_object (by omega)]
    exact readMembers_write members proper.2 (by omega) (by omega)
  | v, proper, 0, _, _, _, enough, _ => by
    obtain ⟨b, more, front, -⟩ := octets_write proper
    simp [front] at enough

theorem readItems_write : (items : List Value) → ProperItems items → ∀ {fuel room : Nat}
    {rest : List UInt8}, 2 * (octets (writeItems items) ++ ascii ']' :: rest).length < fuel →
      depthItems items < room →
        readItems fuel room [] (octets (writeItems items) ++ ascii ']' :: rest) =
          .ok (.array (rereadItems items), rest)
  | [], _, fuel + 1, _, _, _, _ => readItems_end []
  | item :: items, ⟨proper, others⟩, fuel + 1, room, rest, enough, fits => by
    obtain ⟨shallow, flat⟩ := Nat.max_lt.mp fits
    rw [writeItems_cons, octets_append, List.append_assoc] at enough ⊢
    have reads : readNested fuel room (octets item.write ++ _) = .ok (item.reread, _) :=
      readNested_write item proper (stops_laterItems items rest) (by omega) shallow
    rw [List.length_append] at enough
    rw [readItems_first proper, reads]
    exact readItems_later items others [] item.reread (by omega) flat

theorem readItems_later : (items : List Value) → ProperItems items → ∀ {fuel room : Nat}
    {rest : List UInt8} (read : List Value) (last : Value),
    2 * (octets (laterItems items) ++ ascii ']' :: rest).length ≤ fuel → depthItems items < room →
      readItems fuel room (last :: read) (octets (laterItems items) ++ ascii ']' :: rest) =
        .ok (.array ((last :: read).reverse ++ rereadItems items), rest)
  | [], _, fuel + 1, _, _, read, last, _, _ => by
    rw [rereadItems, List.append_nil]
    exact readItems_end _
  | item :: items, ⟨proper, others⟩, fuel + 1, room, rest, read, last, enough, fits => by
    obtain ⟨shallow, flat⟩ := Nat.max_lt.mp fits
    rw [octets_laterItems, List.length_cons] at enough
    have reads : readNested fuel room (octets item.write ++ _) = .ok (item.reread, _) :=
      readNested_write item proper (stops_laterItems items rest) (by omega) shallow
    rw [List.length_append] at enough
    rw [octets_laterItems, readItems_next proper, reads]
    refine (readItems_later items others _ item.reread (by omega) flat).trans ?_
    simp [rereadItems]

theorem readMembers_write : (members : List (String × Value)) → ProperMembers members →
    ∀ {fuel room : Nat} {rest : List UInt8},
    2 * (octets (writeMembers members) ++ ascii '\x7d' :: rest).length < fuel →
      depthMembers members < room →
        readMembers fuel room [] (octets (writeMembers members) ++ ascii '\x7d' :: rest) =
          .ok (.ofMembers (rereadMembers members), rest)
  | [], _, fuel + 1, _, _, _, _ => readMembers_end []
  | (name, v) :: members, ⟨proper, others⟩, fuel + 1, room, rest, enough, fits => by
    obtain ⟨shallow, flat⟩ := Nat.max_lt.mp fits
    rw [writeMembers_cons, octets_append, List.append_assoc] at enough ⊢
    have longer := length_writeMember name v (octets (laterMembers members) ++ ascii '\x7d' :: rest)
    have reads : readNested fuel room (octets v.write ++ _) = .ok (v.reread, _) :=
      readNested_write v proper (stops_laterMembers members rest) (by omega) shallow
    rw [List.length_append] at enough
    rw [readMembers_first, reads]
    exact readMembers_later members others [] (name, v.reread) (by omega) flat

theorem readMembers_later : (members : List (String × Value)) → ProperMembers members →
    ∀ {fuel room : Nat} {rest : List UInt8} (read : List (String × Value)) (last : String × Value),
    2 * (octets (laterMembers members) ++ ascii '\x7d' :: rest).length ≤ fuel →
      depthMembers members < room →
        readMembers fuel room (last :: read) (octets (laterMembers members) ++ ascii '\x7d' :: rest) =
          .ok (.ofMembers ((last :: read).reverse ++ rereadMembers members), rest)
  | [], _, fuel + 1, _, _, read, last, _, _ => by
    rw [rereadMembers, List.append_nil]
    exact readMembers_end _
  | (name, v) :: members, ⟨proper, others⟩, fuel + 1, room, rest, read, last, enough, fits => by
    obtain ⟨shallow, flat⟩ := Nat.max_lt.mp fits
    rw [octets_laterMembers, List.length_cons] at enough
    have longer := length_writeMember name v (octets (laterMembers members) ++ ascii '\x7d' :: rest)
    have reads : readNested fuel room (octets v.write ++ _) = .ok (v.reread, _) :=
      readNested_write v proper (stops_laterMembers members rest) (by omega) shallow
    rw [List.length_append] at enough
    rw [octets_laterMembers, readMembers_next, reads]
    refine (readMembers_later members others _ (name, v.reread) (by omega) flat).trans ?_
    simp [rereadMembers]
end

theorem readValue_proper {v : Value} (proper : v.Proper) {room : Nat} (fits : v.depth < room)
    {rest : List UInt8} (stops : Stops rest) :
    readValue room (octets v.write ++ rest) = .ok (v.reread, rest) :=
  readNested_write v proper stops (by omega) fits

/-- An exact value is read as it was written. -/
theorem readValue_write {v : Value} (exact : v.Exact) {room : Nat} (fits : v.depth < room)
    {rest : List UInt8} (stops : Stops rest) :
    readValue room (octets v.write ++ rest) = .ok (v, rest) := by
  rw [readValue_proper exact.proper fits stops, exact.reread]

end LanguageClient.Json
