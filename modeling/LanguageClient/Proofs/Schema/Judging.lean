import LanguageClient.Proofs.Schema.Listed
import LanguageClient.Proofs.Schema.Members

/-! Readers judge a written value by what it is read to.

The texts of two values may differ in the order of members and are read to the same value all the
same. A reader that judges makes the same of both, or fails on both. Each schema is shown to judge if
the schemas inside it do.
-/

set_option autoImplicit false
namespace LanguageClient.Schema

open Json

/-- The reader settles every value, and makes the same of values that are read to the same. -/
structure Judges (reader : List UInt8 → Except Failure (Data × List UInt8)) : Prop where
  settled : ∀ {v : Value}, v.Proper → Settled reader v.write
  again : ∀ {v w : Value} {d : Data}, v.Proper → w.Proper → v.reread = w.reread → Reads reader v.write d →
    Reads reader w.write d

section Verdicts

variable {reader : List UInt8 → Except Failure (Data × List UInt8)} {text : List Char} {d e : Data} {v w : Value}

theorem Reads.not_refuses (reads : Reads reader text d) : ¬ Refuses reader text := fun refuses => by
  obtain ⟨f, failed⟩ := refuses stops_nil
  cases (reads stops_nil).symm.trans failed

theorem Reads.unique (reads : Reads reader text d) (too : Reads reader text e) : d = e :=
  Option.some.inj ((taken?_of_reads reads).symm.trans (taken?_of_reads too))

theorem Judges.taken?_eq (judges : Judges reader) (proper : v.Proper) (other : w.Proper)
    (same : v.reread = w.reread) : taken? reader v.write = taken? reader w.write := by
  rcases judges.settled proper with ⟨d, reads⟩ | refuses
  · rw [taken?_of_reads reads, taken?_of_reads (judges.again proper other same reads)]
  · rcases judges.settled other with ⟨d, reads⟩ | refused
    · exact absurd refuses (judges.again other proper same.symm reads).not_refuses
    · rw [taken?_of_refuses refuses, taken?_of_refuses refused]

theorem Judges.of_verdict (verdict : Value → Option Data)
    (reads : ∀ {v : Value} {d : Data}, v.Proper → verdict v.reread = some d → Reads reader v.write d)
    (refuses : ∀ {v : Value}, v.Proper → verdict v.reread = none → Refuses reader v.write) : Judges reader where
  settled {v} proper := by
    cases made : verdict v.reread with
    | some d => exact .inl ⟨d, reads proper made⟩
    | none => exact .inr (refuses proper made)
  again {v w d} proper other same read := by
    cases made : verdict v.reread with
    | some e =>
      obtain rfl := read.unique (reads proper made)
      exact reads other (same ▸ made)
    | none => exact absurd (refuses proper made) read.not_refuses

end Verdicts

/-! Single values. -/

section Values

variable {room : Nat} {v : Value} {rest : List UInt8}

theorem judges_made {reader : List UInt8 → Except Failure (Data × List UInt8)} (make : Value → Except Cause Data)
    (room_pos : 0 < room)
    (reading : ∀ bytes, reader bytes = readValue room bytes >>= fun (v, rest) =>
      match make v with
      | .ok d => .ok (d, rest)
      | .error cause => misfit cause rest) : Judges reader := by
  -- A value that is too deep for the room is refused before anything is made of it.
  refine .of_verdict (fun v => if v.depth < room then (make v).toOption else none) ?_ ?_
  · intro v d proper made rest stops
    rw [depth_reread proper] at made
    split at made
    · rename_i fits
      rw [reading, readValue_proper proper fits stops]
      cases sense : make v.reread with
      | ok e =>
        rw [sense] at made
        cases made
        simp only [bind, Except.bind, sense]
      | error cause =>
        rw [sense] at made
        cases made
    · cases made
  · intro v proper made rest stops
    rw [depth_reread proper] at made
    rw [reading]
    split at made
    · rename_i fits
      rw [readValue_proper proper fits stops]
      cases sense : make v.reread with
      | ok e =>
        rw [sense] at made
        cases made
      | error cause =>
        simp only [bind, Except.bind, sense]
        exact ⟨_, rfl⟩
    · rename_i deep
      exact (readValue_deep proper room_pos (Nat.not_lt.mp deep) stops).bind _

theorem judges_value (room_pos : 0 < room) : Judges (readWith .value room) := by
  refine judges_made (fun v => .ok (.json v)) room_pos fun bytes => ?_
  simp only [readWith]
  cases readValue room bytes <;> rfl

theorem judges_detached (schema : Schema) (room_pos : 0 < room) : Judges (readDetached schema room) :=
  judges_made _ room_pos fun _ => rfl

theorem judges_text : Judges (readWith .text room) := by
  refine .of_verdict (·.string?.map .text) ?_ ?_
  · intro v d _ made
    cases v with
    | string s =>
      cases made
      exact reads_text s
    | _ => cases made
  · intro v proper made rest _
    obtain ⟨b, more, front, begins⟩ := octets_write proper
    have other : b ≠ ascii '"' := fun quote => by
      obtain ⟨s, rfl⟩ := begins.string quote
      cases made
    rw [front, List.cons_append]
    simp only [readWith, readText, skipBlank_solid begins.solid, if_neg other]
    exact ⟨_, rfl⟩

def integerOf? (range : IntegerRange) : Value → Option Data
  | .number (.integer n) => if range.contains n then some (.integer n) else none
  | _ => none

theorem judges_integer (range : IntegerRange) : Judges (readWith (.integer range) room) := by
  refine .of_verdict (integerOf? range) ?_ ?_
  · intro v d proper made rest stops
    cases v with
    | number n =>
      have read := @readInteger_number range _ _ proper stops
      simp only [integerOf?, Value.reread] at made
      split at made
      · rename_i whole same
        obtain same := Value.number.inj same
        split at made
        · rename_i contained
          cases made
          simp only [same, if_pos contained] at read
          exact read
        · cases made
      · cases made
    | _ => cases made
  · intro v proper made rest stops
    obtain ⟨b, more, front, begins⟩ := octets_write proper
    by_cases shape : b = ascii '-' ∨ isDigit b = true
    · -- A number, but no integer or none in range.
      obtain ⟨n, rfl⟩ := begins.number shape
      have read := @readInteger_number range _ _ proper stops
      refine (?_ : Fails (readInteger range (octets n.write ++ rest)))
      rw [read]
      simp only [integerOf?, Value.reread] at made
      cases whole : n.reread with
      | double d => exact ⟨_, rfl⟩
      | integer m =>
        simp only [whole] at made ⊢
        split at made
        · cases made
        · rename_i outside
          rw [if_neg outside]
          exact ⟨_, rfl⟩
    · rw [front, List.cons_append]
      simp only [readWith, readInteger, skipBlank_solid begins.solid, if_neg shape]
      exact ⟨_, rfl⟩

theorem judges_option {content : Schema} (judges : Judges (readWith content room)) :
    Judges (readWith (.option content) room) where
  settled {v} proper := by
    by_cases null : v = .null
    · subst null
      exact .inl ⟨_, reads_null⟩
    · rcases judges.settled proper with ⟨d, reads⟩ | refuses
      · exact .inl ⟨d, fun rest stops => (readWith_some proper null).trans (reads stops)⟩
      · exact .inr fun rest stops => (readWith_some proper null).symm ▸ refuses stops
  again {v w d} proper other same reads := by
    by_cases null : v = .null
    · subst null
      obtain rfl := reread_eq_null.mp same.symm
      exact reads
    · have given : w ≠ .null := fun none => null (reread_eq_null.mp (same.trans (reread_eq_null.mpr none)))
      have content_reads : Reads (readWith content room) v.write d := fun rest stops =>
        (readWith_some proper null).symm.trans (reads stops)
      intro rest stops
      rw [readWith_some other given]
      exact judges.again proper other same content_reads stops

end Values

/-! Records written as objects. -/

section Objects

variable {fields : List (Field Schema)} {members others : List (String × Value)} {name : String} {room : Nat}

def written (members : List (String × Value)) : List (String × List Char) :=
  members.map fun (name, v) => (name, v.write)

theorem names_written (members : List (String × Value)) : (written members).map (·.1) = members.map (·.1) := by
  rw [written, List.map_map]
  rfl

theorem laterNamed_written (members : List (String × Value)) :
    laterNamed (written members) = laterMembers members := by
  rw [laterNamed, written, List.flatMap_map]
  rfl

theorem write_object (members : List (String × Value)) :
    (Value.object members).write = writeRecord (written members) := by
  cases members with
  | nil => rfl
  | cons member members =>
    have inside := intercalate_named member.1 member.2.write (written members)
    rw [laterNamed_written] at inside
    rw [Value.write, writeMembers_cons]
    exact (congrArg (fun text => '\x7b' :: text ++ ['\x7d']) inside).symm

theorem proper_of_mem (proper : ProperMembers members) {member : String × Value} (listed : member ∈ members) :
    member.2.Proper := by
  induction members with
  | nil => cases listed
  | cons other members ih =>
    obtain ⟨first, later⟩ := proper
    rcases List.mem_cons.mp listed with rfl | listed
    · exact first
    · exact ih later listed

theorem ready_written (judges : ∀ field ∈ fields, Judges (readWith field.shape room))
    (proper : ProperMembers members) {member : String × List Char} (listed : member ∈ written members) : Ready (fieldReaders fields room) member := by
  obtain ⟨entry, among, rfl⟩ := List.mem_map.mp listed
  have sound := proper_of_mem proper among
  refine ⟨passed_proper sound, fun reader named => ?_⟩
  obtain ⟨field, held, -, rfl⟩ := field_of_listed named
  exact (judges field held).settled sound

theorem fieldOutcome_again {field : Field Schema} (judges : ∀ field ∈ fields, Judges (readWith field.shape room))
    (proper : ProperMembers members) (other : ProperMembers others)
    (same : (members.lookup field.name).map Value.reread = (others.lookup field.name).map Value.reread) :
    fieldOutcome (fieldReaders fields room) (written members) field =
      fieldOutcome (fieldReaders fields room) (written others) field := by
  simp only [fieldOutcome, written, lookup_map]
  cases held : members.lookup field.name with
  | none =>
    rw [held] at same
    rw [Option.map_eq_none_iff.mp same.symm]
  | some v =>
    rw [held] at same
    obtain ⟨w, kept, alike⟩ := Option.map_eq_some_iff.mp same.symm
    rw [kept]
    simp only [Option.map_some]
    cases listed : (fieldReaders fields room).lookup field.name with
    | none => rfl
    | some reader =>
      obtain ⟨field, member, -, rfl⟩ := field_of_listed listed
      exact (judges field member).taken?_eq (proper_of_mem proper (mem_of_lookup held))
        (proper_of_mem other (mem_of_lookup kept)) alike.symm

end Objects

/-! Records written as lists. -/

section Lists

variable {readers : List (Absence × (List UInt8 → Except Failure (Data × List UInt8)))} {items others : List Value}
  {ds : List Data} {name : String} {count index : Nat} {rest : List UInt8}

/-- What the reading leaves, if it leaves anything, does not end a list. -/
def Unclosed {α : Type} (reading : Except Failure (α × List UInt8)) : Prop :=
  ∀ a left, reading = .ok (a, left) → Fails (closeList left)

theorem unclosed_of_fails {α : Type} {reading : Except Failure (α × List UInt8)} (fails : Fails reading) :
    Unclosed reading := fun a left done => by
  obtain ⟨f, failed⟩ := fails
  cases failed.symm.trans done

theorem Unclosed.map {α β : Type} {reading : Except Failure (α × List UInt8)} (unclosed : Unclosed reading)
    (f : α → β) : Unclosed (reading.map fun (a, left) => (f a, left)) := fun b left done => by
  cases reading with
  | error e => cases done
  | ok result =>
    cases done
    exact unclosed _ _ rfl

theorem Unclosed.inList {α : Type} {reading : Except Failure (α × List UInt8)} (unclosed : Unclosed reading) :
    Fails (inList reading) := by
  cases reading with
  | error e => exact ⟨_, rfl⟩
  | ok result => exact (unclosed _ _ rfl).map _

theorem unclosed_comma (bytes : List UInt8) : Fails (closeList (ascii ',' :: bytes)) := by
  have other : ascii ',' ≠ ascii ']' := by decide
  rw [closeList, skipBlank_solid (by decide)]
  simp only [if_neg other, if_true]
  split <;> exact ⟨_, rfl⟩

theorem unclosed_item {v : Value} (proper : v.Proper) (rest : List UInt8) :
    Fails (closeList (octets v.write ++ rest)) := by
  obtain ⟨b, more, front, begins⟩ := octets_write proper
  rw [front, List.cons_append, closeList, skipBlank_solid begins.solid]
  simp only [if_neg begins.begun]
  split
  · split <;> exact ⟨_, rfl⟩
  · exact ⟨_, rfl⟩

theorem unclosed_from {v : Value} (proper : v.Proper) (index : Nat) (items : List Value) (rest : List UInt8) :
    Fails (closeList (octets (itemsFrom index (v :: items)) ++ ascii ']' :: rest)) := by
  cases index with
  | zero =>
    rw [itemsFrom, writeItems_cons, octets_append, List.append_assoc]
    exact unclosed_item proper _
  | succ index =>
    rw [itemsFrom, octets_laterItems]
    exact unclosed_comma _

theorem readFieldsBy_refused {v : Value} {absence : Absence}
    {reader : List UInt8 → Except Failure (Data × List UInt8)} (proper : v.Proper) (refuses : Refuses reader v.write) :
    Fails (readFieldsBy name count ((absence, reader) :: readers) index
      (octets (itemsFrom index (v :: items)) ++ ascii ']' :: rest)) := by
  obtain ⟨f, failed⟩ := refuses (stops_itemsFrom index items rest)
  simp only [readFieldsBy, nextItem_from proper, bind, Except.bind, failed]
  exact ⟨_, rfl⟩

theorem fills_or_fails (name : String) (count : Nat)
    (readers : List (Absence × (List UInt8 → Except Failure (Data × List UInt8)))) :
    (∃ ds, Fills readers [] ds) ∨ ∀ index rest, Fails (readFieldsBy name count readers index (ascii ']' :: rest)) := by
  induction readers with
  | nil => exact .inl ⟨_, .done⟩
  | cons field readers ih =>
    obtain ⟨absence, reader⟩ := field
    cases absence with
    | default d =>
      refine ih.imp (fun ⟨ds, fills⟩ => ⟨_, .missing fills⟩) fun fails index rest => ?_
      rw [readFieldsBy_missing]
      exact (fails (index + 1) rest).map _
    | _ =>
      refine .inr fun index rest => ?_
      simp only [readFieldsBy, nextItem_end, bind, Except.bind]
      exact ⟨_, rfl⟩

/-- The items fill the fields, or the list is not read to its end. -/
theorem fills_or_unclosed (name : String) (count : Nat) (judges : ∀ entry ∈ readers, Judges entry.2)
    (proper : ProperItems items) :
    (∃ ds, Fills readers items ds) ∨ ∀ index rest,
      Unclosed (readFieldsBy name count readers index (octets (itemsFrom index items) ++ ascii ']' :: rest)) := by
  induction readers generalizing items with
  | nil =>
    cases items with
    | nil => exact .inl ⟨_, .done⟩
    | cons v items =>
      refine .inr fun index rest ds left done => ?_
      cases done
      exact unclosed_from proper.1 index items rest
  | cons field readers ih =>
    obtain ⟨absence, reader⟩ := field
    cases items with
    | nil =>
      refine (fills_or_fails name count _).imp_right fun fails index rest => ?_
      rw [octets_itemsFrom]
      exact unclosed_of_fails (fails index rest)
    | cons v items =>
      have others : ∀ entry ∈ readers, Judges entry.2 := fun entry listed =>
        judges entry (List.mem_cons_of_mem _ listed)
      rcases (judges _ List.mem_cons_self).settled proper.1 with ⟨d, reads⟩ | refuses
      · refine (ih others proper.2).imp (fun ⟨ds, fills⟩ => ⟨_, .taken proper.1 reads fills⟩) ?_
        intro unclosed index rest
        rw [readFieldsBy_taken proper.1 reads]
        exact (unclosed (index + 1) rest).map _
      · exact .inr fun index rest => unclosed_of_fails (readFieldsBy_refused proper.1 refuses)

theorem Fills.again (fills : Fills readers items ds) (judges : ∀ entry ∈ readers, Judges entry.2)
    (proper : ProperItems others) (same : rereadItems items = rereadItems others) : Fills readers others ds := by
  induction fills generalizing others with
  | done =>
    cases others with
    | nil => exact .done
    | cons v others => cases same
  | missing fills ih =>
    cases others with
    | nil => exact .missing fills
    | cons v others => cases same
  | taken sound reads fills ih =>
    cases others with
    | nil => cases same
    | cons w others =>
      obtain ⟨first, later⟩ := List.cons.inj same
      exact .taken proper.1 ((judges _ List.mem_cons_self).again sound proper.1 first reads)
        (ih (fun entry listed => judges entry (List.mem_cons_of_mem _ listed)) proper.2 later)

end Lists

/-! Records. -/

section Records

variable {fields : List (Field Schema)} {members others : List (String × Value)} {items more : List Value}
  {name : String} {room : Nat} {d : Data}

theorem judges_readers (judges : ∀ field ∈ fields, Judges (readWith field.shape room)) :
    ∀ entry ∈ (fields.map (·.absence)).zip ((fieldReaders fields room).map (·.2)), Judges entry.2 := by
  induction fields with
  | nil => exact nofun
  | cons field fields ih =>
    intro entry listed
    rcases List.mem_cons.mp listed with rfl | listed
    · exact judges field List.mem_cons_self
    · exact ih (fun field member => judges field (List.mem_cons_of_mem _ member)) entry listed

theorem record_object (name : String) (deep : 1 < room)
    (judges : ∀ field ∈ fields, Judges (readWith field.shape (room - 1))) (proper : (Value.object members).Proper) :
    match fields.mapM (fieldOutcome (fieldReaders fields (room - 1)) (written members)) with
    | some ds => Reads (readWith (.record name fields) room) (Value.object members).write (.record ds)
    | none => Refuses (readWith (.record name fields) room) (Value.object members).write := by
  rw [write_object]
  exact record_outcome deep ((names_written members).symm ▸ proper.1) fun _ => ready_written judges proper.2

theorem object_of_reread {w : Value} (same : (Value.object members).reread = w.reread) :
    ∃ others, w = .object others := by
  cases w with
  | object others => exact ⟨others, rfl⟩
  | _ => cases same

theorem array_of_reread {w : Value} (same : (Value.array items).reread = w.reread) : ∃ others, w = .array others := by
  cases w with
  | array others => exact ⟨others, rfl⟩
  | _ => cases same

theorem record_list (name : String) (deep : 1 < room)
    (judges : ∀ field ∈ fields, Judges (readWith field.shape (room - 1))) (proper : ProperItems items) :
    (∃ ds, Fills ((fields.map (·.absence)).zip ((fieldReaders fields (room - 1)).map (·.2))) items ds) ∨
      Refuses (readWith (.record name fields) room) (Value.array items).write := by
  have shallow : ¬ room ≤ 1 := Nat.not_le.mpr deep
  have solid : isBlank (ascii '[') = false := by decide
  refine (fills_or_unclosed name fields.length (judges_readers judges) proper).imp_right fun unclosed rest _ => ?_
  rw [octets_array]
  simp only [readWith, skipBlank_solid solid, if_true, if_neg shallow]
  exact ((unclosed 0 rest).map _).inList

theorem record_scalar {v : Value} (proper : v.Proper) (list : ∀ items, v ≠ .array items)
    (object : ∀ members, v ≠ .object members) : Refuses (readWith (.record name fields) room) v.write := by
  intro rest _
  obtain ⟨b, more, front, begins⟩ := octets_write proper
  have bracket : b ≠ ascii '[' := fun same => (begins.list same).elim list
  have brace : b ≠ ascii '\x7b' := fun same => (begins.object same).elim object
  rw [front, List.cons_append]
  simp only [readWith, skipBlank_solid begins.solid, if_neg bracket, if_neg brace]
  exact ⟨_, rfl⟩

theorem judges_record (name : String) (deep : 1 < room)
    (judges : ∀ field ∈ fields, Judges (readWith field.shape (room - 1))) :
    Judges (readWith (.record name fields) room) where
  settled {v} proper := by
    cases v with
    | object members =>
      have outcome := record_object name deep judges proper
      split at outcome
      · exact .inl ⟨_, outcome⟩
      · exact .inr outcome
    | array items =>
      rcases record_list name deep judges proper with ⟨ds, fills⟩ | refuses
      · exact .inl ⟨_, readWith_listed deep fills⟩
      · exact .inr refuses
    | _ => exact .inr (record_scalar proper nofun nofun)
  again {v w d} proper other same reads := by
    cases v with
    | object members =>
      obtain ⟨others, rfl⟩ := object_of_reread same
      have outcomes : fields.mapM (fieldOutcome (fieldReaders fields (room - 1)) (written members)) =
          fields.mapM (fieldOutcome (fieldReaders fields (room - 1)) (written others)) :=
        mapM_congr fun field _ => fieldOutcome_again judges proper.2 other.2 (lookup_of_reread proper.1 other.1 same)
      have one := record_object name deep judges proper
      have two := record_object name deep judges other
      cases made : fields.mapM (fieldOutcome (fieldReaders fields (room - 1)) (written others)) with
      | some ds =>
        simp only [outcomes, made] at one two
        obtain rfl := reads.unique one
        exact two
      | none =>
        simp only [outcomes, made] at one
        exact absurd one reads.not_refuses
    | array items =>
      obtain ⟨others, rfl⟩ := array_of_reread same
      rcases record_list name deep judges proper with ⟨ds, fills⟩ | refuses
      · obtain rfl := reads.unique (readWith_listed deep fills)
        exact readWith_listed deep (fills.again (judges_readers judges) other (Value.array.inj same))
      · exact absurd refuses reads.not_refuses
    | _ => exact absurd (record_scalar proper nofun nofun) reads.not_refuses

end Records

end LanguageClient.Schema
