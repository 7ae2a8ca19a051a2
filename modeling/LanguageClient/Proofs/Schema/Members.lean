import LanguageClient.Proofs.Json.Nesting
import LanguageClient.Proofs.Json.Reread
import LanguageClient.Proofs.Schema.Record

/-! A record is read from its own members alone.

What a reader makes of a written value does not depend on what comes behind. So the reading of an
object comes down to what each field makes of its member: neither the order of the members counts, nor
any member that is no field.
-/

set_option autoImplicit false
namespace LanguageClient.Schema

open Json

def Refuses (reader : List UInt8 → Except Failure (Data × List UInt8)) (text : List Char) : Prop :=
  ∀ ⦃rest : List UInt8⦄, Stops rest → Fails (reader (octets text ++ rest))

/-- The text alone decides what the reader makes of it. -/
def Settled (reader : List UInt8 → Except Failure (Data × List UInt8)) (text : List Char) : Prop :=
  (∃ d, Reads reader text d) ∨ Refuses reader text

def taken? (reader : List UInt8 → Except Failure (Data × List UInt8)) (text : List Char) : Option Data :=
  match reader (octets text) with
  | .ok (d, _) => some d
  | .error _ => none

section Taken

variable {reader : List UInt8 → Except Failure (Data × List UInt8)} {text : List Char} {d : Data}

theorem taken?_of_reads (reads : Reads reader text d) : taken? reader text = some d := by
  have whole := reads stops_nil
  rw [List.append_nil] at whole
  simp only [taken?, whole]

theorem taken?_of_refuses (refuses : Refuses reader text) : taken? reader text = none := by
  obtain ⟨f, whole⟩ := refuses stops_nil
  rw [List.append_nil] at whole
  simp only [taken?, whole]

end Taken

theorem read_of_refuses {schema : Schema} {text : List Char}
    (refuses : Refuses (readWith schema nestingLimit) text) : ∃ e, schema.read (octets text) = .error e := by
  obtain ⟨f, whole⟩ := refuses stops_nil
  rw [List.append_nil] at whole
  simp only [Schema.read, readAll, whole]
  exact ⟨_, rfl⟩

/-! Members one after the other. -/

section Members

variable {readers : List (String × (List UInt8 → Except Failure (Data × List UInt8)))}
  {reader : List UInt8 → Except Failure (Data × List UInt8)} {read found : List (String × Data)}
  {members : List (String × List Char)} {name : String} {text : List Char} {fuel : Nat} {first : Bool}
  {bytes rest : List UInt8}

/-- Some member is refused by the reader of its field; those before it are read. -/
inductive Spurns (readers : List (String × (List UInt8 → Except Failure (Data × List UInt8)))) :
    List (String × Data) → List (String × List Char) → Prop where
  | refused {name : String} {text : List Char} {members : List (String × List Char)} {read : List (String × Data)}
      {reader : List UInt8 → Except Failure (Data × List UInt8)} (listed : readers.lookup name = some reader)
      (refuses : Refuses reader text) : Spurns readers read ((name, text) :: members)
  | passed {name : String} {text : List Char} {members : List (String × List Char)} {read : List (String × Data)}
      (unread : readers.lookup name = none) (passed : Passed text) (others : Spurns readers read members) :
      Spurns readers read ((name, text) :: members)
  | taken {name : String} {text : List Char} {members : List (String × List Char)} {d : Data}
      {reader : List UInt8 → Except Failure (Data × List UInt8)} {read : List (String × Data)}
      (listed : readers.lookup name = some reader) (fresh : read.lookup name = none) (reads : Reads reader text d)
      (others : Spurns readers ((name, d) :: read) members) : Spurns readers read ((name, text) :: members)

/-- A member that is no field is passed over, and the reader of a field settles its member. -/
def Ready (readers : List (String × (List UInt8 → Except Failure (Data × List UInt8))))
    (member : String × List Char) : Prop :=
  Passed member.2 ∧ ∀ reader, readers.lookup member.1 = some reader → Settled reader member.2

theorem takes_or_spurns (nodup : (members.map (·.1)).Nodup) (fresh : ∀ member ∈ members, read.lookup member.1 = none)
    (ready : ∀ member ∈ members, Ready readers member) :
    (∃ found, Takes readers read members found) ∨ Spurns readers read members := by
  induction members generalizing read with
  | nil => exact .inl ⟨read, .done⟩
  | cons member members ih =>
    obtain ⟨name, text⟩ := member
    obtain ⟨apart, later⟩ := List.nodup_cons.mp nodup
    obtain ⟨passed, settled⟩ := ready _ List.mem_cons_self
    have others := fun member listed => ready member (List.mem_cons_of_mem _ listed)
    have unread := fun member listed => fresh member (List.mem_cons_of_mem _ listed)
    cases listed : readers.lookup name with
    | none =>
      exact (ih later unread others).imp (fun ⟨found, takes⟩ => ⟨found, .passed listed passed takes⟩)
        (.passed listed passed)
    | some reader =>
      rcases settled reader listed with ⟨d, reads⟩ | refuses
      · have new : ∀ member ∈ members, ((name, d) :: read).lookup member.1 = none := fun member listed => by
          have different : member.1 ≠ name := fun same => apart (List.mem_map.mpr ⟨member, listed, same⟩)
          rw [List.lookup_cons, beq_false_of_ne different]
          exact unread member listed
        have unused := fresh _ List.mem_cons_self
        exact (ih later new others).imp (fun ⟨found, takes⟩ => ⟨found, .taken listed unused reads takes⟩)
          (.taken listed unused reads)
      · exact .inr (.refused listed refuses)

theorem lookup_of_takes (takes : Takes readers read members found) (listed : readers.lookup name = some reader)
    (nodup : (members.map (·.1)).Nodup) :
    match members.lookup name with
    | some text => ∃ d, Reads reader text d ∧ found.lookup name = some d
    | none => found.lookup name = read.lookup name := by
  induction takes with
  | done => rfl
  | @passed other text members read found unread passed others ih =>
    have different : name ≠ other := by
      rintro rfl
      rw [unread] at listed
      cases listed
    rw [List.lookup_cons, beq_false_of_ne different]
    exact ih (List.nodup_cons.mp nodup).2
  | @taken other text members d taker read found named fresh reads others ih =>
    obtain ⟨apart, later⟩ := List.nodup_cons.mp nodup
    have onward := ih later
    by_cases same : name = other
    · -- No later member has the name, so what is found stays what was read from this one.
      subst same
      have gone : members.lookup name = none := by
        cases kept : members.lookup name with
        | none => rfl
        | some text => exact absurd (List.mem_map.mpr ⟨_, mem_of_lookup kept, rfl⟩) apart
      rw [gone] at onward
      rw [List.lookup_cons_self]
      obtain rfl := Option.some.inj (listed.symm.trans named)
      exact ⟨d, reads, onward.trans List.lookup_cons_self⟩
    · rw [List.lookup_cons, beq_false_of_ne same]
      rw [List.lookup_cons, beq_false_of_ne same] at onward
      exact onward

theorem refused_of_spurns (spurns : Spurns readers read members) :
    ∃ name text reader, (name, text) ∈ members ∧ readers.lookup name = some reader ∧ Refuses reader text := by
  induction spurns with
  | refused listed refuses => exact ⟨_, _, _, List.mem_cons_self, listed, refuses⟩
  | passed _ _ _ ih | taken _ _ _ _ ih =>
    obtain ⟨name, text, reader, member, refused⟩ := ih
    exact ⟨name, text, reader, List.mem_cons_of_mem _ member, refused⟩

theorem readMembersBy_refused (named : nextName first bytes = .ok (some (name, ascii ':' :: (octets text ++ rest))))
    (listed : readers.lookup name = some reader) (refuses : Refuses reader text) (stops : Stops rest) :
    Fails (readMembersBy readers (fuel + 1) first read bytes) := by
  obtain ⟨f, refused⟩ := refuses stops
  simp only [readMembersBy, named, listed, bind, Except.bind, readColon_written, refused]
  split <;> exact ⟨_, rfl⟩

theorem spurned_later (spurns : Spurns readers read members) (enough : members.length < fuel) :
    Fails (readMembersBy readers fuel false read (octets (laterNamed members) ++ ascii '\x7d' :: rest)) := by
  induction spurns generalizing fuel with
  | refused listed refuses =>
    obtain ⟨fuel, rfl⟩ : ∃ more, fuel = more + 1 := Nat.exists_eq_add_of_le' (by omega)
    rw [octets_laterNamed]
    exact readMembersBy_refused (nextName_later _ _) listed refuses (stops_laterNamed _ _)
  | passed unread passed others ih =>
    obtain ⟨fuel, rfl⟩ : ∃ more, fuel = more + 1 := Nat.exists_eq_add_of_le' (by omega)
    rw [octets_laterNamed, readMembersBy_passed (nextName_later _ _) unread passed (stops_laterNamed _ _)]
    exact ih (Nat.lt_of_succ_lt_succ enough)
  | taken listed fresh reads others ih =>
    obtain ⟨fuel, rfl⟩ : ∃ more, fuel = more + 1 := Nat.exists_eq_add_of_le' (by omega)
    rw [octets_laterNamed, readMembersBy_taken (nextName_later _ _) listed fresh reads (stops_laterNamed _ _)]
    exact ih (Nat.lt_of_succ_lt_succ enough)

theorem spurned (spurns : Spurns readers read ((name, text) :: members)) (enough : members.length + 1 < fuel) :
    Fails (readMembersBy readers fuel true read
      (octets (named name text) ++ (octets (laterNamed members) ++ ascii '\x7d' :: rest))) := by
  obtain ⟨fuel, rfl⟩ : ∃ more, fuel = more + 1 := Nat.exists_eq_add_of_le' (by omega)
  cases spurns with
  | refused listed refuses =>
    exact readMembersBy_refused (nextName_first _ _) listed refuses (stops_laterNamed _ _)
  | passed unread passed others =>
    rw [readMembersBy_passed (nextName_first _ _) unread passed (stops_laterNamed _ _)]
    exact spurned_later others (Nat.lt_of_succ_lt_succ enough)
  | taken listed fresh reads others =>
    rw [readMembersBy_taken (nextName_first _ _) listed fresh reads (stops_laterNamed _ _)]
    exact spurned_later others (Nat.lt_of_succ_lt_succ enough)

end Members

/-! What the fields come to. -/

section Fields

variable {readers : List (String × (List UInt8 → Except Failure (Data × List UInt8)))}
  {fields : List (Field Schema)} {members : List (String × List Char)} {found : List (String × Data)}
  {name : String} {room : Nat} {rest : List UInt8}

/-- What a field makes of its member, or of none. -/
def fieldOutcome (readers : List (String × (List UInt8 → Except Failure (Data × List UInt8))))
    (members : List (String × List Char)) (field : Field Schema) : Option Data :=
  match members.lookup field.name with
  | some written => (readers.lookup field.name).bind (taken? · written)
  | none => (Absence.resolve field.name field.absence).toOption

theorem listed_of_mem {field : Field Schema} (member : field ∈ fields) :
    ∃ reader, (fieldReaders fields room).lookup field.name = some reader := by
  induction fields with
  | nil => cases member
  | cons other fields ih =>
    obtain ⟨otherName, shape, absence, omitted⟩ := other
    rw [fieldReaders, List.lookup_cons]
    split
    · exact ⟨_, rfl⟩
    · rename_i different
      rcases List.mem_cons.mp member with rfl | member
      · exact absurd (beq_self_eq_true otherName) (ne_true_of_eq_false different)
      · exact ih member

theorem field_of_listed {reader : List UInt8 → Except Failure (Data × List UInt8)}
    (listed : (fieldReaders fields room).lookup name = some reader) :
    ∃ field ∈ fields, field.name = name ∧ reader = readWith field.shape room := by
  induction fields with
  | nil => cases listed
  | cons other fields ih =>
    obtain ⟨otherName, shape, absence, omitted⟩ := other
    rw [fieldReaders, List.lookup_cons] at listed
    split at listed
    · rename_i same
      cases listed
      exact ⟨_, List.mem_cons_self, (eq_of_beq same).symm, rfl⟩
    · obtain ⟨field, member, named, same⟩ := ih listed
      exact ⟨field, List.mem_cons_of_mem _ member, named, same⟩

theorem outcome_of_takes {field : Field Schema} (takes : Takes readers [] members found)
    (listed : ∃ reader, readers.lookup field.name = some reader) (nodup : (members.map (·.1)).Nodup) :
    fieldOutcome readers members field =
      match found.lookup field.name with
      | some d => some d
      | none => (Absence.resolve field.name field.absence).toOption := by
  obtain ⟨reader, listed⟩ := listed
  have kept := lookup_of_takes takes listed nodup
  rw [fieldOutcome]
  cases stands : members.lookup field.name with
  | none =>
    rw [stands] at kept
    rw [kept]
    rfl
  | some written =>
    rw [stands] at kept
    obtain ⟨d, reads, kept⟩ := kept
    rw [kept, listed]
    exact taken?_of_reads reads

theorem fill_of_outcomes (same : ∀ field ∈ fields, fieldOutcome readers members field =
      match found.lookup field.name with
      | some d => some d
      | none => (Absence.resolve field.name field.absence).toOption) :
    (fill fields (fields.map fun field => (found.lookup field.name).map .ok)).toOption =
      fields.mapM (fieldOutcome readers members) := by
  induction fields with
  | nil => rfl
  | cons field fields ih =>
    have first := same field List.mem_cons_self
    have others := ih fun field member => same field (List.mem_cons_of_mem _ member)
    rw [List.map_cons, List.mapM_cons, ← others, first]
    cases found.lookup field.name with
    | some d => cases filled : fill fields _ <;> simp [fill, filled, bind, Except.bind, Except.toOption]
    | none =>
      cases resolved : Absence.resolve field.name field.absence <;>
        cases filled : fill fields _ <;> simp [fill, filled, resolved, bind, Except.bind, Except.toOption]

theorem mapM_congr {α β : Type} {f g : α → Option β} {entries : List α} (same : ∀ a ∈ entries, f a = g a) :
    entries.mapM f = entries.mapM g := by
  induction entries with
  | nil => rfl
  | cons entry entries ih =>
    have others := ih fun a member => same a (List.mem_cons_of_mem _ member)
    rw [List.mapM_cons, List.mapM_cons, same entry List.mem_cons_self, others]

theorem mapM_none {α β : Type} {f : α → Option β} {a : α} {entries : List α} (member : a ∈ entries)
    (fails : f a = none) : entries.mapM f = none := by
  induction entries with
  | nil => cases member
  | cons entry entries ih =>
    rw [List.mapM_cons]
    rcases List.mem_cons.mp member with rfl | member
    · rw [fails]
      rfl
    · rw [ih member]
      cases f entry <;> rfl

theorem readWith_members (deep : 1 < room) (members : List (String × List Char)) (rest : List UInt8) :
    ∃ reading, readWith (.record name fields) room (octets (writeRecord members) ++ rest) =
        inObject (reading >>= fun (read, left) => collect fields read left) ∧
      (∀ found, Takes (fieldReaders fields (room - 1)) [] members found → reading = .ok (found, ascii '\x7d' :: rest)) ∧
      (Spurns (fieldReaders fields (room - 1)) [] members → Fails reading) := by
  obtain _ | ⟨⟨first, text⟩, members⟩ := members
  · refine ⟨_, readWith_opened deep, fun found takes => ?_, nofun⟩
    cases takes
    exact readMembersBy_end (nextName_end true)
  · rw [octets_writeRecord]
    exact ⟨_, readWith_opened deep, fun found takes => readMembersBy_written takes (length_members _ _ _ _),
      fun spurns => spurned spurns (length_members _ _ _ _)⟩

/-- A record is read to what each field makes of its own member, and refused if a field makes nothing of it. -/
theorem record_outcome (deep : 1 < room) (nodup : (members.map (·.1)).Nodup)
    (ready : ∀ member ∈ members, Ready (fieldReaders fields (room - 1)) member) :
    match fields.mapM (fieldOutcome (fieldReaders fields (room - 1)) members) with
    | some ds => Reads (readWith (.record name fields) room) (writeRecord members) (.record ds)
    | none => Refuses (readWith (.record name fields) room) (writeRecord members) := by
  have unread : ∀ member ∈ members, ([] : List (String × Data)).lookup member.1 = none := fun _ _ => rfl
  rcases takes_or_spurns nodup unread ready with ⟨found, takes⟩ | spurns
  · have same := fill_of_outcomes fun field member => outcome_of_takes takes (listed_of_mem member) nodup
    rw [← same]
    cases filled : fill fields _ with
    | ok ds =>
      intro rest _
      obtain ⟨reading, read, taken, -⟩ := readWith_members deep members rest
      rw [read, taken found takes]
      simp only [bind, Except.bind, collect, filled, inObject, closeObject_written]
      rfl
    | error cause =>
      intro rest _
      obtain ⟨reading, read, taken, -⟩ := readWith_members deep members rest
      rw [read, taken found takes]
      simp only [bind, Except.bind, collect, filled]
      exact ⟨_, rfl⟩
  · obtain ⟨other, text, reader, member, listed, refuses⟩ := refused_of_spurns spurns
    obtain ⟨field, among, rfl, -⟩ := field_of_listed listed
    have stands : members.lookup field.name = some text := lookup_of_mem nodup member
    have refused : fieldOutcome (fieldReaders fields (room - 1)) members field = none := by
      rw [fieldOutcome, stands, listed]
      exact taken?_of_refuses refuses
    rw [mapM_none among refused]
    intro rest _
    obtain ⟨reading, read, -, failed⟩ := readWith_members deep members rest
    obtain ⟨f, rfl⟩ := failed spurns
    rw [read]
    exact ⟨_, rfl⟩

end Fields

end LanguageClient.Schema
