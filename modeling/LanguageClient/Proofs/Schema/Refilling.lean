import LanguageClient.Proofs.Schema.Restoring

/-! Objects are written with the members that they are read from again.

A record is filled from its own members, so it does not matter what else its object holds. The parts of a merged
record share one object; since no two of them claim the same name, each finds its own members there and no
others.
-/

set_option autoImplicit false
namespace LanguageClient.Schema

open Json (Value Cause Ordered Housed sortMembers)

/-! The fields of a record. -/

section Fields

variable {room : Nat} {fields : List (Field Schema)} {field : Field Schema} {ds : List Data} {d : Data}
  {self : Decoder} {detached : Bool} {members : List (String × Value)}

def fieldData (self : Decoder) (detached : Bool) (members : List (String × Value)) (field : Field Schema) :
    Except Cause Data :=
  match members.lookup field.name with
  | some v => field.shape.decodeWith self detached v
  | none => Absence.resolve field.name field.absence

theorem attempt_eq_map (fields : List (Field Schema)) : attempt fields self detached members =
    fields.map fun field => (members.lookup field.name).map (field.shape.decodeWith self detached) := by
  induction fields with
  | nil => rfl
  | cons field fields ih => rw [attempt, ih, List.map_cons]

theorem fill_attempt (fields : List (Field Schema)) :
    fill fields (attempt fields self detached members) = fields.mapM (fieldData self detached members) := by
  induction fields with
  | nil => rfl
  | cons field fields ih =>
    rw [attempt_eq_map] at ih
    rw [attempt_eq_map, List.map_cons, List.mapM_cons, ← ih, fieldData]
    cases members.lookup field.name <;> rfl

theorem firstFault?_eq_none {names : List String} {attempts : Attempts}
    (sound : ∀ cause, some (.error cause) ∉ attempts) : firstFault? names attempts members = none := by
  refine List.findSome?_eq_none_iff.mpr fun m _ => ?_
  obtain ⟨name, v⟩ := m
  dsimp only
  cases found : (names.zip attempts).lookup name with
  | none => rfl
  | some made =>
    have listed := (List.of_mem_zip (Json.mem_of_lookup found)).2
    rcases made with _ | ⟨cause | d⟩
    · rfl
    · exact absurd listed (sound cause)
    · rfl

theorem settle_eq_ok_iff : settle fields (attempt fields self detached members) members = .ok ds ↔
    List.Forall₂ (fun field d => fieldData self detached members field = .ok d) fields ds := by
  rw [← mapM_eq_ok_iff, ← fill_attempt, settle]
  constructor
  · intro settled
    split at settled
    · cases settled
    · exact settled
  · intro filled
    have sound : ∀ cause, some (.error cause) ∉ attempt fields self detached members := by
      intro cause listed
      rw [attempt_eq_map] at listed
      obtain ⟨field, among, failed⟩ := List.mem_map.mp listed
      rw [fill_attempt, mapM_eq_ok_iff] at filled
      have each := List.forall₂_and_left _ _ |>.mp (filled.imp fun field d taken =>
        (⟨⟨d, taken⟩, taken⟩ : (∃ d, fieldData self detached members field = .ok d) ∧ _))
      obtain ⟨d, taken⟩ := each.1 field among
      obtain ⟨v, stands, fails⟩ := Option.map_eq_some_iff.mp failed
      rw [fieldData, stands] at taken
      cases fails.symm.trans taken
    rw [firstFault?_eq_none sound]
    exact filled

def Supplied (room : Nat) (field : Field Schema) (d : Data) : Prop :=
  (∃ self detached v, v.Exact ∧ v.depth ≤ room ∧ field.shape.decodeWith self detached v = .ok d) ∨
    Absence.resolve field.name field.absence = .ok d

/-- The data is written to a member that is read to it again, or it is left out and made up for. -/
structure Kept (room : Nat) (field : Field Schema) (d : Data) : Prop where
  restores : Restores room field.shape d
  resolved : field.omitted = true → Absence.resolve field.name field.absence = .ok .absent

theorem supplied_of_settle (housed : Housed room members)
    (read : settle fields (attempt fields self detached members) members = .ok ds) :
    List.Forall₂ (Supplied room) fields ds := by
  refine (settle_eq_ok_iff.mp read).imp fun field d taken => ?_
  rw [fieldData] at taken
  cases found : members.lookup field.name with
  | none =>
    rw [found] at taken
    exact .inr taken
  | some v =>
    rw [found] at taken
    have listed := Json.mem_of_lookup found
    exact .inl ⟨self, detached, v, housed.exact _ listed, housed.fits _ listed, taken⟩

theorem supplied_of_items {name : String} {count length : Nat} : ∀ (fields : List (Field Schema)) {index : Nat}
    {items : List Value} {ds : List Data}, (∀ v ∈ items, v.Exact) → (∀ v ∈ items, v.depth ≤ room) →
      decodeItems fields name count length self detached index items = .ok ds → List.Forall₂ (Supplied room) fields ds
  | [], _, items, _, _, _, read => by
    cases items <;> cases read
    exact .nil
  | ⟨_, shape, absence, _⟩ :: fields, index, [], ds, exact, fits, read => by
    cases absence with
    | default e =>
      obtain ⟨others, later, rest⟩ := ok_of_bind read
      cases rest
      exact .cons (.inr rfl) (supplied_of_items fields exact fits later)
    | _ => cases read
  | ⟨_, shape, absence, _⟩ :: fields, index, item :: items, ds, exact, fits, read => by
    obtain ⟨d, first, read⟩ := ok_of_bind read
    obtain ⟨others, later, rest⟩ := ok_of_bind read
    cases rest
    obtain ⟨exact, exacts⟩ := List.forall_mem_cons.mp exact
    obtain ⟨fits, fit⟩ := List.forall_mem_cons.mp fits
    exact .cons (.inl ⟨self, detached, item, exact, fits, first⟩) (supplied_of_items fields exacts fit later)

theorem kept_of_supplied (restorable : Restorable room field.shape)
    (admitted : admits room field.shape field.omitted field.absence = true) (supplied : Supplied room field d) :
    Kept room field d where
  restores := by
    rcases supplied with ⟨self, detached, v, exact, fits, read⟩ | made
    · exact restorable.restores exact fits read
    · -- What stands for a missing member was read from none, so the schema is asked whether it could be.
      cases absence : field.absence with
      | refused =>
        rw [absence] at made
        cases made
      | optional =>
        rw [absence] at made admitted
        cases made
        exact restorable.of_vacant admitted
      | default e =>
        rw [absence] at made admitted
        cases made
        exact restorable.of_vacant (Bool.and_eq_true_iff.mp admitted).1
  resolved omitted := by
    rw [omitted] at admitted
    cases absence : field.absence with
    | refused =>
      rw [absence] at admitted
      cases admitted
    | optional => rfl
    | default e =>
      rw [absence] at admitted
      have absent : Data.isAbsent e = true := (Bool.and_eq_true_iff.mp admitted).2
      cases e <;> first | rfl | cases absent

/-! The members that the fields are written to. -/

variable {other : Data → Value}

theorem encodeFields_cons (field : Field Schema) (fields : List (Field Schema)) (d : Data) (ds : List Data) :
    encodeFields (field :: fields) other (d :: ds) =
      if field.omitted && Data.isAbsent d then encodeFields fields other ds
      else (field.name, field.shape.encodeWith other d) :: encodeFields fields other ds := rfl

theorem eq_absent (absent : Data.isAbsent d = true) : d = .absent := by
  cases d <;> first | rfl | cases absent

theorem names_encodeFields (fields : List (Field Schema)) (ds : List Data) :
    ((encodeFields fields other ds).map (·.1)).Sublist (fields.map (·.name)) := by
  induction fields generalizing ds with
  | nil => exact .slnil
  | cons field fields ih =>
    cases ds with
    | nil => exact List.nil_sublist _
    | cons d ds =>
      rw [encodeFields_cons]
      split
      · exact (ih ds).cons _
      · exact (ih ds).cons_cons _

theorem named_encodeFields : ∀ m ∈ encodeFields fields other ds, m.1 ∈ fields.map (·.name) :=
  fun _ listed => (names_encodeFields fields ds).subset (List.mem_map_of_mem listed)

theorem housed_encodeFields (nodup : (fields.map (·.name)).Nodup) (kept : List.Forall₂ (Kept room) fields ds) :
    Housed room (encodeFields fields other ds) := by
  have members : ∀ m ∈ encodeFields fields other ds, m.2.Exact ∧ m.2.depth ≤ room := by
    clear nodup
    induction kept with
    | nil => exact List.forall_mem_nil _
    | cons first _ ih =>
      rw [encodeFields_cons]
      split
      · exact ih
      · exact List.forall_mem_cons.mpr ⟨⟨first.restores.exact other, first.restores.fits other⟩, ih⟩
  exact ⟨(names_encodeFields fields ds).nodup nodup, fun m listed => (members m listed).1,
    fun m listed => (members m listed).2⟩

theorem refilled (nodup : (fields.map (·.name)).Nodup) (kept : List.Forall₂ (Kept room) fields ds)
    (same : ∀ field ∈ fields, members.lookup field.name = (encodeFields fields other ds).lookup field.name) :
    List.Forall₂ (fun field d => fieldData self detached members field = .ok d) fields ds := by
  induction kept with
  | nil => exact .nil
  | @cons field d fields ds first _ ih =>
    -- The names are distinct, so nothing of the other fields is found under this one's, nor the other way round.
    obtain ⟨apart, distinct⟩ := List.nodup_cons.mp nodup
    have stands := same field List.mem_cons_self
    have elsewhere : (encodeFields fields other ds).lookup field.name = none := Json.lookup_eq_none fun m listed same =>
      apart (same ▸ named_encodeFields m listed : field.name ∈ fields.map (·.name))
    rw [encodeFields_cons] at stands same
    constructor
    · split at stands
      · rename_i absent
        obtain ⟨omitted, absent⟩ := Bool.and_eq_true_iff.mp absent
        rw [fieldData, stands, elsewhere, eq_absent absent]
        exact first.resolved omitted
      · rw [List.lookup_cons_self] at stands
        rw [fieldData, stands]
        exact first.restores.again other self detached
    · refine ih distinct fun later listed => (same later (List.mem_cons_of_mem _ listed)).trans ?_
      split
      · rfl
      · have different : later.name ≠ field.name := fun named => apart (List.mem_map.mpr ⟨later, listed, named⟩)
        rw [List.lookup_cons, beq_false_of_ne different]

theorem settle_of_lookup (nodup : (fields.map (·.name)).Nodup) (kept : List.Forall₂ (Kept room) fields ds)
    (same : ∀ field ∈ fields, members.lookup field.name = (encodeFields fields other ds).lookup field.name) :
    settle fields (attempt fields self detached members) members = .ok ds :=
  settle_eq_ok_iff.mpr (refilled nodup kept same)

end Fields

/-- Fields whose data is restored, each under a name of its own. -/
structure Fillable (room : Nat) (fields : List (Field Schema)) : Prop where
  nodup : (fields.map (·.name)).Nodup
  shapes : ∀ field ∈ fields, Restorable room field.shape ∧ admits room field.shape field.omitted field.absence = true

section Records

variable {room : Nat} {fields : List (Field Schema)} {ds : List Data} {name : String}

theorem Fillable.kept (fillable : Fillable room fields) (supplied : List.Forall₂ (Supplied room) fields ds) :
    List.Forall₂ (Kept room) fields ds := by
  have each := (List.forall₂_and_left _ _).mpr ⟨fillable.shapes, supplied⟩
  exact each.imp fun _ _ ⟨⟨restorable, admitted⟩, made⟩ => kept_of_supplied restorable admitted made

theorem restores_record (nodup : (fields.map (·.name)).Nodup) (kept : List.Forall₂ (Kept room) fields ds) :
    Restores (room + 1) (.record name fields) (.record ds) where
  exact _ := (housed_encodeFields nodup kept).exact_ofMembers
  fits _ := (housed_encodeFields nodup kept).depth_ofMembers
  again other self detached := by
    have housed : Housed room (encodeFields fields other ds) := housed_encodeFields nodup kept
    have nodup_sorted := (housed.sorted.map (·.1)).nodup_iff.mpr housed.nodup
    have filled : settle fields (attempt fields self detached (sortMembers (encodeFields fields other ds)))
        (sortMembers (encodeFields fields other ds)) = .ok ds :=
      settle_of_lookup nodup kept fun field _ => Json.lookup_perm housed.sorted nodup_sorted
    exact congrArg (Except.map Data.record) filled

theorem restorable_record (fillable : Fillable room fields) : Restorable (room + 1) (.record name fields) :=
  .of_restores rfl fun {self detached v d} exact fits read => by
    cases v with
    | object members =>
      obtain ⟨ds, settled, rfl⟩ := ok_of_map read
      exact restores_record fillable.nodup (fillable.kept (supplied_of_settle (.of_object exact fits) settled))
    | array items =>
      obtain ⟨ds, taken, rfl⟩ := ok_of_map read
      exact restores_record fillable.nodup (fillable.kept (supplied_of_items fields (Json.exactItems_iff.mp exact)
        (Json.depthItems_le_iff.mp (Nat.le_of_succ_le_succ fits)) taken))
    | _ => cases read

end Records

/-! The entries of a map. -/

section Entries

variable {room : Nat} {uriNames : Bool} {item : Schema} {self : Decoder} {detached : Bool} {member : String × Value}
  {entry : String × Data} {members : List (String × Value)} {entries : List (String × Data)} {other : Data → Value}

def readEntry (uriNames : Bool) (item : Schema) (self : Decoder) (detached : Bool) (member : String × Value) :
    Except Cause (String × Data) := do
  if uriNames then let _ ← decodeUri member.1
  let d ← item.decodeWith self detached member.2
  .ok (member.1, d)

def writeEntry (item : Schema) (other : Data → Value) (entry : String × Data) : String × Value :=
  (entry.1, item.encodeWith other entry.2)

theorem decode_map : (Schema.map uriNames item).decodeWith self detached (.object members) =
    (members.mapM (readEntry uriNames item self detached)).map .entries := rfl

theorem encode_map : (Schema.map uriNames item).encodeWith other (.entries entries) =
    .ofMembers (entries.map (writeEntry item other)) := rfl

theorem readEntry_eq_ok_iff : readEntry uriNames item self detached member = .ok entry ↔
    (uriNames = true → ∃ d, decodeUri member.1 = .ok d) ∧
      ∃ d, item.decodeWith self detached member.2 = .ok d ∧ (member.1, d) = entry := by
  unfold readEntry
  cases uriNames <;> cases decodeUri member.1 <;> cases item.decodeWith self detached member.2 <;>
    simp [bind, Except.bind]

theorem names_entries (read : members.mapM (readEntry uriNames item self detached) = .ok entries) :
    members.map (·.1) = entries.map (·.1) := by
  have same : List.Forall₂ (· = ·) (members.map (·.1)) (entries.map (·.1)) := by
    rw [List.forall₂_map_left_iff, List.forall₂_map_right_iff]
    refine (mapM_eq_ok_iff.mp read).imp fun member entry taken => ?_
    obtain ⟨-, d, -, rfl⟩ := readEntry_eq_ok_iff.mp taken
    rfl
  rwa [List.forall₂_eq_eq_eq] at same

theorem names_writeEntry (item : Schema) (other : Data → Value) (entries : List (String × Data)) :
    (entries.map (writeEntry item other)).map (·.1) = entries.map (·.1) := by
  rw [List.map_map]
  rfl

theorem again_entries (restores : ∀ entry ∈ entries, Restores room item entry.2)
    (uris : ∀ entry ∈ entries, uriNames = true → ∃ d, decodeUri entry.1 = .ok d) :
    (entries.map (writeEntry item other)).mapM (readEntry uriNames item self detached) = .ok entries :=
  mapM_eq_ok_iff.mpr (List.forall₂_map_left_iff.mpr (List.forall₂_same.mpr fun entry listed =>
    readEntry_eq_ok_iff.mpr ⟨uris entry listed, _, (restores entry listed).again other self detached, rfl⟩))

theorem restorable_map (each : Restorable room item) : Restorable (room + 1) (.map uriNames item) :=
  .of_restores rfl fun {self detached v d} exact fits read => by
    cases v with
    | object members =>
      obtain ⟨entries, taken, rfl⟩ := ok_of_map read
      have housed := Housed.of_object exact fits
      have listed := mapM_eq_ok_iff.mp taken
      have restores : ∀ entry ∈ entries, Restores room item entry.2 :=
        forall_of_forall₂ listed (fun m among => And.intro (housed.exact m among) (housed.fits m among))
          fun m entry proper read => by
            obtain ⟨-, d, content, rfl⟩ := readEntry_eq_ok_iff.mp read
            exact each.restores proper.1 proper.2 content
      have uris : ∀ entry ∈ entries, uriNames = true → ∃ d, decodeUri entry.1 = .ok d :=
        forall_of_forall₂ listed (fun _ _ => trivial) fun m entry _ read => by
          obtain ⟨uri, d, -, rfl⟩ := readEntry_eq_ok_iff.mp read
          exact uri
      have ordered (other : Data → Value) : Ordered (entries.map (writeEntry item other)) := by
        have names : (members.map (·.1)).Pairwise (· < ·) := List.pairwise_map.mpr exact.1
        rw [names_entries taken, ← names_writeEntry item other] at names
        exact List.pairwise_map.mp names
      have written (other : Data → Value) : Housed room (entries.map (writeEntry item other)) :=
        ⟨Json.nodup_of_ordered (ordered other),
          List.forall_mem_map.mpr fun entry among => (restores entry among).exact other,
          List.forall_mem_map.mpr fun entry among => (restores entry among).fits other⟩
      refine ⟨fun other => (written other).exact_ofMembers, fun other => (written other).depth_ofMembers,
        fun other self detached => ?_⟩
      have again : (entries.map (writeEntry item other)).mapM (readEntry uriNames item self detached) = .ok entries :=
        again_entries restores uris
      rw [encode_map, Value.ofMembers, Json.sortMembers_ordered (ordered other), decode_map, again]
      rfl
    | _ => cases read

theorem names_of_map {d : Data} (nodup : (members.map (·.1)).Nodup)
    (read : (Schema.map uriNames item).decodeWith self detached (.object members) = .ok d) :
    ∀ m ∈ membersOf ((Schema.map uriNames item).encodeWith other d), m.1 ∈ members.map (·.1) := by
  obtain ⟨entries, taken, rfl⟩ := ok_of_map read
  rw [names_entries taken, ← names_writeEntry item other] at nodup ⊢
  intro m listed
  exact List.mem_map_of_mem ((Json.sortMembers_perm nodup).mem_iff.mp listed)

end Entries

/-! Parts that share one object. -/

section Parts

variable {room : Nat} {taken : List String} {part : Schema} {parts : List Schema} {ds : List Data} {d : Data}
  {self : Decoder} {members : List (String × Value)} {other : Data → Value}

/-- Data of the parts, of which no two are written under the same name, nor under one that is taken. -/
inductive Divided (room : Nat) : List String → List Schema → List Data → Prop where
  | done {taken : List String} : Divided room taken [] []
  | own {taken : List String} {name : String} {fields : List (Field Schema)} {parts : List Schema} {d : Data}
      {ds : List Data} (restores : Restores room (.record name fields) d)
      (apart : ∀ field ∈ fields, field.name ∉ taken)
      (others : Divided room (taken ++ fields.map (·.name)) parts ds) :
      Divided room taken (.record name fields :: parts) (d :: ds)
  | rest {taken : List String} {uriNames : Bool} {item : Schema} {d : Data}
      (restores : Restores room (.map uriNames item) d)
      (apart : ∀ other, ∀ m ∈ membersOf ((Schema.map uriNames item).encodeWith other d), m.1 ∉ taken) :
      Divided room taken [.map uriNames item] [d]

theorem decodeParts_record (name : String) (fields : List (Field Schema)) :
    decodeParts (.record name fields :: parts) self members = (do
      let d ← (Schema.record name fields).decodeWith self true
        (.object (members.filter fun m => (fields.map (·.name)).contains m.1))
      let ds ← decodeParts parts self (members.filter fun m => !(fields.map (·.name)).contains m.1)
      .ok (d :: ds)) := by
  rw [decodeParts]
  simp only [ownNames?, List.partition_eq_filter_filter]
  rfl

theorem decodeParts_map (uriNames : Bool) (item : Schema) :
    decodeParts (.map uriNames item :: parts) self members = (do
      let d ← (Schema.map uriNames item).decodeWith self true (.object members)
      let ds ← decodeParts parts self members
      .ok (d :: ds)) := rfl

theorem object_filter (keep : String × Value → Bool) (exact : (Value.object members).Exact)
    (fits : (Value.object members).depth ≤ room + 1) :
    (Value.object (members.filter keep)).Exact ∧ (Value.object (members.filter keep)).depth ≤ room + 1 := by
  have housed := Housed.of_object exact fits
  have kept : ∀ m ∈ members.filter keep, m.2.Exact ∧ m.2.depth ≤ room := fun m listed =>
    ⟨housed.exact m (List.mem_of_mem_filter listed), housed.fits m (List.mem_of_mem_filter listed)⟩
  exact ⟨⟨exact.1.filter _, Json.exactMembers_iff.mpr fun m listed => (kept m listed).1⟩,
    Nat.succ_le_succ (Json.depthMembers_le_iff.mpr fun m listed => (kept m listed).2)⟩

theorem divided_of_decode : ∀ (parts : List Schema) {taken : List String} {members : List (String × Value)}
    {ds : List Data}, (∀ part ∈ parts, Restorable (room + 1) part) → regularParts (room + 1) taken parts = true →
      (Value.object members).Exact → (Value.object members).depth ≤ room + 1 → (∀ m ∈ members, m.1 ∉ taken) →
        decodeParts parts self members = .ok ds → Divided (room + 1) taken parts ds
  | [], _, _, _, _, _, _, _, _, read => by
    cases read
    exact .done
  | part :: parts, taken, members, ds, restorable, regular, exact, fits, apart, read => by
    rw [regularParts, Bool.and_eq_true, Bool.and_eq_true] at regular
    obtain ⟨⟨-, claimed⟩, later⟩ := regular
    obtain ⟨one, others⟩ := List.forall_mem_cons.mp restorable
    cases part with
    | record name fields =>
      rw [decodeParts_record] at read
      obtain ⟨d, first, read⟩ := ok_of_bind read
      obtain ⟨ds, left, made⟩ := ok_of_bind read
      cases made
      -- The record takes the members under its own names; the parts behind it share the others.
      have own := object_filter (fun m => (fields.map (·.name)).contains m.1) exact fits
      have rest := object_filter (fun m => !(fields.map (·.name)).contains m.1) exact fits
      refine .own (one.restores own.1 own.2 first) ?_ (divided_of_decode parts others later rest.1 rest.2 ?_ left)
      · intro field listed
        have free := List.all_eq_true.mp claimed field.name (List.mem_map_of_mem listed)
        simpa using free
      · intro m listed
        obtain ⟨among, unclaimed⟩ := List.mem_filter.mp listed
        exact fun both => (List.mem_append.mp both).elim (apart m among) (by simpa using unclaimed)
    | map uriNames item =>
      -- A map takes all that is left, so a regular schema has it as the last part.
      obtain rfl : parts = [] := List.isEmpty_iff.mp claimed
      rw [decodeParts_map] at read
      obtain ⟨d, first, read⟩ := ok_of_bind read
      cases read
      refine .rest (one.restores exact fits first) fun other m listed => ?_
      obtain ⟨kept, among, same⟩ := List.mem_map.mp (names_of_map (Json.nodup_of_ordered exact.1) first m listed)
      exact same ▸ apart kept among
    | _ => cases claimed

theorem written_record {name : String} {fields : List (Field Schema)} (restores : Restores room (.record name fields) d)
    (other : Data → Value) : ∃ members, (Schema.record name fields).encodeWith other d = .object members ∧
      ∀ m ∈ members, m.1 ∈ fields.map (·.name) := by
  have some := restores.ne_null rfl other
  cases d with
  | record ds =>
    exact ⟨_, rfl, fun m listed => (names_encodeFields fields ds).subset (Json.name_of_sortMembers listed)⟩
  | _ => exact absurd rfl some

theorem written_map {uriNames : Bool} {item : Schema} (restores : Restores room (.map uriNames item) d)
    (other : Data → Value) : ∃ members, (Schema.map uriNames item).encodeWith other d = .object members := by
  have some := restores.ne_null rfl other
  cases d <;> first | exact ⟨_, rfl⟩ | exact absurd rfl some

theorem encodeParts_cons {own : List (String × Value)} (written : part.encodeWith other d = .object own) :
    encodeParts (part :: parts) other (d :: ds) = own ++ encodeParts parts other ds := by
  rw [encodeParts, written, membersOf]

theorem Restores.of_object {own : List (String × Value)} (restores : Restores (room + 1) part d)
    (written : part.encodeWith other d = .object own) :
    Ordered own ∧ Housed room own ∧ ∀ self, part.decodeWith self true (.object own) = .ok d := by
  have exact := restores.exact other
  have fits := restores.fits other
  rw [written] at exact fits
  exact ⟨exact.1, .of_object exact fits, fun self => written ▸ restores.again other self true⟩

theorem Divided.housed (divided : Divided (room + 1) taken parts ds) (other : Data → Value) :
    Housed room (encodeParts parts other ds) ∧ ∀ m ∈ encodeParts parts other ds, m.1 ∉ taken := by
  induction divided with
  | done => exact ⟨⟨.nil, List.forall_mem_nil _, List.forall_mem_nil _⟩, List.forall_mem_nil _⟩
  | @own taken name fields parts d ds restores apart others ih =>
    obtain ⟨later, free⟩ := ih
    obtain ⟨own, written, named⟩ := written_record restores other
    obtain ⟨-, first, -⟩ := restores.of_object written
    have unclaimed : ∀ m ∈ own, m.1 ∉ taken := fun m listed => by
      obtain ⟨field, among, same⟩ := List.mem_map.mp (named m listed)
      exact same ▸ apart field among
    rw [encodeParts_cons written]
    refine ⟨first.append later fun m mine k theirs same => ?_,
      List.forall_mem_append.mpr ⟨unclaimed, fun m listed both => free m listed (List.mem_append_left _ both)⟩⟩
    exact free k theirs (List.mem_append_right _ (same ▸ named m mine))
  | @rest taken uriNames item d restores apart =>
    obtain ⟨own, written⟩ := written_map restores other
    obtain ⟨-, mine, -⟩ := restores.of_object written
    have unclaimed := apart other
    rw [written] at unclaimed
    have whole : encodeParts [.map uriNames item] other [d] = own :=
      (encodeParts_cons written).trans (List.append_nil own)
    rw [whole]
    exact ⟨mine, unclaimed⟩

theorem told_apart {own rest : List (String × Value)} {names : List String} (perm : members.Perm (own ++ rest))
    (claimed : ∀ m ∈ own, m.1 ∈ names) (unclaimed : ∀ m ∈ rest, m.1 ∉ names) :
    (members.filter fun m => names.contains m.1).Perm own ∧
      (members.filter fun m => !names.contains m.1).Perm rest := by
  constructor
  · refine (perm.filter _).trans (.of_eq ?_)
    rw [List.filter_append, List.filter_eq_self.mpr, List.filter_eq_nil_iff.mpr, List.append_nil]
    · simpa using unclaimed
    · simpa using claimed
  · refine (perm.filter _).trans (.of_eq ?_)
    rw [List.filter_append, List.filter_eq_nil_iff.mpr, List.filter_eq_self.mpr, List.nil_append]
    · simpa using unclaimed
    · simpa using claimed

theorem Divided.again (divided : Divided (room + 1) taken parts ds) {members : List (String × Value)}
    (ordered : Ordered members) (perm : members.Perm (encodeParts parts other ds)) :
    decodeParts parts self members = .ok ds := by
  induction divided generalizing members with
  | done => rfl
  | @own taken name fields parts d ds restores apart others ih =>
    obtain ⟨own, written, named⟩ := written_record restores other
    obtain ⟨sorted, -, again⟩ := restores.of_object written
    rw [encodeParts_cons written] at perm
    obtain ⟨mine, left⟩ := told_apart perm named fun m listed both =>
      (others.housed other).2 m listed (List.mem_append_right _ both)
    rw [decodeParts_record, Json.eq_of_perm mine (ordered.filter _) sorted, again, ih (ordered.filter _) left]
    rfl
  | @rest taken uriNames item d restores apart =>
    obtain ⟨own, written⟩ := written_map restores other
    obtain ⟨sorted, -, again⟩ := restores.of_object written
    rw [encodeParts_cons written] at perm
    have mine : members = own := Json.eq_of_perm (perm.trans (.of_eq (List.append_nil own))) ordered sorted
    rw [decodeParts_map, mine, again]
    rfl

end Parts

section Merged

variable {room : Nat} {name : String} {fields : List (Field Schema)} {parts : List Schema} {own shared : List Data}

theorem encodeFields_append (same : fields.length = own.length) (other : Data → Value) :
    encodeFields fields other (own ++ shared) = encodeFields fields other own := by
  induction fields generalizing own with
  | nil => rfl
  | cons field fields ih =>
    cases own with
    | nil => cases same
    | cons d own => rw [List.cons_append, encodeFields_cons, encodeFields_cons, ih (Nat.succ.inj same)]

theorem encode_merged (same : fields.length = own.length) (other : Data → Value) :
    (Schema.merged name fields parts).encodeWith other (.record (own ++ shared)) =
      .ofMembers (encodeFields fields other own ++ encodeParts parts other shared) := by
  rw [encodeWith, encodeFields_append same, same, List.drop_left]

theorem decode_merged {self : Decoder} {detached : Bool} {members : List (String × Value)} :
    (Schema.merged name fields parts).decodeWith self detached (.object members) = (do
      let own ← settle fields (attempt fields self detached members) members
      let shared ← decodeParts parts self (members.filter fun m => !(fields.map (·.name)).contains m.1)
      .ok (.record (own ++ shared))) := rfl

theorem again_merged {self : Decoder} {detached : Bool} {members : List (String × Value)} {other : Data → Value}
    (nodup : (fields.map (·.name)).Nodup) (kept : List.Forall₂ (Kept room) fields own)
    (divided : Divided (room + 1) (fields.map (·.name)) parts shared) (ordered : Ordered members)
    (perm : members.Perm (encodeFields fields other own ++ encodeParts parts other shared)) :
    (Schema.merged name fields parts).decodeWith self detached (.object members) = .ok (.record (own ++ shared)) := by
  have free := (divided.housed other).2
  have same : ∀ field ∈ fields, members.lookup field.name = (encodeFields fields other own).lookup field.name := by
    intro field listed
    have elsewhere : (encodeParts parts other shared).lookup field.name = none :=
      Json.lookup_eq_none fun m among same => free m among (same ▸ List.mem_map_of_mem listed)
    rw [Json.lookup_perm perm (Json.nodup_of_ordered ordered), List.lookup_append, elsewhere, Option.or_none]
  have left := (told_apart perm named_encodeFields free).2
  rw [decode_merged, settle_of_lookup nodup kept same]
  exact congrArg (Except.map fun shared => Data.record (own ++ shared)) (divided.again (ordered.filter _) left)

theorem restores_merged (nodup : (fields.map (·.name)).Nodup) (kept : List.Forall₂ (Kept room) fields own)
    (divided : Divided (room + 1) (fields.map (·.name)) parts shared) :
    Restores (room + 1) (.merged name fields parts) (.record (own ++ shared)) := by
  have housed (other : Data → Value) : Housed room (encodeFields fields other own ++ encodeParts parts other shared) :=
    (housed_encodeFields nodup kept).append (divided.housed other).1 fun m first k second same =>
      (divided.housed other).2 k second (same ▸ named_encodeFields m first)
  have length := kept.length_eq
  refine ⟨fun other => ?_, fun other => ?_, fun other self detached => ?_⟩
  · rw [encode_merged length]
    exact (housed other).exact_ofMembers
  · rw [encode_merged length]
    exact (housed other).depth_ofMembers
  · rw [encode_merged length]
    exact again_merged nodup kept divided (Json.ordered_sortMembers _) (housed other).sorted

theorem restorable_merged (fillable : Fillable room fields) (each : ∀ part ∈ parts, Restorable (room + 1) part)
    (regular : regularParts (room + 1) (fields.map (·.name)) parts = true) :
    Restorable (room + 1) (.merged name fields parts) :=
  .of_restores rfl fun {self detached v d} exact fits read => by
    cases v with
    | object members =>
      obtain ⟨own, settled, read⟩ := ok_of_bind read
      obtain ⟨shared, divided, made⟩ := ok_of_bind read
      cases made
      have left := object_filter (fun m => !(fields.map (·.name)).contains m.1) exact fits
      refine restores_merged fillable.nodup (fillable.kept (supplied_of_settle (.of_object exact fits) settled))
        (divided_of_decode parts each regular left.1 left.2 (fun m listed => ?_) divided)
      simpa using (List.mem_filter.mp listed).2
    | _ => cases read

end Merged

/-! The first alternative that fits. -/

section Alternatives

variable {room : Nat} {name : String} {shape : Schema} {rest alternatives : List Schema}

/-- The alternative is written to a value that no earlier one takes. -/
structure Chosen (room : Nat) (alternatives : List Schema) (index : Nat) (d : Data) : Prop where
  exact (other : Data → Value) : (encodeChoice alternatives other index d).Exact
  fits (other : Data → Value) : (encodeChoice alternatives other index d).depth ≤ room
  again (other : Data → Value) (self : Decoder) (start : Nat) :
    decodeFirst alternatives self start (encodeChoice alternatives other index d) = some (.choice (start + index) d)

theorem Chosen.here {d : Data} (restores : Restores room shape d) : Chosen room (shape :: rest) 0 d where
  exact := restores.exact
  fits := restores.fits
  again other self start := by
    rw [encodeChoice, decodeFirst, restores.again other self true]
    rfl

theorem Chosen.later {index : Nat} {d : Data} (apart : apart shape rest = true) (chosen : Chosen room rest index d) :
    Chosen room (shape :: rest) (index + 1) d where
  exact := chosen.exact
  fits := chosen.fits
  again other self start := by
    have again := chosen.again other self (start + 1)
    have accepted := acceptsAny_of_decode rest again
    rw [encodeChoice, decodeFirst]
    cases first : shape.decodeWith self true (encodeChoice rest other index d) with
    | ok e =>
      have both := List.all_eq_true.mp apart _ (Json.Kind.mem_all (encodeChoice rest other index d).kind)
      rw [accepts_of_decode shape first, accepted] at both
      cases both
    | error e =>
      rw [Nat.add_right_comm, Nat.add_assoc] at again
      exact again

theorem chosen_of_decode : ∀ (alternatives : List Schema) {self : Decoder} {start : Nat} {v : Value} {d : Data},
    (∀ shape ∈ alternatives, Restorable room shape) → regularAlternatives room alternatives = true → v.Exact →
      v.depth ≤ room → decodeFirst alternatives self start v = some d →
        ∃ index content, d = .choice (start + index) content ∧ Chosen room alternatives index content
  | [], _, _, _, _, _, _, _, _, read => by cases read
  | shape :: rest, self, start, v, d, restorable, regular, exact, fits, read => by
    obtain ⟨one, others⟩ := List.forall_mem_cons.mp restorable
    rw [regularAlternatives, Bool.and_eq_true, Bool.and_eq_true] at regular
    obtain ⟨⟨-, apart⟩, later⟩ := regular
    rw [decodeFirst] at read
    -- An alternative that fits ends the search; else the one that is found stands further behind.
    cases first : shape.decodeWith self true v with
    | ok content =>
      rw [first] at read
      cases read
      exact ⟨0, content, rfl, .here (one.restores exact fits first)⟩
    | error e =>
      rw [first] at read
      obtain ⟨index, content, rfl, chosen⟩ := chosen_of_decode rest others later exact fits read
      refine ⟨index + 1, content, ?_, chosen.later apart⟩
      rw [Nat.add_right_comm, Nat.add_assoc]

theorem refuses_null : ∀ {alternatives : List Schema}, regularAlternatives room alternatives = true →
    acceptsAny alternatives .null = false
  | [], _ => rfl
  | shape :: rest, regular => by
    rw [regularAlternatives, Bool.and_eq_true, Bool.and_eq_true, Bool.and_eq_true] at regular
    rw [acceptsAny, (Bool.not_eq_true' _).mp regular.1.1.2, refuses_null regular.2]
    rfl

theorem restorable_untagged (each : ∀ shape ∈ alternatives, Restorable room shape)
    (regular : regularAlternatives room alternatives = true) : Restorable room (.untagged name alternatives) :=
  .of_restores (refuses_null regular) fun {self detached v d} exact fits read => by
    rw [decodeWith] at read
    cases first : decodeFirst alternatives self 0 v with
    | none =>
      rw [first] at read
      cases read
    | some e =>
      rw [first] at read
      cases read
      obtain ⟨index, content, rfl, chosen⟩ := chosen_of_decode alternatives each regular exact fits first
      rw [Nat.zero_add]
      refine ⟨chosen.exact, chosen.fits, fun other self detached => ?_⟩
      have again := chosen.again other self 0
      rw [Nat.zero_add] at again
      rw [encodeWith, decodeWith, again]

end Alternatives

/-! Schemas of any shape. -/

mutual
/-- What is read by a regular schema is written to a value that is read to the same again. -/
theorem restorable_of_regular : ∀ {room : Nat} (schema : Schema), regular room schema = true → Restorable room schema
  | _, .unit, _ => restorable_unit
  | _, .value, _ => restorable_value
  | _, .boolean, _ => restorable_boolean
  | _, .text, _ => restorable_text
  | _, .uri, _ => restorable_uri
  | _, .integer range, _ => restorable_integer range
  | _, .variant names, _ => restorable_variant names
  | _, .option content, regular => restorable_option (restorable_of_regular content regular)
  | _ + 1, .list item, regular => restorable_list (restorable_of_regular item regular)
  | _ + 1, .map _ item, regular => restorable_map (restorable_of_regular item regular)
  | _ + 1, .record _ fields, regular => by
    obtain ⟨shapes, nodup⟩ := Bool.and_eq_true_iff.mp regular
    exact restorable_record ⟨of_decide_eq_true nodup, restorable_fields fields shapes⟩
  | _ + 1, .merged _ fields parts, regular => by
    obtain ⟨own, shared⟩ := Bool.and_eq_true_iff.mp regular
    obtain ⟨shapes, nodup⟩ := Bool.and_eq_true_iff.mp own
    exact restorable_merged ⟨of_decide_eq_true nodup, restorable_fields fields shapes⟩
      (restorable_parts parts shared) shared
  | _, .untagged _ alternatives, regular => restorable_untagged (restorable_alternatives alternatives regular) regular
  | _, .toggled content whenTrue, regular => by
    rw [Schema.regular, Bool.and_eq_true, Bool.and_eq_true, Bool.and_eq_true] at regular
    obtain ⟨⟨⟨content_regular, empty⟩, nulls⟩, booleans⟩ := regular
    exact restorable_toggled (restorable_of_regular content content_regular) empty ((Bool.not_eq_true' _).mp nulls)
      ((Bool.not_eq_true' _).mp booleans)

theorem restorable_fields : ∀ {room : Nat} (fields : List (Field Schema)), regularFields room fields = true →
    ∀ field ∈ fields, Restorable room field.shape ∧ admits room field.shape field.omitted field.absence = true
  | _, [], _ => List.forall_mem_nil _
  | _, ⟨_, shape, _, _⟩ :: fields, regular => by
    rw [regularFields, Bool.and_eq_true, Bool.and_eq_true] at regular
    obtain ⟨⟨first, admitted⟩, others⟩ := regular
    exact List.forall_mem_cons.mpr ⟨⟨restorable_of_regular shape first, admitted⟩, restorable_fields fields others⟩

theorem restorable_parts : ∀ {room : Nat} {taken : List String} (parts : List Schema),
    regularParts room taken parts = true → ∀ part ∈ parts, Restorable room part
  | _, _, [], _ => List.forall_mem_nil _
  | _, _, part :: parts, regular => by
    rw [regularParts, Bool.and_eq_true, Bool.and_eq_true] at regular
    exact List.forall_mem_cons.mpr ⟨restorable_of_regular part regular.1.1, restorable_parts parts regular.2⟩

theorem restorable_alternatives : ∀ {room : Nat} (alternatives : List Schema),
    regularAlternatives room alternatives = true → ∀ shape ∈ alternatives, Restorable room shape
  | _, [], _ => List.forall_mem_nil _
  | _, shape :: rest, regular => by
    rw [regularAlternatives, Bool.and_eq_true, Bool.and_eq_true, Bool.and_eq_true] at regular
    exact List.forall_mem_cons.mpr ⟨restorable_of_regular shape regular.1.1.1, restorable_alternatives rest regular.2⟩
end

end LanguageClient.Schema
