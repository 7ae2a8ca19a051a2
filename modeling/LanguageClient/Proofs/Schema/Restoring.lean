import LanguageClient.Proofs.Result
import LanguageClient.Proofs.Schema.Regular

/-! Data that was read is written to a value that is read to the same data.

This holds for every regular schema, though the value need not be the one that was read: a record that came as
a list is written as an object, and what was left out or had no room in the data is not written again.
-/

set_option autoImplicit false
namespace LanguageClient

open Json (Value Cause Ordered ExactItems ExactMembers sortMembers insertMember depthItems depthMembers)

namespace Json

/-! Members in order, and what holds of each of them. -/

section Members

variable {α : Type} {members others : List (String × α)} {name : String} {value : α}

theorem mem_insertMember {member : String × α} (listed : member ∈ insertMember name value members) :
    member.1 = name ∨ member ∈ members := by
  induction members with
  | nil => exact .inl (List.mem_singleton.mp listed ▸ rfl)
  | cons first members ih =>
    rw [insertMember] at listed
    split at listed
    · rcases List.mem_cons.mp listed with rfl | later
      · exact .inl rfl
      · exact .inr (List.mem_cons_of_mem _ later)
    · split at listed
      · rcases List.mem_cons.mp listed with rfl | later
        · exact .inl rfl
        · exact .inr later
      · rcases List.mem_cons.mp listed with rfl | later
        · exact .inr List.mem_cons_self
        · exact (ih later).imp_right (List.mem_cons_of_mem _)

theorem ordered_insertMember (ordered : Ordered members) : Ordered (insertMember name value members) := by
  induction members with
  | nil => exact List.pairwise_singleton _ _
  | cons first members ih =>
    obtain ⟨other, kept⟩ := first
    obtain ⟨before, later⟩ := List.pairwise_cons.mp ordered
    rw [insertMember]
    split
    · rename_i same
      exact List.pairwise_cons.mpr ⟨fun member listed => same ▸ before member listed, later⟩
    · -- The new member stands before the first one, or somewhere behind it.
      rename_i different
      split
      · rename_i sooner
        refine List.pairwise_cons.mpr ⟨fun member listed => ?_, ordered⟩
        rcases List.mem_cons.mp listed with rfl | listed
        · exact sooner
        · exact String.lt_trans sooner (before member listed)
      · rename_i sooner
        refine List.pairwise_cons.mpr ⟨fun member listed => ?_, ih later⟩
        rcases mem_insertMember listed with same | listed
        · rw [same]
          exact String.not_le.mp fun le => different (String.le_antisymm le (String.not_lt.mp sooner))
        · exact before member listed

theorem ordered_sortMembers (members : List (String × α)) : Ordered (sortMembers members) := by
  rw [sortMembers]
  exact List.foldlRecOn members _ List.Pairwise.nil fun _ ordered _ _ => ordered_insertMember ordered

theorem name_of_sortMembers {member : String × α} (listed : member ∈ sortMembers members) :
    member.1 ∈ members.map (·.1) := by
  have named : ∀ m ∈ sortMembers members, m.1 ∈ members.map (·.1) := by
    rw [sortMembers]
    refine List.foldlRecOn (motive := fun sorted : List (String × α) => ∀ m ∈ sorted, m.1 ∈ members.map (·.1)) members _
      (List.forall_mem_nil _) fun sorted earlier added among m inserted => ?_
    rcases mem_insertMember inserted with same | before
    · exact same ▸ List.mem_map_of_mem among
    · exact earlier m before
  exact named member listed

theorem lookup_eq_none (apart : ∀ m ∈ members, m.1 ≠ name) : members.lookup name = none :=
  List.lookup_eq_none_iff.mpr fun m listed => bne_iff_ne.mpr (apart m listed).symm

theorem eq_of_perm (perm : members.Perm others) (first : Ordered members) (second : Ordered others) :
    members = others :=
  perm.eq_of_pairwise (fun _ _ _ _ before after => absurd after (String.lt_asymm before)) first second

end Members

theorem exactItems_iff {items : List Value} : ExactItems items ↔ ∀ v ∈ items, v.Exact := by
  induction items with
  | nil => simp [ExactItems]
  | cons v items ih => rw [ExactItems, ih, List.forall_mem_cons]

theorem exactMembers_iff {members : List (String × Value)} : ExactMembers members ↔ ∀ m ∈ members, m.2.Exact := by
  induction members with
  | nil => simp [ExactMembers]
  | cons m members ih => rw [ExactMembers, ih, List.forall_mem_cons]

theorem depthItems_le_iff {items : List Value} {n : Nat} : depthItems items ≤ n ↔ ∀ v ∈ items, v.depth ≤ n := by
  induction items with
  | nil => simp [depthItems]
  | cons v items ih => rw [depthItems, Nat.max_le, ih, List.forall_mem_cons]

theorem depthMembers_le_iff {members : List (String × Value)} {n : Nat} :
    depthMembers members ≤ n ↔ ∀ m ∈ members, m.2.depth ≤ n := by
  induction members with
  | nil => simp [depthMembers]
  | cons m members ih => rw [depthMembers, Nat.max_le, ih, List.forall_mem_cons]

/-- Members that may stand in an object, with so much room for each of them. -/
structure Housed (room : Nat) (members : List (String × Value)) : Prop where
  nodup : (members.map (·.1)).Nodup
  exact : ∀ m ∈ members, m.2.Exact
  fits : ∀ m ∈ members, m.2.depth ≤ room

section Housed

variable {room : Nat} {members others : List (String × Value)}

theorem Housed.sorted (housed : Housed room members) : (sortMembers members).Perm members :=
  sortMembers_perm housed.nodup

theorem Housed.exact_ofMembers (housed : Housed room members) : (Value.ofMembers members).Exact :=
  ⟨ordered_sortMembers members,
    exactMembers_iff.mpr fun m listed => housed.exact m (housed.sorted.mem_iff.mp listed)⟩

theorem Housed.depth_ofMembers (housed : Housed room members) : (Value.ofMembers members).depth ≤ room + 1 :=
  Nat.succ_le_succ (depthMembers_le_iff.mpr fun m listed => housed.fits m (housed.sorted.mem_iff.mp listed))

theorem Housed.of_object (exact : (Value.object members).Exact) (fits : (Value.object members).depth ≤ room + 1) :
    Housed room members where
  nodup := nodup_of_ordered exact.1
  exact := exactMembers_iff.mp exact.2
  fits := depthMembers_le_iff.mp (Nat.le_of_succ_le_succ fits)

theorem Housed.append (housed : Housed room members) (other : Housed room others)
    (apart : ∀ m ∈ members, ∀ k ∈ others, m.1 ≠ k.1) : Housed room (members ++ others) where
  nodup := by
    rw [List.map_append]
    refine List.nodup_append.mpr ⟨housed.nodup, other.nodup, fun name first later second => ?_⟩
    obtain ⟨m, among, rfl⟩ := List.mem_map.mp first
    obtain ⟨k, listed, rfl⟩ := List.mem_map.mp second
    exact apart m among k listed
  exact m listed := (List.mem_append.mp listed).elim (housed.exact m) (other.exact m)
  fits m listed := (List.mem_append.mp listed).elim (housed.fits m) (other.fits m)

end Housed
end Json

namespace Schema

/-- The data is written to a value that is read to it again. -/
structure Restores (room : Nat) (schema : Schema) (d : Data) : Prop where
  exact (other : Data → Value) : (schema.encodeWith other d).Exact
  fits (other : Data → Value) : (schema.encodeWith other d).depth ≤ room
  again (other : Data → Value) (self : Decoder) (detached : Bool) :
    schema.decodeWith self detached (schema.encodeWith other d) = .ok d

/-- So it is with whatever is read. Only null, and what is read as absent, is written as null. -/
structure Restorable (room : Nat) (schema : Schema) : Prop where
  restores {self : Decoder} {detached : Bool} {v : Value} {d : Data} (exact : v.Exact) (fits : v.depth ≤ room)
    (read : schema.decodeWith self detached v = .ok d) : Restores room schema d
  solid {self : Decoder} {detached : Bool} {v : Value} {d : Data} (exact : v.Exact) (fits : v.depth ≤ room)
    (read : schema.decodeWith self detached v = .ok d) (some : v ≠ .null) (there : d ≠ .absent)
    (other : Data → Value) : schema.encodeWith other d ≠ .null

section Shapes

variable {room : Nat} {schema content item : Schema} {d : Data}

theorem Restores.accepts (restores : Restores room schema d) (other : Data → Value) :
    schema.accepts (schema.encodeWith other d).kind = true :=
  accepts_of_decode schema (restores.again other (fun _ _ => .ok .unit) false)

theorem Restores.ne_null (restores : Restores room schema d) (refuses : schema.accepts .null = false)
    (other : Data → Value) : schema.encodeWith other d ≠ .null := by
  intro null
  have accepted := restores.accepts other
  rw [null] at accepted
  exact absurd (refuses.symm.trans accepted) Bool.false_ne_true

theorem Restorable.of_restores (refuses : schema.accepts .null = false)
    (restores : ∀ {self : Decoder} {detached : Bool} {v : Value} {d : Data}, v.Exact → v.depth ≤ room →
      schema.decodeWith self detached v = .ok d → Restores room schema d) : Restorable room schema where
  restores := restores
  solid exact fits read _ _ := (restores exact fits read).ne_null refuses

theorem Restorable.of_vacant (restorable : Restorable room schema) (empty : vacant room schema d = true) :
    Restores room schema d := by
  obtain ⟨v, exact, fits, read⟩ := readable_of_vacant schema empty
  exact restorable.restores exact fits (read (fun _ _ => .ok .unit) false)

theorem restorable_unit : Restorable room .unit where
  restores {_ _ v _} _ _ read := by
    cases v <;> cases read
    exact ⟨fun _ => trivial, fun _ => Nat.zero_le _, fun _ _ _ => rfl⟩
  solid {_ _ v _} _ _ read some := by
    cases v <;> first | exact absurd rfl some | cases read

theorem restorable_value : Restorable room .value where
  restores exact fits read := by
    cases read
    exact ⟨fun _ => exact, fun _ => fits, fun _ _ _ => rfl⟩
  solid _ _ read some _ _ := by
    cases read
    exact some

theorem restorable_boolean : Restorable room .boolean :=
  .of_restores rfl fun {_ _ v _} _ _ read => by
    cases v <;> cases read
    exact ⟨fun _ => trivial, fun _ => Nat.zero_le _, fun _ _ _ => rfl⟩

theorem restorable_text : Restorable room .text :=
  .of_restores rfl fun {_ _ v _} _ _ read => by
    cases v <;> cases read
    exact ⟨fun _ => trivial, fun _ => Nat.zero_le _, fun _ _ _ => rfl⟩

theorem restorable_uri : Restorable room .uri :=
  .of_restores rfl fun {_ _ v d} _ _ read => by
    cases v with
    | string s =>
      have kept : decodeUri s = .ok d := read
      have text : d = .text s := by
        unfold decodeUri at kept
        split at kept <;> cases kept
        rfl
      subst text
      exact ⟨fun _ => trivial, fun _ => Nat.zero_le _, fun _ _ _ => kept⟩
    | _ => cases read

theorem restorable_integer (range : Json.IntegerRange) : Restorable room (.integer range) :=
  .of_restores rfl fun {self detached v d} exact _ read => by
    cases v with
    | number n =>
      cases n with
      | integer n =>
        have kept := read
        rw [decodeWith] at read
        split at read <;> cases read
        exact ⟨fun _ => exact, fun _ => Nat.zero_le _, fun _ _ _ => kept⟩
      | double x => cases read
    | _ => cases read

theorem chosen_of_decodeVariant {names : List String} {name : String} (read : decodeVariant names name = .ok d) :
    ∃ index, names.idxOf? name = some index ∧ d = .choice index .unit := by
  unfold decodeVariant at read
  split at read <;> cases read
  exact ⟨_, ‹_›, rfl⟩

theorem chosen_of_decodeVariantValue {names : List String} {v : Value} (read : decodeVariantValue names v = .ok d) :
    ∃ name index, names.idxOf? name = some index ∧ d = .choice index .unit := by
  unfold decodeVariantValue at read
  split at read
  · exact ⟨_, chosen_of_decodeVariant read⟩
  · rename_i v name content
    cases chosen : decodeVariant names name with
    | error e =>
      rw [chosen] at read
      cases read
    | ok e =>
      rw [chosen] at read
      obtain ⟨index, named, rfl⟩ := chosen_of_decodeVariant chosen
      refine ⟨name, index, named, ?_⟩
      cases content <;> cases read
      rfl
  · cases read
  · cases read

theorem restorable_variant (names : List String) : Restorable room (.variant names) :=
  .of_restores rfl fun {self detached v d} _ _ read => by
    obtain ⟨name, index, found, rfl⟩ := chosen_of_decodeVariantValue read
    obtain ⟨listed, same, first⟩ := List.idxOf?_eq_some_iff.mp found
    have written : names.getD index "" = name := by simp [listed, same]
    refine ⟨fun _ => trivial, fun _ => Nat.zero_le _, fun _ _ _ => ?_⟩
    rw [encodeWith, written, decodeWith, decodeVariantValue, decodeVariant, found]

theorem restorable_option (inner : Restorable room content) : Restorable room (.option content) where
  restores {self detached v d} exact fits read := by
    by_cases there : d = .absent
    · subst there
      exact ⟨fun _ => trivial, fun _ => Nat.zero_le _, fun _ _ _ => rfl⟩
    have some : v ≠ .null := by
      rintro rfl
      cases read
      exact there rfl
    have taken : content.decodeWith self detached v = .ok d := by
      cases v <;> first | exact absurd rfl some | exact read
    have restores := inner.restores exact fits taken
    -- Null would be read as absent, so what is there must not be written as null.
    have solid := inner.solid exact fits taken some there
    have written (other : Data → Value) : (Schema.option content).encodeWith other d = content.encodeWith other d := by
      cases d <;> first | exact absurd rfl there | rfl
    refine ⟨fun other => written other ▸ restores.exact other, fun other => written other ▸ restores.fits other,
      fun other self detached => ?_⟩
    have again := restores.again other self detached
    have left := solid other
    rw [written]
    cases value : content.encodeWith other d <;> rw [value] at again left <;>
      first | exact absurd rfl left | exact again
  solid {self detached v d} exact fits read some there other := by
    have taken : content.decodeWith self detached v = .ok d := by
      cases v <;> first | exact absurd rfl some | exact read
    have left := inner.solid exact fits taken some there other
    cases d <;> first | exact absurd rfl there | exact left

section Toggled

variable {whenTrue : Data}

theorem restores_absent : Restores room (.toggled content whenTrue) .absent :=
  ⟨fun _ => trivial, fun _ => Nat.zero_le _, fun _ _ _ => rfl⟩

theorem encode_toggled (there : d ≠ .absent) (other : Data → Value) :
    (Schema.toggled content whenTrue).encodeWith other d = content.encodeWith other d := by
  cases d <;> first | exact absurd rfl there | rfl

theorem restores_toggled (nulls : content.accepts .null = false) (booleans : content.accepts .boolean = false)
    (restores : Restores room content d) : Restores room (.toggled content whenTrue) d := by
  by_cases there : d = .absent
  · exact there ▸ restores_absent
  have written := @encode_toggled content d whenTrue there
  refine ⟨fun other => written other ▸ restores.exact other, fun other => written other ▸ restores.fits other,
    fun other self detached => ?_⟩
  have again := restores.again other self detached
  have accepted := restores.accepts other
  rw [written]
  cases value : content.encodeWith other d with
  | null =>
    rw [value] at accepted
    exact absurd (nulls.symm.trans accepted) Bool.false_ne_true
  | boolean b =>
    rw [value] at accepted
    exact absurd (booleans.symm.trans accepted) Bool.false_ne_true
  | _ =>
    rw [value] at again
    exact again

theorem restores_of_decodeToggled (inner : Restorable room content) (empty : vacant room content whenTrue = true)
    {self : Decoder} {detached : Bool} {v : Value} (exact : v.Exact) (fits : v.depth ≤ room)
    (read : (Schema.toggled content whenTrue).decodeWith self detached v = .ok d) :
    d = .absent ∨ Restores room content d := by
  cases v with
  | null =>
    cases read
    exact .inl rfl
  | boolean b =>
    cases b <;> cases read
    · exact .inl rfl
    · exact .inr (inner.of_vacant empty)
  | _ =>
    have taken : content.decodeWith self detached _ = .ok d := read
    exact .inr (inner.restores exact fits taken)

theorem restorable_toggled (inner : Restorable room content) (empty : vacant room content whenTrue = true)
    (nulls : content.accepts .null = false) (booleans : content.accepts .boolean = false) :
    Restorable room (.toggled content whenTrue) where
  restores exact fits read := by
    rcases restores_of_decodeToggled inner empty exact fits read with rfl | restores
    · exact restores_absent
    · exact restores_toggled nulls booleans restores
  solid exact fits read _ there other := by
    rcases restores_of_decodeToggled inner empty exact fits read with rfl | restores
    · exact absurd rfl there
    · rw [encode_toggled there]
      exact restores.ne_null nulls other

end Toggled

theorem restorable_list (each : Restorable room item) : Restorable (room + 1) (.list item) :=
  .of_restores rfl fun {self detached v d} exact fits read => by
    cases v with
    | array items =>
      obtain ⟨ds, taken, rfl⟩ := ok_of_map read
      have items_exact := Json.exactItems_iff.mp exact
      have items_fit := Json.depthItems_le_iff.mp (Nat.le_of_succ_le_succ fits)
      -- Each item has a level less than the list, so the room of the items is enough for it.
      have inner : ∀ d ∈ ds, Restores room item d :=
        forall_of_forall₂ (mapM_eq_ok_iff.mp taken)
          (fun v listed => And.intro (items_exact v listed) (items_fit v listed))
          fun v d proper read => each.restores proper.1 proper.2 read
      refine ⟨fun other => ?_, fun other => ?_, fun other self detached => ?_⟩
      · exact Json.exactItems_iff.mpr (List.forall_mem_map.mpr fun d listed => (inner d listed).exact other)
      · exact Nat.succ_le_succ (Json.depthItems_le_iff.mpr
          (List.forall_mem_map.mpr fun d listed => (inner d listed).fits other))
      · have again : (ds.map (item.encodeWith other)).mapM (item.decodeWith self detached) = .ok ds :=
          mapM_eq_ok_iff.mpr (List.forall₂_map_left_iff.mpr
            (List.forall₂_same.mpr fun d listed => (inner d listed).again other self detached))
        rw [encodeWith, decodeWith, again]
        rfl
    | _ => cases read

end Shapes
end Schema
end LanguageClient
