import LanguageClient.Proofs.Json.Value

/-! Members that were written in another order are read to the same object. -/

set_option autoImplicit false
namespace LanguageClient.Json

section Lookup

variable {α : Type} {entries others : List (String × α)} {name : String} {value : α}

theorem mem_of_lookup (found : entries.lookup name = some value) : (name, value) ∈ entries := by
  obtain ⟨before, after, rfl, -⟩ := List.lookup_eq_some_iff.mp found
  exact List.mem_append_right _ List.mem_cons_self

theorem lookup_of_mem (nodup : (entries.map (·.1)).Nodup) (member : (name, value) ∈ entries) :
    entries.lookup name = some value := by
  induction entries with
  | nil => cases member
  | cons entry entries ih =>
    obtain ⟨other, kept⟩ := entry
    obtain ⟨apart, later⟩ := List.nodup_cons.mp nodup
    rcases List.mem_cons.mp member with same | listed
    · cases same
      exact List.lookup_cons_self
    · have different : name ≠ other := by
        rintro rfl
        exact apart (List.mem_map.mpr ⟨_, listed, rfl⟩)
      rw [List.lookup_cons, beq_false_of_ne different]
      exact ih later listed

theorem lookup_perm (perm : entries.Perm others) (nodup : (entries.map (·.1)).Nodup) :
    entries.lookup name = others.lookup name := by
  have nodup_others : (others.map (·.1)).Nodup := (perm.map _).nodup_iff.mp nodup
  refine Option.ext fun value => ⟨fun found => ?_, fun found => ?_⟩
  · exact lookup_of_mem nodup_others (perm.mem_iff.mp (mem_of_lookup found))
  · exact lookup_of_mem nodup (perm.mem_iff.mpr (mem_of_lookup found))

theorem lookup_map {β : Type} (f : α → β) :
    (entries.map fun (name, value) => (name, f value)).lookup name = (entries.lookup name).map f := by
  induction entries with
  | nil => rfl
  | cons entry entries ih =>
    rw [List.map_cons, List.lookup_cons, List.lookup_cons, ih]
    split <;> rfl

end Lookup

section Sorting

variable {α : Type} {members sorted : List (String × α)} {name : String} {value : α}

theorem insertMember_perm (fresh : name ∉ members.map (·.1)) :
    (insertMember name value members).Perm ((name, value) :: members) := by
  induction members with
  | nil => exact .refl _
  | cons member members ih =>
    obtain ⟨other, kept⟩ := member
    obtain ⟨apart, later⟩ := not_or.mp (mt List.mem_cons.mpr fresh)
    rw [insertMember, if_neg apart]
    split
    · exact .refl _
    · exact ((ih later).cons _).trans (.swap _ _ _)

theorem foldl_insertMember_perm (nodup : ((sorted ++ members).map (·.1)).Nodup) :
    (members.foldl (fun sorted (name, value) => insertMember name value sorted) sorted).Perm (sorted ++ members) := by
  induction members generalizing sorted with
  | nil => exact .of_eq (List.append_nil _).symm
  | cons member members ih =>
    have moved : (sorted ++ member :: members).Perm (member :: sorted ++ members) := List.perm_middle
    have apart : member.1 ∉ sorted.map (·.1) := fun listed =>
      (List.nodup_cons.mp ((moved.map _).nodup_iff.mp nodup)).1
        (List.map_append ▸ List.mem_append_left _ listed)
    have inserted : (insertMember member.1 member.2 sorted).Perm (member :: sorted) := insertMember_perm apart
    have onward := (inserted.append_right members).trans moved.symm
    exact (ih ((onward.map _).nodup_iff.mpr nodup)).trans onward

theorem sortMembers_perm (nodup : (members.map (·.1)).Nodup) : (sortMembers members).Perm members :=
  @foldl_insertMember_perm α members [] nodup

end Sorting

/-! What is read in again. -/

section Reread

variable {members others : List (String × Value)} {name : String}

theorem rereadMembers_eq_map (members : List (String × Value)) :
    rereadMembers members = members.map fun (name, value) => (name, value.reread) := by
  induction members with
  | nil => rfl
  | cons member members ih => rw [rereadMembers, ih, List.map_cons]

theorem names_rereadMembers (members : List (String × Value)) :
    (rereadMembers members).map (·.1) = members.map (·.1) := by
  rw [rereadMembers_eq_map, List.map_map]
  rfl

theorem depthMembers_perm (perm : members.Perm others) : depthMembers members = depthMembers others := by
  induction perm with
  | nil => rfl
  | cons member _ ih => exact congrArg (max member.2.depth) ih
  | swap first second members => exact Nat.max_left_comm _ _ _
  | trans _ _ one two => exact one.trans two

mutual
theorem depth_reread : {v : Value} → v.Proper → v.reread.depth = v.depth
  | .null, _ | .boolean _, _ | .string _, _ | .number _, _ => rfl
  | .array _, proper => congrArg (· + 1) (depth_rereadItems proper)
  | .object members, ⟨nodup, proper⟩ => by
    have sorted := sortMembers_perm ((names_rereadMembers members).symm ▸ nodup)
    exact congrArg (· + 1) ((depthMembers_perm sorted).trans (depth_rereadMembers proper))

theorem depth_rereadItems : {items : List Value} → ProperItems items →
    depthItems (rereadItems items) = depthItems items
  | [], _ => rfl
  | _ :: _, ⟨proper, others⟩ => by
    rw [rereadItems, depthItems, depthItems, depth_reread proper, depth_rereadItems others]

theorem depth_rereadMembers : {members : List (String × Value)} → ProperMembers members →
    depthMembers (rereadMembers members) = depthMembers members
  | [], _ => rfl
  | (_, _) :: _, ⟨proper, others⟩ => by
    rw [rereadMembers, depthMembers, depthMembers, depth_reread proper, depth_rereadMembers others]
end

theorem lookup_reread (nodup : (members.map (·.1)).Nodup) :
    (sortMembers (rereadMembers members)).lookup name = (members.lookup name).map Value.reread := by
  have nodup_reread : ((rereadMembers members).map (·.1)).Nodup := (names_rereadMembers members).symm ▸ nodup
  rw [← lookup_perm (sortMembers_perm nodup_reread).symm nodup_reread, rereadMembers_eq_map, lookup_map]

/-- Objects that are read to the same have the same members, each read to the same. -/
theorem lookup_of_reread (nodup : (members.map (·.1)).Nodup) (nodup_others : (others.map (·.1)).Nodup)
    (same : (Value.object members).reread = (Value.object others).reread) :
    (members.lookup name).map Value.reread = (others.lookup name).map Value.reread := by
  have sorted : sortMembers (rereadMembers members) = sortMembers (rereadMembers others) := Value.object.inj same
  rw [← lookup_reread nodup, sorted, lookup_reread nodup_others]

end Reread

end LanguageClient.Json
