import Mathlib.Data.List.Nodup

/-! Accounts by number: what stands in a list of entries under one number. -/

set_option autoImplicit false
namespace LanguageClient.Session

variable {α : Type} {number : Nat} {entries : List (Nat × α)} {a : α}

def under (number : Nat) (entries : List (Nat × α)) : List α :=
  entries.filterMap fun entry => if entry.1 = number then some entry.2 else none

theorem under_append (number : Nat) (entries more : List (Nat × α)) :
    under number (entries ++ more) = under number entries ++ under number more :=
  List.filterMap_append

theorem under_absent (absent : number ∉ entries.map Prod.fst) : under number entries = [] := by
  refine List.filterMap_eq_nil_iff.mpr fun entry member => if_neg ?_
  rintro rfl
  exact absent (List.mem_map_of_mem member)

theorem under_of_mem (distinct : (entries.map Prod.fst).Nodup) (member : (number, a) ∈ entries) :
    under number entries = [a] := by
  induction entries with
  | nil => cases member
  | cons first rest ih =>
    obtain ⟨apart, distinct⟩ := List.nodup_cons.mp distinct
    have split : under number (first :: rest) = under number [first] ++ under number rest :=
      under_append number [first] rest
    rw [split]
    rcases List.mem_cons.mp member with rfl | later
    · rw [under_absent apart]
      simp [under]
    · have listed : number ∈ rest.map Prod.fst := List.mem_map_of_mem later
      have other : first.1 ≠ number := fun same => apart (same ▸ listed)
      rw [ih distinct later]
      simp [under, other]

theorem under_length (distinct : (entries.map Prod.fst).Nodup) (number : Nat) :
    (under number entries).length ≤ 1 := by
  by_cases listed : number ∈ entries.map Prod.fst
  · obtain ⟨⟨_, a⟩, member, rfl⟩ := List.mem_map.mp listed
    rw [under_of_mem distinct member]
    exact Nat.le_refl 1
  · rw [under_absent listed]
    exact Nat.zero_le 1

end LanguageClient.Session
