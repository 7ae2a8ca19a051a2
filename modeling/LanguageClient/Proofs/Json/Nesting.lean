import LanguageClient.Proofs.Json.Value

/-! A value that is nested too deeply is refused, whatever comes behind it. -/

set_option autoImplicit false
namespace LanguageClient.Json

def Fails {α : Type} (reading : Except Failure α) : Prop := ∃ f, reading = .error f

namespace Fails

theorem bind {α β : Type} {reading : Except Failure α} (fails : Fails reading) (next : α → Except Failure β) :
    Fails (reading >>= next) := by
  obtain ⟨f, rfl⟩ := fails
  exact ⟨f, rfl⟩

theorem map {α β : Type} {reading : Except Failure α} (fails : Fails reading) (make : α → β) :
    Fails (reading.map make) := by
  obtain ⟨f, rfl⟩ := fails
  exact ⟨f, rfl⟩

end Fails

section Room

variable {fuel room : Nat} {bytes : List UInt8}

theorem fails_list (shallow : room ≤ 1) : Fails (readNested (fuel + 1) room (ascii '[' :: bytes)) := by
  rw [readNested, skipBlank_solid (by decide)]
  simp only [if_pos shallow]
  exact ⟨_, rfl⟩

theorem fails_object (shallow : room ≤ 1) : Fails (readNested (fuel + 1) room (ascii '\x7b' :: bytes)) := by
  rw [readNested, skipBlank_solid (by decide)]
  simp only [if_pos shallow]
  exact ⟨_, rfl⟩

end Room

mutual
theorem readNested_deep : (v : Value) → v.Proper → ∀ {fuel room : Nat} {rest : List UInt8}, Stops rest →
    2 * (octets v.write ++ rest).length ≤ fuel → 0 < room → room ≤ v.depth →
      Fails (readNested fuel room (octets v.write ++ rest))
  | .array items, proper, fuel + 1, room, rest, _, enough, room_pos, deep => by
    have deep : room ≤ depthItems items + 1 := deep
    rw [octets_array, List.length_cons] at enough
    rw [octets_array]
    rcases Nat.lt_or_ge 1 room with more | shallow
    · rw [readNested_list more]
      exact readItems_deep items proper (by omega) (by omega) (by omega)
    · exact fails_list shallow
  | .object members, proper, fuel + 1, room, rest, _, enough, room_pos, deep => by
    have deep : room ≤ depthMembers members + 1 := deep
    rw [octets_object, List.length_cons] at enough
    rw [octets_object]
    rcases Nat.lt_or_ge 1 room with more | shallow
    · rw [readNested_object more]
      exact readMembers_deep members proper.2 (by omega) (by omega) (by omega)
    · exact fails_object shallow
  | .null, _, _, _, _, _, _, room_pos, deep | .boolean _, _, _, _, _, _, _, room_pos, deep
  | .string _, _, _, _, _, _, _, room_pos, deep | .number _, _, _, _, _, _, _, room_pos, deep =>
    absurd deep (Nat.not_le.mpr room_pos)
  | .array _, _, 0, _, _, _, enough, _, _ | .object _, _, 0, _, _, _, enough, _, _ => by
    simp [octets_array, octets_object] at enough

theorem readItems_deep : (items : List Value) → ProperItems items → ∀ {fuel room : Nat} {rest : List UInt8},
    2 * (octets (writeItems items) ++ ascii ']' :: rest).length < fuel → 0 < room → room ≤ depthItems items →
      Fails (readItems fuel room [] (octets (writeItems items) ++ ascii ']' :: rest))
  | [], _, _, _, _, _, room_pos, deep => absurd deep (Nat.not_le.mpr room_pos)
  | item :: items, ⟨proper, others⟩, fuel + 1, room, rest, enough, room_pos, deep => by
    have deep : room ≤ max item.depth (depthItems items) := deep
    rw [writeItems_cons, octets_append, List.append_assoc] at enough ⊢
    have stops := stops_laterItems items rest
    rw [readItems_first proper]
    rcases Nat.lt_or_ge item.depth room with shallow | deeper
    · rw [readNested_write item proper stops (by omega) shallow]
      rw [List.length_append] at enough
      exact readItems_deeper items others [] item.reread (by omega) room_pos (by omega)
    · exact (readNested_deep item proper stops (by omega) room_pos deeper).bind _

theorem readItems_deeper : (items : List Value) → ProperItems items → ∀ {fuel room : Nat} {rest : List UInt8}
    (read : List Value) (last : Value), 2 * (octets (laterItems items) ++ ascii ']' :: rest).length ≤ fuel →
      0 < room → room ≤ depthItems items →
        Fails (readItems fuel room (last :: read) (octets (laterItems items) ++ ascii ']' :: rest))
  | [], _, _, _, _, _, _, _, room_pos, deep => absurd deep (Nat.not_le.mpr room_pos)
  | item :: items, ⟨proper, others⟩, fuel + 1, room, rest, read, last, enough, room_pos, deep => by
    have deep : room ≤ max item.depth (depthItems items) := deep
    have stops := stops_laterItems items rest
    rw [octets_laterItems, List.length_cons] at enough
    rw [octets_laterItems, readItems_next proper]
    rcases Nat.lt_or_ge item.depth room with shallow | deeper
    · rw [readNested_write item proper stops (by omega) shallow]
      rw [List.length_append] at enough
      exact readItems_deeper items others _ item.reread (by omega) room_pos (by omega)
    · exact (readNested_deep item proper stops (by omega) room_pos deeper).bind _

theorem readMembers_deep : (members : List (String × Value)) → ProperMembers members → ∀ {fuel room : Nat}
    {rest : List UInt8}, 2 * (octets (writeMembers members) ++ ascii '\x7d' :: rest).length < fuel → 0 < room →
      room ≤ depthMembers members →
        Fails (readMembers fuel room [] (octets (writeMembers members) ++ ascii '\x7d' :: rest))
  | [], _, _, _, _, _, room_pos, deep => absurd deep (Nat.not_le.mpr room_pos)
  | (name, v) :: members, ⟨proper, others⟩, fuel + 1, room, rest, enough, room_pos, deep => by
    have deep : room ≤ max v.depth (depthMembers members) := deep
    rw [writeMembers_cons, octets_append, List.append_assoc] at enough ⊢
    have stops := stops_laterMembers members rest
    have longer := length_writeMember name v (octets (laterMembers members) ++ ascii '\x7d' :: rest)
    rw [readMembers_first]
    rcases Nat.lt_or_ge v.depth room with shallow | deeper
    · rw [readNested_write v proper stops (by omega) shallow]
      rw [List.length_append] at enough
      exact readMembers_deeper members others [] (name, v.reread) (by omega) room_pos (by omega)
    · exact (readNested_deep v proper stops (by omega) room_pos deeper).bind _

theorem readMembers_deeper : (members : List (String × Value)) → ProperMembers members → ∀ {fuel room : Nat}
    {rest : List UInt8} (read : List (String × Value)) (last : String × Value),
    2 * (octets (laterMembers members) ++ ascii '\x7d' :: rest).length ≤ fuel → 0 < room →
      room ≤ depthMembers members →
        Fails (readMembers fuel room (last :: read) (octets (laterMembers members) ++ ascii '\x7d' :: rest))
  | [], _, _, _, _, _, _, _, room_pos, deep => absurd deep (Nat.not_le.mpr room_pos)
  | (name, v) :: members, ⟨proper, others⟩, fuel + 1, room, rest, read, last, enough, room_pos, deep => by
    have deep : room ≤ max v.depth (depthMembers members) := deep
    have stops := stops_laterMembers members rest
    have longer := length_writeMember name v (octets (laterMembers members) ++ ascii '\x7d' :: rest)
    rw [octets_laterMembers, List.length_cons] at enough
    rw [octets_laterMembers, readMembers_next]
    rcases Nat.lt_or_ge v.depth room with shallow | deeper
    · rw [readNested_write v proper stops (by omega) shallow]
      rw [List.length_append] at enough
      exact readMembers_deeper members others _ (name, v.reread) (by omega) room_pos (by omega)
    · exact (readNested_deep v proper stops (by omega) room_pos deeper).bind _
end

theorem readValue_deep {v : Value} (proper : v.Proper) {room : Nat} (room_pos : 0 < room) (deep : room ≤ v.depth)
    {rest : List UInt8} (stops : Stops rest) : Fails (readValue room (octets v.write ++ rest)) :=
  readNested_deep v proper stops (by omega) room_pos deep

end LanguageClient.Json
