import LanguageClient.Proofs.Json.Value

/-! A written value is passed over to its end, whatever its nesting. -/

set_option autoImplicit false
namespace LanguageClient.Json

section Skipping

variable {fuel : Nat} {stack : List Open} {rest : List UInt8}

def resume (fuel : Nat) (stack : List Open) :
    Option Open × List UInt8 → Except Failure (List UInt8)
  | (none, rest) => skipOpen fuel .next stack rest
  | (some opened, rest) => skipOpen fuel .first (opened :: stack) rest

theorem skipStart_string (s : String) :
    skipStart (octets (writeString s) ++ rest) = .ok (none, rest) := by
  rw [octets_writeString, skipStart, skipBlank_solid (by decide)]
  show (skipString _ (octets (s.toList.flatMap writeChar) ++ ascii '"' :: rest)).map (none, ·) = _
  rw [skipString_written _ (Nat.le_refl _)]
  rfl

theorem skipStart_number {n : Number} (proper : n.Proper) (stops : Stops rest) :
    skipStart (octets n.write ++ rest) = .ok (none, rest) := by
  obtain ⟨positive, ds, shown⟩ := printed proper
  have passed := shown.passed stops
  rw [shown.text]
  cases positive with
  | false =>
    rw [if_neg Bool.false_ne_true, List.cons_append, skipStart, skipBlank_solid (by decide)]
    show (skipNumber (ds ++ rest)).map (none, ·) = _
    rw [passed]
    rfl
  | true =>
    obtain ⟨b, more, front, digit⟩ := shown.first
    have apart {d : UInt8} (other : isDigit d = false) : b ≠ d := digit_apart digit other
    rw [if_pos rfl]
    rw [front, List.cons_append] at passed ⊢
    rw [skipStart, skipBlank_solid (digit_solid digit)]
    simp only [if_neg (apart (d := ascii 'n') rfl), if_neg (apart (d := ascii 't') rfl),
      if_neg (apart (d := ascii 'f') rfl), if_neg (apart (d := ascii '-') rfl), digit, if_true, passed]
    rfl

theorem skipOpen_item (bytes : List UInt8) :
    skipOpen (fuel + 1) .value (.list :: stack) bytes = skipStart bytes >>= resume fuel (.list :: stack) := by
  have other : Open.list ≠ Open.object := by decide
  simp only [skipOpen, if_neg other, bind, Except.bind]
  cases skipStart bytes with
  | error f => rfl
  | ok passed => obtain ⟨opened | _, rest⟩ := passed <;> rfl

theorem skipOpen_member (name : String) (v : Value) :
    skipOpen (fuel + 1) .value (.object :: stack) (octets (writeMember (name, v)) ++ rest) =
      skipStart (octets v.write ++ rest) >>= resume fuel (.object :: stack) := by
  have named : skipName (octets (writeMember (name, v)) ++ rest) = .ok (octets v.write ++ rest) := by
    rw [octets_writeMember, skipName, skipBlank_solid (by decide)]
    simp only [if_true, skipString_written _ (Nat.le_refl _)]
    rfl
  simp only [skipOpen, if_true, named, bind, Except.bind]
  cases skipStart (octets v.write ++ rest) with
  | error f => rfl
  | ok passed => obtain ⟨opened | _, rest⟩ := passed <;> rfl

theorem skipOpen_comma (opened : Open) (bytes : List UInt8) :
    skipOpen (fuel + 1) .next (opened :: stack) (ascii ',' :: bytes) =
      skipOpen fuel .value (opened :: stack) bytes := by
  rw [skipOpen, skipBlank_solid (by decide)]
  rfl

theorem skipOpen_next (opened : Open) {mark : UInt8} (solid : isBlank mark = false)
    (other : mark ≠ ascii ',') (closes : opened.closes mark = true) (bytes : List UInt8) :
    skipOpen (fuel + 1) .next (opened :: stack) (mark :: bytes) = skipOpen fuel .next stack bytes := by
  rw [skipOpen, skipBlank_solid solid]
  simp only [if_neg other, closes, if_true]

theorem skipOpen_closed (opened : Open) {mark : UInt8} (solid : isBlank mark = false)
    (closes : opened.closes mark = true) (bytes : List UInt8) :
    skipOpen (fuel + 1) .first (opened :: stack) (mark :: bytes) = skipOpen fuel .next stack bytes := by
  rw [skipOpen, skipBlank_solid solid]
  simp only [closes, if_true]

theorem skipOpen_first (opened : Open) {b : UInt8} (solid : isBlank b = false)
    (goes : opened.closes b = false) (bytes : List UInt8) :
    skipOpen (fuel + 1) .first (opened :: stack) (b :: bytes) =
      skipOpen fuel .value (opened :: stack) (b :: bytes) := by
  rw [skipOpen, skipBlank_solid solid]
  simp only [goes, Bool.false_eq_true, if_false]

end Skipping

/-- After what stands here, passing over the open lists and objects comes to this. -/
def Resumes (stack : List Open) (rest : List UInt8) (result : Except Failure (List UInt8)) : Prop :=
  ∀ {fuel : Nat}, 2 * rest.length ≤ fuel → skipOpen fuel .next stack rest = result

mutual
theorem skipStart_write : (v : Value) → v.Proper → ∀ {fuel : Nat} {stack : List Open}
    {rest : List UInt8} {result : Except Failure (List UInt8)}, Stops rest →
    2 * (octets v.write ++ rest).length ≤ fuel → Resumes stack rest result →
      skipStart (octets v.write ++ rest) >>= resume fuel stack = result
  | .null, _, _, _, _, _, _, enough, resumes => resumes (by simp at enough; omega)
  | .boolean true, _, _, _, _, _, _, enough, resumes => resumes (by simp at enough; omega)
  | .boolean false, _, _, _, _, _, _, enough, resumes => resumes (by simp at enough; omega)
  | .string s, _, fuel, stack, rest, _, _, enough, resumes => by
    rw [List.length_append] at enough
    have passed : skipStart (octets (Value.string s).write ++ rest) = .ok (none, rest) :=
      skipStart_string s
    rw [passed]
    exact resumes (by omega)
  | .number n, proper, fuel, stack, rest, _, stops, enough, resumes => by
    rw [List.length_append] at enough
    have passed : skipStart (octets (Value.number n).write ++ rest) = .ok (none, rest) :=
      skipStart_number proper stops
    rw [passed]
    exact resumes (by omega)
  | .array items, proper, fuel, stack, rest, _, _, enough, resumes => by
    rw [octets_array, List.length_cons] at enough
    rw [octets_array]
    exact skipItems_write items proper (by omega) resumes
  | .object members, proper, fuel, stack, rest, _, _, enough, resumes => by
    rw [octets_object, List.length_cons] at enough
    rw [octets_object]
    exact skipMembers_write members proper.2 (by omega) resumes

theorem skipItems_write : (items : List Value) → ProperItems items → ∀ {fuel : Nat}
    {stack : List Open} {rest : List UInt8} {result : Except Failure (List UInt8)},
    2 * (octets (writeItems items) ++ ascii ']' :: rest).length + 1 < fuel →
    Resumes stack rest result →
      skipOpen fuel .first (.list :: stack) (octets (writeItems items) ++ ascii ']' :: rest) = result
  | [], _, fuel, stack, rest, _, enough, resumes => by
    obtain ⟨fuel, rfl⟩ : ∃ more, fuel = more + 1 := Nat.exists_eq_add_of_le' (by omega)
    rw [writeItems, octets_nil, List.nil_append] at enough ⊢
    rw [List.length_cons] at enough
    rw [skipOpen_closed .list (by decide) (by decide)]
    exact resumes (by omega)
  | item :: items, ⟨proper, others⟩, fuel, stack, rest, _, enough, resumes => by
    obtain ⟨fuel, rfl⟩ : ∃ more, fuel = more + 2 := Nat.exists_eq_add_of_le' (by omega)
    rw [writeItems_cons, octets_append, List.append_assoc] at enough ⊢
    have later : skipStart (octets item.write ++ _) >>= resume fuel (.list :: stack) = _ :=
      skipStart_write item proper (stops_laterItems items rest) (by omega)
        (skipItems_later items others resumes)
    rw [← skipOpen_item] at later
    obtain ⟨b, more, front, begins⟩ := octets_write proper
    rw [front, List.cons_append] at later ⊢
    rw [skipOpen_first .list begins.solid (by simpa [Open.closes] using begins.begun)]
    exact later

theorem skipItems_later : (items : List Value) → ProperItems items → ∀ {stack : List Open}
    {rest : List UInt8} {result : Except Failure (List UInt8)}, Resumes stack rest result →
      Resumes (.list :: stack) (octets (laterItems items) ++ ascii ']' :: rest) result
  | [], _, stack, rest, _, resumes, fuel, enough => by
    rw [laterItems, List.flatMap_nil, octets_nil, List.nil_append] at enough ⊢
    rw [List.length_cons] at enough
    obtain ⟨fuel, rfl⟩ : ∃ more, fuel = more + 1 := Nat.exists_eq_add_of_le' (by omega)
    rw [skipOpen_next .list (by decide) (by decide) (by decide)]
    exact resumes (by omega)
  | item :: items, ⟨proper, others⟩, stack, rest, _, resumes, fuel, enough => by
    rw [octets_laterItems, List.length_cons] at enough
    obtain ⟨fuel, rfl⟩ : ∃ more, fuel = more + 2 := Nat.exists_eq_add_of_le' (by omega)
    rw [octets_laterItems, skipOpen_comma, skipOpen_item]
    exact skipStart_write item proper (stops_laterItems items rest) (by omega)
      (skipItems_later items others resumes)

theorem skipMembers_write : (members : List (String × Value)) → ProperMembers members →
    ∀ {fuel : Nat} {stack : List Open} {rest : List UInt8} {result : Except Failure (List UInt8)},
    2 * (octets (writeMembers members) ++ ascii '\x7d' :: rest).length + 1 < fuel →
    Resumes stack rest result →
      skipOpen fuel .first (.object :: stack)
        (octets (writeMembers members) ++ ascii '\x7d' :: rest) = result
  | [], _, fuel, stack, rest, _, enough, resumes => by
    obtain ⟨fuel, rfl⟩ : ∃ more, fuel = more + 1 := Nat.exists_eq_add_of_le' (by omega)
    rw [writeMembers, octets_nil, List.nil_append] at enough ⊢
    rw [List.length_cons] at enough
    rw [skipOpen_closed .object (by decide) (by decide)]
    exact resumes (by omega)
  | (name, v) :: members, ⟨proper, others⟩, fuel, stack, rest, _, enough, resumes => by
    obtain ⟨fuel, rfl⟩ : ∃ more, fuel = more + 2 := Nat.exists_eq_add_of_le' (by omega)
    rw [writeMembers_cons, octets_append, List.append_assoc] at enough ⊢
    have longer := length_writeMember name v (octets (laterMembers members) ++ ascii '\x7d' :: rest)
    have later : skipStart (octets v.write ++ _) >>= resume fuel (.object :: stack) = _ :=
      skipStart_write v proper (stops_laterMembers members rest) (by omega)
        (skipMembers_later members others resumes)
    rw [← skipOpen_member name, octets_writeMember] at later
    rw [octets_writeMember, skipOpen_first .object (by decide) (by decide)]
    exact later

theorem skipMembers_later : (members : List (String × Value)) → ProperMembers members →
    ∀ {stack : List Open} {rest : List UInt8} {result : Except Failure (List UInt8)},
    Resumes stack rest result →
      Resumes (.object :: stack) (octets (laterMembers members) ++ ascii '\x7d' :: rest) result
  | [], _, stack, rest, _, resumes, fuel, enough => by
    rw [laterMembers, List.flatMap_nil, octets_nil, List.nil_append] at enough ⊢
    rw [List.length_cons] at enough
    obtain ⟨fuel, rfl⟩ : ∃ more, fuel = more + 1 := Nat.exists_eq_add_of_le' (by omega)
    rw [skipOpen_next .object (by decide) (by decide) (by decide)]
    exact resumes (by omega)
  | (name, v) :: members, ⟨proper, others⟩, stack, rest, _, resumes, fuel, enough => by
    have longer := length_writeMember name v (octets (laterMembers members) ++ ascii '\x7d' :: rest)
    rw [octets_laterMembers, List.length_cons] at enough
    obtain ⟨fuel, rfl⟩ : ∃ more, fuel = more + 2 := Nat.exists_eq_add_of_le' (by omega)
    rw [octets_laterMembers, skipOpen_comma, skipOpen_member]
    exact skipStart_write v proper (stops_laterMembers members rest) (by omega)
      (skipMembers_later members others resumes)
end

theorem skipValue_write {v : Value} (proper : v.Proper) {rest : List UInt8} (stops : Stops rest) :
    skipValue (octets v.write ++ rest) = .ok rest := by
  have ends : Resumes [] rest (.ok rest) := fun _ => by simp [skipOpen]
  have passes := skipStart_write v proper stops (Nat.le_refl _) ends
  cases v with
  | array items =>
    rw [octets_array] at passes ⊢
    exact passes
  | object members =>
    rw [octets_object] at passes ⊢
    exact passes
  | null => exact passes
  | boolean b => cases b <;> rfl
  | string s =>
    simp only [skipValue, Value.write, skipStart_string]
    rfl
  | number n =>
    have started : skipStart (octets n.write ++ rest) = .ok (none, rest) := skipStart_number proper stops
    simp only [skipValue, Value.write, started]
    rfl

end LanguageClient.Json
