import LanguageClient.Proofs.Schema.Record

/-! A record is read from a list too: its fields take the items in order. -/

set_option autoImplicit false
namespace LanguageClient.Schema

open Json

variable {readers : List (Absence × (List UInt8 → Except Failure (Data × List UInt8)))}
  {items : List Value} {ds : List Data} {name : String} {count index : Nat} {rest : List UInt8}

/-- What the fields make of the items; those for which none is left have a default. -/
inductive Fills : List (Absence × (List UInt8 → Except Failure (Data × List UInt8))) → List Value →
    List Data → Prop where
  | done : Fills [] [] []
  | missing {d : Data} {reader : List UInt8 → Except Failure (Data × List UInt8)}
      {readers : List (Absence × (List UInt8 → Except Failure (Data × List UInt8)))} {ds : List Data}
      (others : Fills readers [] ds) : Fills ((.default d, reader) :: readers) [] (d :: ds)
  | taken {absence : Absence} {reader : List UInt8 → Except Failure (Data × List UInt8)}
      {readers : List (Absence × (List UInt8 → Except Failure (Data × List UInt8)))} {v : Value}
      {items : List Value} {d : Data} {ds : List Data} (proper : v.Proper) (reads : Reads reader v.write d)
      (others : Fills readers items ds) : Fills ((absence, reader) :: readers) (v :: items) (d :: ds)

/-- The items from number `index` on; all but the first begin with a comma. -/
def itemsFrom : Nat → List Value → List Char
  | 0, items => writeItems items
  | _ + 1, items => laterItems items

theorem octets_itemsFrom (index : Nat) (rest : List UInt8) : octets (itemsFrom index []) ++ rest = rest := by
  cases index <;> rfl

theorem stops_itemsFrom (index : Nat) (items : List Value) (rest : List UInt8) :
    Stops (octets (itemsFrom (index + 1) items) ++ ascii ']' :: rest) := stops_laterItems items rest

theorem nextItem_end (first : Bool) : nextItem first (ascii ']' :: rest) = .ok none := by
  have solid : isBlank (ascii ']') = false := by decide
  simp only [nextItem, skipBlank_solid solid, if_true]

theorem nextItem_from {v : Value} (proper : v.Proper) :
    nextItem (index == 0) (octets (itemsFrom index (v :: items)) ++ ascii ']' :: rest) =
      .ok (some (octets v.write ++ (octets (itemsFrom (index + 1) items) ++ ascii ']' :: rest))) := by
  obtain ⟨b, more, front, begins⟩ := octets_write proper
  cases index with
  | zero =>
    have first : ((0 : Nat) == 0) = true := rfl
    rw [itemsFrom, writeItems_cons, octets_append, List.append_assoc, front, List.cons_append]
    simp only [nextItem, first, skipBlank_solid begins.solid, if_neg begins.begun, if_true]
    rfl
  | succ index =>
    have later : (index + 1 == 0) = false := rfl
    have solid : isBlank (ascii ',') = false := by decide
    have other : ascii ',' ≠ ascii ']' := by decide
    rw [itemsFrom, octets_laterItems, front, List.cons_append]
    simp only [nextItem, later, skipBlank_solid solid, if_neg other, Bool.false_eq_true, if_false, if_true,
      skipBlank_solid begins.solid, if_neg begins.begun]
    rfl

theorem readFieldsBy_taken {v : Value} {absence : Absence} {d : Data}
    {reader : List UInt8 → Except Failure (Data × List UInt8)} (proper : v.Proper) (reads : Reads reader v.write d) :
    readFieldsBy name count ((absence, reader) :: readers) index
        (octets (itemsFrom index (v :: items)) ++ ascii ']' :: rest) =
      (readFieldsBy name count readers (index + 1) (octets (itemsFrom (index + 1) items) ++ ascii ']' :: rest)).map
        fun (ds, left) => (d :: ds, left) := by
  simp only [readFieldsBy, nextItem_from proper, bind, Except.bind, reads (stops_itemsFrom index items rest)]
  cases readFieldsBy name count readers (index + 1) _ <;> rfl

theorem readFieldsBy_missing {d : Data} {reader : List UInt8 → Except Failure (Data × List UInt8)} :
    readFieldsBy name count ((.default d, reader) :: readers) index (ascii ']' :: rest) =
      (readFieldsBy name count readers (index + 1) (ascii ']' :: rest)).map fun (ds, left) => (d :: ds, left) := by
  simp only [readFieldsBy, nextItem_end, bind, Except.bind]
  cases readFieldsBy name count readers (index + 1) _ <;> rfl

theorem readFieldsBy_written (fills : Fills readers items ds) :
    readFieldsBy name count readers index (octets (itemsFrom index items) ++ ascii ']' :: rest) =
      .ok (ds, ascii ']' :: rest) := by
  induction fills generalizing index with
  | done => rw [octets_itemsFrom, readFieldsBy]
  | missing others ih =>
    have onward := @ih (index + 1)
    rw [octets_itemsFrom] at onward ⊢
    rw [readFieldsBy_missing, onward]
    rfl
  | taken proper reads others ih =>
    rw [readFieldsBy_taken proper reads, ih]
    rfl

theorem readWith_listed {fields : List (Field Schema)} {room : Nat} (deep : 1 < room)
    (fills : Fills ((fields.map (·.absence)).zip ((fieldReaders fields (room - 1)).map (·.2))) items ds) :
    Reads (readWith (.record name fields) room) (Value.array items).write (.record ds) := by
  intro rest _
  have shallow : ¬ room ≤ 1 := Nat.not_le.mpr deep
  have solid : isBlank (ascii '[') = false := by decide
  have closed : closeList (ascii ']' :: rest) = .ok rest := by
    rw [closeList, skipBlank_solid (by decide)]
    rfl
  have filled : readFieldsBy name fields.length _ 0 (octets (writeItems items) ++ ascii ']' :: rest) =
      .ok (ds, ascii ']' :: rest) := readFieldsBy_written fills
  rw [octets_array]
  simp only [readWith, skipBlank_solid solid, if_true, if_neg shallow, filled, Except.map, inList, closed]

end LanguageClient.Schema
