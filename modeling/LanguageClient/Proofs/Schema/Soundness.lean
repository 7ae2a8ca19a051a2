import LanguageClient.Proofs.Json.Soundness
import LanguageClient.Schema.Read

/-! What a schema reads is a value of the grammar, whatever the schema. -/

set_option autoImplicit false
namespace LanguageClient.Schema

open Json Json.Grammar

/-- A reader that takes nothing but values. -/
def Sound {α : Type} (reader : List UInt8 → Except Failure (α × List UInt8)) : Prop :=
  ∀ ⦃bytes a rest⦄, reader bytes = .ok (a, rest) → Grammar.Value bytes rest

section Scalars

variable {bytes more rest : List UInt8} {b : UInt8}

theorem value_of_scalar (start : skipBlank bytes = b :: more) (form : Scalar (b :: more) rest) :
    Grammar.Value bytes rest :=
  .scalar (start ▸ form)

theorem sound_unit : Sound readUnit := by
  intro bytes d rest done
  rw [readUnit] at done
  obtain ⟨b, more, start, done⟩ := meets done
  split at done
  case isTrue letter => exact value_of_scalar start (word_sound letter done ▸ .null)
  case isFalse => cases done

theorem sound_boolean : Sound readBoolean := by
  intro bytes d rest done
  rw [readBoolean] at done
  obtain ⟨b, more, start, done⟩ := meets done
  split at done
  case isTrue letter => exact value_of_scalar start (word_sound letter done ▸ .yes)
  split at done
  case isTrue letter => exact value_of_scalar start (word_sound letter done ▸ .no)
  cases done

theorem sound_text : Sound readText := by
  intro bytes s rest done
  rw [readText] at done
  obtain ⟨b, more, start, done⟩ := meets done
  split at done
  case isTrue quote => exact value_of_scalar start (quote ▸ .string (readString_sound done))
  case isFalse => cases done

theorem left_of_ranged {range : IntegerRange} {n : Number} {left : List UInt8} {d : Data}
    (done : (match n with
      | .integer n =>
          if range.contains n then .ok (.integer n, left)
          else failAt (.invalidValue (.integer n) (.integer range)) left
      | .double d => failAt (.invalidType (.floating d) (.integer range)) left) = Except.ok (d, rest)) :
    left = rest := by
  cases n with
  | double d => cases done
  | integer n =>
    dsimp only at done
    split at done <;> cases done
    rfl

theorem sound_integer (range : IntegerRange) : Sound (readInteger range) := by
  intro bytes d rest done
  rw [readInteger] at done
  obtain ⟨b, more, start, done⟩ := meets done
  split at done
  case isFalse => cases done
  case isTrue =>
  split at done
  case isTrue minus =>
    obtain ⟨⟨n, left⟩, number, done⟩ := ok_of_bind done
    cases left_of_ranged done
    exact value_of_scalar start (minus ▸ .negative (readNumber_sound number))
  case isFalse =>
    obtain ⟨⟨n, left⟩, number, done⟩ := ok_of_bind done
    cases left_of_ranged done
    exact value_of_scalar start (.number (readNumber_sound number))

end Scalars

/-! ### Lists and objects -/

section Groups

variable {bytes rest left : List UInt8}

def Ends (kind : Open) (bytes : List UInt8) : Prop := ∃ rest, skipBlank bytes = kind.closing :: rest

/-- Where the next item is looked for: it starts there, or the list ends. -/
def Itemed (first : Bool) (bytes : List UInt8) : Option (List UInt8) → Prop
  | none => Ends .list bytes
  | some entry => Starts first bytes entry

def Named (first : Bool) (bytes : List UInt8) : Option (String × List UInt8) → Prop
  | none => Ends .object bytes
  | some (_, rest) => ∃ name, Starts first bytes (ascii '"' :: name) ∧ Quoted name rest

theorem nextItem_sound {first : Bool} {found : Option (List UInt8)} (done : nextItem first bytes = .ok found) :
    Itemed first bytes found := by
  rw [nextItem] at done
  obtain ⟨b, more, start, done⟩ := meets done
  split at done
  case isTrue bracket =>
    cases done
    exact ⟨more, start.trans (bracket ▸ rfl)⟩
  split at done
  case isTrue first =>
    cases done
    exact .at_once first start
  case isFalse later =>
  split at done
  case isFalse => cases done
  case isTrue comma =>
  obtain ⟨c, left, behind, done⟩ := meets done
  split at done
  case isTrue => cases done
  case isFalse =>
    cases done
    exact .behind_comma later start comma behind

theorem nextName_sound {first : Bool} {found : Option (String × List UInt8)}
    (done : nextName first bytes = .ok found) : Named first bytes found := by
  rw [nextName] at done
  obtain ⟨b, more, start, done⟩ := meets done
  split at done
  case isTrue brace =>
    cases done
    exact ⟨more, start.trans (brace ▸ rfl)⟩
  split at done
  case isTrue first =>
    split at done
    case isFalse => cases done
    case isTrue quote =>
    obtain ⟨⟨name, rest⟩, string, same⟩ := ok_of_map done
    cases same
    exact ⟨more, .at_once first (quote ▸ start), readString_sound string⟩
  case isFalse later =>
  split at done
  case isFalse => cases done
  case isTrue comma =>
  obtain ⟨c, left, behind, done⟩ := meets done
  split at done
  case isFalse =>
    split at done <;> cases done
  case isTrue quote =>
    obtain ⟨⟨name, rest⟩, string, same⟩ := ok_of_map done
    cases same
    exact ⟨left, .behind_comma later start comma (quote ▸ behind), readString_sound string⟩

theorem closeList_sound (done : closeList bytes = .ok rest) : skipBlank bytes = Open.list.closing :: rest := by
  rw [closeList] at done
  obtain ⟨b, more, start, done⟩ := meets done
  split at done
  case isTrue bracket =>
    cases done
    exact start.trans (bracket ▸ rfl)
  split at done
  case isTrue =>
    obtain ⟨c, left, -, done⟩ := meets done
    cases done
  case isFalse => cases done

theorem closeObject_sound (done : closeObject bytes = .ok rest) :
    skipBlank bytes = Open.object.closing :: rest := by
  rw [closeObject] at done
  obtain ⟨b, more, start, done⟩ := meets done
  split at done
  case isTrue brace =>
    cases done
    exact start.trans (brace ▸ rfl)
  case isFalse => cases done

theorem of_inList {α : Type} {contents : Except Failure (α × List UInt8)} {a : α}
    (done : inList contents = .ok (a, rest)) :
    ∃ left, contents = .ok (a, left) ∧ skipBlank left = Open.list.closing :: rest := by
  rcases contents with f | ⟨found, left⟩
  · cases done
  · obtain ⟨after, closed, same⟩ := ok_of_map done
    cases same
    exact ⟨left, rfl, closeList_sound closed⟩

theorem of_inObject {α : Type} {contents : Except Failure (α × List UInt8)} {a : α}
    (done : inObject contents = .ok (a, rest)) :
    ∃ left, contents = .ok (a, left) ∧ skipBlank left = Open.object.closing :: rest := by
  rcases contents with f | ⟨found, left⟩
  · cases done
  · obtain ⟨after, closed, same⟩ := ok_of_map done
    cases same
    exact ⟨left, rfl, closeObject_sound closed⟩

theorem readItemsBy_sound {item : List UInt8 → Except Failure (Data × List UInt8)} (sound : Sound item)
    {fuel : Nat} {read : List Data} {d : Data} (done : readItemsBy item fuel read bytes = .ok (d, left))
    (closed : skipBlank left = Open.list.closing :: rest) : Remainder .list read.isEmpty bytes rest := by
  induction fuel generalizing read bytes with
  | zero => cases done
  | succ fuel ih =>
    obtain ⟨found, next, done⟩ := ok_of_bind done
    have start := nextItem_sound next
    cases found with
    | none =>
      cases done
      exact .close closed
    | some entry =>
      obtain ⟨⟨d, after⟩, reading, done⟩ := ok_of_bind done
      exact .enter start (.item (sound reading)) (ih done)

variable {readers : List (String × (List UInt8 → Except Failure (Data × List UInt8)))}

theorem readMembersBy_sound (sound : ∀ entry ∈ readers, Sound entry.2) {fuel : Nat} {first : Bool}
    {read found : List (String × Data)} (done : readMembersBy readers fuel first read bytes = .ok (found, left))
    (closed : skipBlank left = Open.object.closing :: rest) : Remainder .object first bytes rest := by
  induction fuel generalizing first read bytes with
  | zero => cases done
  | succ fuel ih =>
    obtain ⟨found, next, done⟩ := ok_of_bind done
    have start := nextName_sound next
    rcases found with _ | ⟨name, named⟩
    · cases done
      exact .close closed
    obtain ⟨text, starts, string⟩ := start
    dsimp only at done
    split at done
    case h_1 =>
      obtain ⟨value, colon, done⟩ := ok_of_bind done
      obtain ⟨after, passed, done⟩ := ok_of_bind done
      exact .enter starts (member_sound string colon (skipValue_sound passed)) (ih done)
    case h_2 reader found =>
      split at done
      case isTrue => cases done
      case isFalse =>
      obtain ⟨value, colon, done⟩ := ok_of_bind done
      obtain ⟨⟨d, after⟩, reading, done⟩ := ok_of_bind done
      have member : (name, reader) ∈ readers := by
        obtain ⟨before, after, split, -⟩ := List.lookup_eq_some_iff.mp found
        simp [split]
      have value := sound _ member reading
      exact .enter starts (member_sound string colon value) (ih done)

theorem readFieldsBy_sound {name : String} {count : Nat}
    {readers : List (Absence × (List UInt8 → Except Failure (Data × List UInt8)))}
    (sound : ∀ entry ∈ readers, Sound entry.2) {index : Nat} {ds : List Data}
    (done : readFieldsBy name count readers index bytes = .ok (ds, left))
    (closed : skipBlank left = Open.list.closing :: rest) : Remainder .list (index == 0) bytes rest := by
  induction readers generalizing index bytes ds with
  | nil =>
    cases done
    exact .close closed
  | cons entry readers ih =>
    obtain ⟨absence, reader⟩ := entry
    have others : ∀ entry ∈ readers, Sound entry.2 := fun entry member => sound entry (.tail _ member)
    obtain ⟨found, next, done⟩ := ok_of_bind done
    have start := nextItem_sound next
    cases found with
    | some entry =>
      obtain ⟨⟨d, after⟩, reading, done⟩ := ok_of_bind done
      obtain ⟨⟨ds, left⟩, more, done⟩ := ok_of_bind done
      cases done
      exact .enter start (.item (sound _ (.head _) reading)) (ih others more)
    | none =>
      cases absence with
      | refused => cases done
      | optional => cases done
      | default d =>
        obtain ⟨⟨ds, left⟩, more, done⟩ := ok_of_bind done
        cases done
        obtain ⟨after, start⟩ := start
        have onward : Onward .list bytes rest := ih others more
        exact .close (onward.closed start)

theorem left_of_collect {fields : List (Field Schema)} {read : List (String × Data)} {d : Data}
    (done : collect fields read left = .ok (d, rest)) : left = rest := by
  rw [collect] at done
  split at done <;> cases done
  rfl

theorem sound_list {item : List UInt8 → Except Failure (Data × List UInt8)} (sound : Sound item) {fuel : Nat}
    {more : List UInt8} {d : Data} (start : skipBlank bytes = Open.list.opening :: more)
    (done : inList (readItemsBy item fuel [] more) = .ok (d, rest)) : Grammar.Value bytes rest := by
  obtain ⟨left, items, closed⟩ := of_inList done
  exact .group .list (.opened start (readItemsBy_sound sound items closed))

theorem left_of_variant {names : List String} {s : String} {d : Data}
    (done : (match decodeVariant names s with
      | .ok d => .ok (d, left)
      | .error cause => failAt cause left) = Except.ok (d, rest)) : left = rest := by
  split at done <;> cases done
  rfl

theorem sound_variant (names : List String) (room : Nat) : Sound (readVariant names room) := by
  intro bytes d rest done
  rw [readVariant] at done
  obtain ⟨b, more, start, done⟩ := meets done
  split at done
  case isTrue quote =>
    obtain ⟨⟨s, left⟩, string, done⟩ := ok_of_bind done
    cases left_of_variant done
    exact value_of_scalar start (quote ▸ .string (readString_sound string))
  split at done
  case isFalse => cases done
  case isTrue brace =>
  split at done
  case isTrue => cases done
  case isFalse =>
  obtain ⟨c, name, behind, done⟩ := meets done
  split at done
  case isFalse => cases done
  case isTrue quote =>
  obtain ⟨⟨s, named⟩, string, done⟩ := ok_of_bind done
  obtain ⟨⟨d, left⟩, chosen, done⟩ := ok_of_bind done
  cases left_of_variant chosen
  obtain ⟨value, colon, done⟩ := ok_of_bind done
  obtain ⟨⟨_, left⟩, reading, done⟩ := ok_of_bind done
  obtain ⟨c, more, closing, done⟩ := meets done
  split at done
  case isFalse => cases done
  case isTrue brace' =>
  cases done
  have entry := member_sound (readString_sound string) colon (sound_unit reading)
  have closed : skipBlank left = Open.object.closing :: rest := closing.trans (brace' ▸ rfl)
  have inside := Inside.entries (Entry.of_skipBlank (behind ▸ quote ▸ entry)) (.close closed)
  exact .group .object (.opened (start.trans (brace ▸ rfl)) inside)

theorem group_of_record {name : String} {fields : List (Field Schema)} {room : Nat} {d : Data}
    (readers : ∀ entry ∈ fieldReaders fields (room - 1), Sound entry.2)
    (done : readWith (.record name fields) room bytes = .ok (d, rest)) : ∃ kind, Group kind bytes rest := by
  simp only [readWith] at done
  obtain ⟨b, more, start, done⟩ := meets done
  split at done
  case isTrue bracket =>
    split at done
    case isTrue => cases done
    case isFalse =>
    obtain ⟨left, items, closed⟩ := of_inList done
    obtain ⟨⟨ds, after⟩, reading, same⟩ := ok_of_map items
    cases same
    refine ⟨.list, .opened (start.trans (bracket ▸ rfl)) (readFieldsBy_sound ?_ reading closed)⟩
    intro entry member
    obtain ⟨reader, reading, same⟩ := List.mem_map.mp (List.of_mem_zip member).2
    exact same ▸ readers reader reading
  split at done
  case isFalse => cases done
  case isTrue brace =>
  split at done
  case isTrue => cases done
  case isFalse =>
  obtain ⟨left, members, closed⟩ := of_inObject done
  obtain ⟨⟨found, after⟩, reading, collected⟩ := ok_of_bind members
  cases left_of_collect collected
  exact ⟨.object, .opened (start.trans (brace ▸ rfl)) (readMembersBy_sound readers reading closed)⟩

theorem sound_detached (schema : Schema) (room : Nat) : Sound (readDetached schema room) := by
  intro bytes d rest done
  obtain ⟨⟨v, left⟩, reading, done⟩ := ok_of_bind done
  dsimp only at done
  split at done
  · cases done
    exact readValue_sound reading
  · cases done

end Groups

mutual
theorem sound_readWith : (schema : Schema) → (room : Nat) → Sound (schema.readWith room)
  | .value, room => by
    intro bytes d rest done
    obtain ⟨⟨v, left⟩, reading, same⟩ := ok_of_map done
    cases same
    exact readValue_sound reading
  | .ignored, room => by
    intro bytes d rest done
    obtain ⟨left, passed, same⟩ := ok_of_map done
    cases same
    exact skipValue_sound passed
  | .unit, room => sound_unit
  | .boolean, room => sound_boolean
  | .text, room => by
    intro bytes d rest done
    obtain ⟨⟨s, left⟩, reading, same⟩ := ok_of_map done
    cases same
    exact sound_text reading
  | .integer range, room => sound_integer range
  | .option content, room => by
    intro bytes d rest done
    simp only [readWith] at done
    split at done
    case h_1 b more start =>
      split at done
      case isTrue letter => exact value_of_scalar start (word_sound letter done ▸ .null)
      case isFalse => exact Value.of_skipBlank (start ▸ sound_readWith content room done)
    case h_2 start => exact Value.of_skipBlank (start ▸ sound_readWith content room done)
  | .list item, room => by
    intro bytes d rest done
    simp only [readWith] at done
    obtain ⟨b, more, start, done⟩ := meets done
    split at done
    case isFalse => cases done
    case isTrue bracket =>
    split at done
    case isTrue => cases done
    case isFalse => exact sound_list (sound_readWith item (room - 1)) (start.trans (bracket ▸ rfl)) done
  | .variant names, room => sound_variant names room
  | .record name fields, room => by
    intro bytes d rest done
    obtain ⟨kind, form⟩ := group_of_record (sound_fieldReaders fields (room - 1)) done
    exact .group kind form
  | .uri, room | .map _ _, room | .merged _ _ _, room | .tagged _ _ _, room | .untagged _ _, room
  | .toggled _ _, room | .recursive _, room | .recur, room => sound_detached _ room

theorem sound_fieldReaders : (fields : List (Field Schema)) → (room : Nat) →
    ∀ entry ∈ fieldReaders fields room, Sound entry.2
  | [], _ => by
    intro entry member
    rw [fieldReaders] at member
    exact absurd member List.not_mem_nil
  | ⟨name, shape, absence, omitted⟩ :: fields, room => by
    intro entry member
    rw [fieldReaders] at member
    rcases List.mem_cons.mp member with rfl | member
    · exact sound_readWith shape room
    · exact sound_fieldReaders fields room entry member
end

theorem text_of_record {name : String} {fields : List (Field Schema)} {input : List UInt8} {d : Data}
    (done : (Schema.record name fields).read input = .ok d) : ∃ kind, Text kind input := by
  obtain ⟨rest, reading, ended⟩ := readAll_sound done
  obtain ⟨kind, form⟩ := group_of_record (sound_fieldReaders fields _) reading
  exact ⟨kind, rest, form, ended⟩

end LanguageClient.Schema
