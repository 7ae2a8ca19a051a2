import LanguageClient.Config.Variables
import LanguageClient.Proofs.Text
import LanguageClient.Proofs.Toml.Text

/-! What the text of a variable is taken for, if it is not taken for itself.

A text without blanks around it stands for itself, unless it is a list with commas, a flag, a number,
or has a bracket or a quote in front that closes at the end.
-/

set_option autoImplicit false
namespace LanguageClient.Config

open Json (Value)

def isOpening (c : Char) : Bool := c == '[' || c == '\x7b' || c == '"' || c == '\x27'

def opens (chars : List Char) : Bool := chars.head?.any isOpening

/-- Behind a bracket or a quote there is something that can be read to the end. -/
structure Enclosed (text : String) : Prop where
  opens : opens text.toList = true
  closes : ∃ value, readSetting text.toList.length text.toList = some (value, [])

/-- A number with a point, or a whole one of 64 bits. -/
inductive Numeric (chars : List Char) : Prop where
  | fraction {decimal : Text.Decimal} : Text.decimal? chars = some decimal → '.' ∈ chars → Numeric chars
  | whole {n : Int} : whole? chars = some n → Numeric chars

/-- Texts that a variable does not hold as they are. -/
inductive Guessed (text : String) : Prop where
  | list : ',' ∈ text.toList → opens text.toList = false → Guessed text
  | flag : Text.lowerAscii text = "true" ∨ Text.lowerAscii text = "false" → Guessed text
  | number : Numeric text.toList → Guessed text
  | enclosed : Enclosed text → Guessed text

/-! Readers. -/

section Readers

variable {room : Nat} {chars rest : List Char} {value : Value} {s : String}

theorem isPlainList_eq (chars : List Char) : isPlainList chars = (chars.contains ',' && !opens chars) := by
  unfold isPlainList
  congr 1
  split
  · rfl
  · rfl
  · rfl
  · rfl
  · rename_i list table quote single
    cases chars with
    | nil => rfl
    | cons c rest =>
      have other (d : Char) (apart : ∀ rest', c :: rest = d :: rest' → False) : (c == d) = false :=
        beq_false_of_ne fun same => apart rest (congrArg (· :: rest) same)
      simp [opens, isOpening, other _ list, other _ table, other _ quote, other _ single]

theorem isBlank_of_isSpace {c : Char} (space : isSpace c = true) : Text.isBlank c = true := by
  simp only [isSpace, Bool.or_eq_true, beq_iff_eq] at space
  rcases space with (((rfl | rfl) | rfl) | rfl) | rfl <;> decide

theorem isSpace_of_isSeparator {c : Char} (separator : isSeparator c = true) : isSpace c = false := by
  simp only [isSeparator, Bool.or_eq_true, beq_iff_eq] at separator
  rcases separator with (((rfl | rfl) | rfl) | rfl) | rfl <;> decide

theorem skipSpace_of_trimmed (trimmed : Text.trimChars chars = chars) : skipSpace chars = chars := by
  have start := Text.trimStart_of_trimChars trimmed
  rw [Text.trimStart, List.dropWhile_eq_self_iff] at start
  rw [skipSpace, List.dropWhile_eq_self_iff]
  exact fun nonempty space => start nonempty (isBlank_of_isSpace space)

theorem readSetting_true (start : skipSpace chars = chars) (flag : "true".toList.isPrefixOf chars = true) :
    readSetting room chars = some (.boolean true, skipSpace (chars.drop 4)) := by
  unfold readSetting
  simp only [start, flag, if_true]
  rfl

theorem readSetting_false (start : skipSpace chars = chars) (other : "true".toList.isPrefixOf chars = false)
    (flag : "false".toList.isPrefixOf chars = true) :
    readSetting room chars = some (.boolean false, skipSpace (chars.drop 5)) := by
  unfold readSetting
  simp only [start, flag, other, Bool.false_eq_true, if_true, if_false]
  rfl

theorem readSetting_word (start : skipSpace chars = chars) (closed : opens chars = false)
    (first : "true".toList.isPrefixOf chars = false) (second : "false".toList.isPrefixOf chars = false) :
    readSetting room chars =
      some (ofBareWord (Text.trimChars (chars.takeWhile fun c => !isSeparator c)),
        skipSpace (chars.drop (chars.takeWhile fun c => !isSeparator c).length)) := by
  unfold readSetting
  simp only [start, first, second, Bool.false_eq_true, if_false]
  split
  case h_1 | h_2 | h_3 | h_4 | h_5 | h_6 => cases closed
  case h_7 => rfl

theorem fitting_length_le (octets : Nat) (chars : List Char) : (fitting octets chars).length ≤ chars.length := by
  induction chars generalizing octets with
  | nil => exact Nat.le_refl 0
  | cons c chars ih =>
    unfold fitting
    dsimp only
    split
    · exact Nat.succ_le_succ (ih _)
    · exact Nat.zero_le _

theorem readQuoted_length (read : readQuoted chars = some (s, rest)) : s.toList.length < chars.length := by
  unfold readQuoted at read
  obtain ⟨⟨text, behind⟩, basic, read⟩ := Option.bind_eq_some_iff.mp read
  have shorter := Toml.readBasic_length basic
  rw [List.length_nil, Nat.zero_add] at shorter
  dsimp only at read
  generalize chars.takeWhile (fun c => c != '"' && c != '\\') = plain at read
  split at read
  · -- The text is pieced together from both sides of the escape, and is shorter by its backslash.
    rename_i escape
    obtain ⟨rfl, -⟩ := Prod.mk.inj (Option.some.inj read)
    have least : plain.length < chars.length := by
      by_contra long
      rw [List.drop_eq_nil_of_le (Nat.not_lt.mp long)] at escape
      cases escape
    have fits := fitting_length_le plain.length plain
    rw [String.toList_ofList, List.length_append, List.length_drop]
    omega
  · obtain ⟨rfl, -⟩ := Prod.mk.inj (Option.some.inj read)
    exact shorter

theorem readCharacter_length (read : readCharacter chars = some (s, rest)) : s.toList.length < chars.length := by
  unfold readCharacter at read
  split at read
  · obtain ⟨rfl, -⟩ := Prod.mk.inj (Option.some.inj read)
    simp [Char.toString]
  · cases read

theorem of_mapped {α : Type} {found : Option α} {make : α → Value × List Char}
    (read : (do
      let (value, rest) ← found.map make
      return (value, skipSpace rest)) = some (value, rest)) : ∃ a, found = some a ∧ value = (make a).1 := by
  obtain ⟨_, mapped, same⟩ := Option.bind_eq_some_iff.mp read
  obtain ⟨a, found, rfl⟩ := Option.map_eq_some_iff.mp mapped
  exact ⟨a, found, (Prod.mk.inj (Option.some.inj same)).1.symm⟩

theorem inside_of_read (start : skipSpace chars = chars) (opening : opens chars = true)
    (read : readSetting room chars = some (value, rest)) :
    value.string? = none ∨ ∃ s, value = .string s ∧ s.toList.length < chars.length := by
  obtain ⟨c, more, rfl⟩ : ∃ c more, chars = c :: more := by
    cases chars with
    | nil => cases opening
    | cons c more => exact ⟨c, more, rfl⟩
  have opening : isOpening c = true := opening
  have unflagged {d : Char} (other : isOpening d = false) (flag : List Char) :
      (d :: flag).isPrefixOf (c :: more) = false := by
    rw [List.isPrefixOf, Bool.and_eq_false_iff]
    refine .inl (beq_false_of_ne ?_)
    rintro rfl
    cases other.symm.trans opening
  have first : "true".toList.isPrefixOf (c :: more) = false := unflagged (d := 't') (by decide) _
  have second : "false".toList.isPrefixOf (c :: more) = false := unflagged (d := 'f') (by decide) _
  unfold readSetting at read
  simp only [start, first, second, Bool.false_eq_true, if_false] at read
  split at read
  · obtain ⟨_, -, rfl⟩ := of_mapped read
    exact .inl rfl
  · obtain ⟨_, -, rfl⟩ := of_mapped read
    exact .inl rfl
  · cases read
  · cases read
  · rename_i same
    obtain ⟨-, rfl⟩ := List.cons.inj same
    obtain ⟨⟨s, _⟩, quoted, rfl⟩ := of_mapped read
    exact .inr ⟨s, rfl, Nat.lt_succ_of_lt (readQuoted_length quoted)⟩
  · rename_i same
    obtain ⟨-, rfl⟩ := List.cons.inj same
    obtain ⟨⟨s, _⟩, single, rfl⟩ := of_mapped read
    exact .inr ⟨s, rfl, Nat.lt_succ_of_lt (readCharacter_length single)⟩
  · rename_i room _ _ quote single table list noTable noList
    simp only [isOpening, Bool.or_eq_true, beq_iff_eq] at opening
    rcases opening with ((rfl | rfl) | rfl) | rfl
    · cases room with
      | zero => exact (noList more rfl rfl).elim
      | succ room => exact (list more room rfl rfl).elim
    · cases room with
      | zero => exact (noTable more rfl rfl).elim
      | succ room => exact (table more room rfl rfl).elim
    · exact (quote more rfl).elim
    · exact (single more rfl).elim

theorem eq_of_skipSpace (trimmed : Text.trimChars chars = chars) {word : List Char} (begins : word <+: chars)
    (solid : Text.trimChars word = word) (spent : skipSpace (chars.drop word.length) = []) : chars = word := by
  obtain ⟨after, rfl⟩ := begins
  rw [List.drop_left, skipSpace, List.dropWhile_eq_nil_iff] at spent
  have blank : ∀ c ∈ after, Text.isBlank c = true := fun c member => isBlank_of_isSpace (spent c member)
  have blanks := Text.trimChars_blank (List.forall_mem_nil _) blank word
  exact trimmed.symm.trans (blanks.trans solid)

theorem takeWhile_of_skipSpace
    (spent : skipSpace (chars.drop (chars.takeWhile fun c => !isSeparator c).length) = []) :
    chars.takeWhile (fun c => !isSeparator c) = chars := by
  have parts := List.takeWhile_append_dropWhile (p := fun c => !isSeparator c) (l := chars)
  have behind : chars.drop (chars.takeWhile fun c => !isSeparator c).length =
      chars.dropWhile fun c => !isSeparator c := (congrArg (List.drop _) parts).symm.trans List.drop_left
  rw [behind] at spent
  cases stop : chars.dropWhile fun c => !isSeparator c with
  | nil => rwa [stop, List.append_nil] at parts
  | cons d rest =>
    have separator := List.head?_dropWhile_not (fun c => !isSeparator c) chars
    simp only [stop, List.head?_cons, Bool.not_eq_false'] at separator
    rw [stop, skipSpace, List.dropWhile_cons_of_neg (by simp [isSpace_of_isSeparator separator])] at spent
    cases spent

end Readers

/-! Numbers. -/

section Numbers

variable {chars : List Char}

theorem ofBareWord_text (plain : ¬ Numeric chars) : ofBareWord chars = .string (.ofList chars) := by
  have fraction : ((Text.decimal? chars).filter fun _ => chars.contains '.') = none := by
    rw [Option.filter_eq_none_iff]
    intro decimal read point
    exact plain (.fraction read (by simpa using point))
  have whole : whole? chars = none :=
    Option.eq_none_iff_forall_ne_some.mpr fun n read => plain (.whole read)
  rw [ofBareWord, fraction, whole]

theorem inNumber_of_whole? {n : Int} (read : whole? chars = some n) : ∀ c ∈ chars, Text.InNumber c := by
  unfold whole? at read
  split at read
  · obtain ⟨_, found, -⟩ := Option.map_eq_some_iff.mp read
    obtain ⟨_, digits, -⟩ := Option.bind_eq_some_iff.mp found
    refine List.forall_mem_cons.mpr ⟨.inr (by decide), ?_⟩
    exact Text.inNumber_of_digits? (Option.filter_eq_some_iff.mp digits).1
  · obtain ⟨_, read, -⟩ := Option.map_eq_some_iff.mp read
    exact Text.inNumber_of_unsigned64? read

theorem inNumber_of_numeric (numeric : Numeric chars) : ∀ c ∈ chars, Text.InNumber c := by
  cases numeric with
  | fraction read _ => exact Text.inNumber_of_decimal? read
  | whole read => exact inNumber_of_whole? read

end Numbers

/-! Guesses. -/

structure Foreign (value : Value) : Prop where
  string : value.string? = none
  format : format? value = none

section Guesses

variable {text : String} {value : Value}

theorem foreign_array (items : List Value) : Foreign (.array items) := ⟨rfl, rfl⟩

theorem foreign_boolean (b : Bool) : Foreign (.boolean b) := ⟨rfl, rfl⟩

theorem foreign_ofDouble (d : Double) : Foreign (.ofDouble d) := by
  unfold Value.ofDouble
  split
  · exact ⟨rfl, rfl⟩
  · exact ⟨rfl, rfl⟩

theorem foreign_ofBareWord {chars : List Char} (numeric : Numeric chars) : Foreign (ofBareWord chars) := by
  unfold ofBareWord
  cases numeric with
  | @fraction decimal read point =>
    have kept : ((Text.decimal? chars).filter fun _ => chars.contains '.') = some decimal :=
      Option.filter_eq_some_iff.mpr ⟨read, List.contains_iff_mem.mpr point⟩
    rw [kept]
    exact foreign_ofDouble _
  | whole read =>
    rw [read]
    split
    · exact foreign_ofDouble _
    · exact ⟨rfl, rfl⟩

theorem readSetting_numeric {room : Nat} {chars : List Char} (trimmed : Text.trimChars chars = chars)
    (numeric : Numeric chars) : readSetting room chars = some (ofBareWord chars, []) := by
  have apart {c : Char} (member : c ∈ chars) {d : Char} (other : ¬ Text.InNumber d) : c ≠ d :=
    fun same => other (same ▸ inNumber_of_numeric numeric c member)
  have closed : opens chars = false := by
    cases chars with
    | nil => rfl
    | cons c rest =>
      have apart {d : Char} := apart (d := d) (List.mem_cons_self (a := c) (l := rest))
      simp [opens, isOpening, apart (d := '[') (by decide), apart (d := '\x7b') (by decide),
        apart (d := '"') (by decide), apart (d := '\x27') (by decide)]
  have unflagged {d : Char} (other : ¬ Text.InNumber d) (flag : List Char) :
      (d :: flag).isPrefixOf chars = false := by
    cases chars with
    | nil => rfl
    | cons c rest =>
      rw [List.isPrefixOf, Bool.and_eq_false_iff]
      exact .inl (beq_false_of_ne (apart List.mem_cons_self other).symm)
  have whole : chars.takeWhile (fun c => !isSeparator c) = chars := by
    rw [List.takeWhile_eq_self_iff]
    intro c member
    have apart {d : Char} := apart (d := d) member
    simp [isSeparator, apart (d := ',') (by decide), apart (d := '[') (by decide), apart (d := ']') (by decide),
      apart (d := '\x7b') (by decide), apart (d := '\x7d') (by decide)]
  rw [readSetting_word (skipSpace_of_trimmed trimmed) closed (unflagged (d := 't') (by decide) _)
    (unflagged (d := 'f') (by decide) _), whole, trimmed, List.drop_length]
  rfl

theorem flag_of_read {flag : String} (trimmed : Text.Trimmed text)
    (begins : flag.toList.isPrefixOf text.toList = true) (solid : Text.trimChars flag.toList = flag.toList)
    (spent : skipSpace (text.toList.drop flag.toList.length) = []) : text = flag :=
  String.toList_inj.mp
    (eq_of_skipSpace (Text.trimChars_of_trimmed trimmed) (List.isPrefixOf_iff_prefix.mp begins) solid spent)

theorem read_of_not_guessed (trimmed : Text.Trimmed text) (plain : ¬ Guessed text)
    (read : readSetting text.toList.length text.toList = some (value, [])) : value = .string text := by
  have solid := Text.trimChars_of_trimmed trimmed
  have start := skipSpace_of_trimmed solid
  -- What is left after the enclosed values and the flags is a word, and no number is one.
  have closed : opens text.toList = false := by
    by_contra opening
    exact plain (.enclosed ⟨by simpa using opening, value, read⟩)
  cases first : "true".toList.isPrefixOf text.toList with
  | true =>
    rw [readSetting_true start first] at read
    obtain ⟨-, spent⟩ := Prod.mk.inj (Option.some.inj read)
    obtain rfl := flag_of_read trimmed first (by decide) spent
    exact absurd (.flag (.inl (by decide))) plain
  | false =>
    cases second : "false".toList.isPrefixOf text.toList with
    | true =>
      rw [readSetting_false start first second] at read
      obtain ⟨-, spent⟩ := Prod.mk.inj (Option.some.inj read)
      obtain rfl := flag_of_read trimmed second (by decide) spent
      exact absurd (.flag (.inr (by decide))) plain
    | false =>
      rw [readSetting_word start closed first second] at read
      obtain ⟨word, spent⟩ := Prod.mk.inj (Option.some.inj read)
      rw [takeWhile_of_skipSpace spent, solid, ofBareWord_text fun numeric => plain (.number numeric),
        String.ofList_toList] at word
      exact word.symm

/-- What a variable is not guessed to hold is its text. -/
theorem ofVariable_of_not_guessed (trimmed : Text.Trimmed text) (plain : ¬ Guessed text) :
    ofVariable text = .string text := by
  have list : isPlainList text.toList = false := by
    rw [isPlainList_eq, Bool.and_eq_false_iff, Bool.not_eq_false']
    by_contra list
    obtain ⟨comma, closed⟩ := not_or.mp list
    exact plain (.list (by simpa using comma) (by simpa using closed))
  obtain ⟨first, second⟩ := not_or.mp fun flag => plain (.flag flag)
  simp only [ofVariable, show Text.trim text = text from trimmed, list, Bool.false_eq_true, if_false, first, second]
  split
  · exact read_of_not_guessed trimmed plain ‹_›
  · rfl

/-- What is guessed is no text, unless something is enclosed; that is a shorter text at best. -/
theorem ofVariable_of_guessed (trimmed : Text.Trimmed text) (guessed : Guessed text) :
    Foreign (ofVariable text) ∨
      Enclosed text ∧ ∀ s, ofVariable text = .string s → s.toList.length < text.toList.length := by
  have solid := Text.trimChars_of_trimmed trimmed
  unfold ofVariable
  rw [show Text.trim text = text from trimmed]
  dsimp only
  split
  · exact .inl (foreign_array _)
  · rename_i list
    split
    · exact .inl (foreign_boolean _)
    · rename_i first
      split
      · exact .inl (foreign_boolean _)
      · rename_i second
        cases guessed with
        | list comma closed =>
          refine absurd ?_ list
          rw [isPlainList_eq, closed, List.contains_iff_mem.mpr comma]
          rfl
        | flag flag => exact absurd flag (not_or.mpr ⟨first, second⟩)
        | number numeric =>
          rw [readSetting_numeric solid numeric]
          exact .inl (foreign_ofBareWord numeric)
        | enclosed enclosed =>
          obtain ⟨value, read⟩ := enclosed.closes
          rw [read]
          refine .inr ⟨enclosed, fun s same => ?_⟩
          rcases inside_of_read (skipSpace_of_trimmed solid) enclosed.opens read with none | ⟨t, text, shorter⟩
          · cases (congrArg Value.string? same).symm.trans none
          · obtain ⟨⟩ := same.symm.trans text
            exact shorter

theorem ofVariable_trim (text : String) : ofVariable (Text.trim text) = ofVariable text := by
  unfold ofVariable
  rw [show Text.trim (Text.trim text) = Text.trim text from Text.trimmed_trim text]

/-- A variable holds its text exactly if that has no blanks around it and is not taken for anything else. -/
theorem ofVariable_iff (text : String) : ofVariable text = .string text ↔ Text.Trimmed text ∧ ¬ Guessed text := by
  refine ⟨fun same => ?_, fun ⟨trimmed, plain⟩ => ofVariable_of_not_guessed trimmed plain⟩
  have inner := Text.trimmed_trim text
  rw [← ofVariable_trim] at same
  have plain : ¬ Guessed (Text.trim text) := by
    intro guessed
    rcases ofVariable_of_guessed inner guessed with foreign | ⟨-, shorter⟩
    · cases (congrArg Value.string? same).symm.trans foreign.string
    · have longer := Text.trimChars_length_le text.toList
      have short := shorter text same
      rw [Text.trim, String.toList_ofList] at short
      omega
  have trimmed : Text.trim text = text := by
    have whole := ofVariable_of_not_guessed inner plain
    exact Value.string.inj (whole.symm.trans same)
  exact ⟨trimmed, trimmed ▸ plain⟩

end Guesses
end LanguageClient.Config
