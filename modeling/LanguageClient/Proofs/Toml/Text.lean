import LanguageClient.Json.Writer
import LanguageClient.Toml.Document

/-! Texts in a document. Any text can be the value of a key: it is written on a line, and read back. -/

set_option autoImplicit false
namespace LanguageClient.Toml

open Json (hexDigit)

/-! Texts. -/

theorem readBasic_length {edition : Edition} {read chars rest : List Char} {s : String}
    (found : readBasic edition read chars = some (s, rest)) :
    s.toList.length < read.length + chars.length := by
  fun_induction readBasic edition read chars
  case case1 | case4 | case6 | case8 | case10 | case12 => cases found
  case case2 =>
    cases found
    simp
  -- Each further character of the text takes at least one that is read.
  case case3 | case5 | case7 | case9 | case11 =>
    rename_i ih
    have shorter := ih found
    simp only [List.length_cons] at shorter ⊢
    omega

def writeChar (c : Char) : List Char :=
  if c = '"' ∨ c = '\\' then ['\\', c]
  else if isPrintable c then [c]
  else ['\\', 'u', '0', '0', hexDigit (c.toNat / 16), hexDigit (c.toNat % 16)]

def writeTail (chars : List Char) : List Char := chars.flatMap writeChar ++ ['"']

theorem charOfHex?_small : ∀ n < 0x80,
    Text.charOfHex? ['0', '0', hexDigit (n / 16), hexDigit (n % 16)] = some (.ofNat n) := by
  decide

theorem small_of_not_printable {c : Char} (hidden : isPrintable c = false) : c.toNat < 0x80 := by
  simp only [isPrintable, Bool.or_eq_false_iff, Bool.and_eq_false_iff, bne_eq_false_iff_eq,
    decide_eq_false_iff_not] at hidden
  omega

theorem readBasic_escape {c : Char} (mark : c = '"' ∨ c = '\\') (edition : Edition) (read rest : List Char) :
    readBasic edition read ('\\' :: c :: rest) = readBasic edition (c :: read) rest := by
  have means : edition.escape? c = some c := by
    rcases mark with rfl | rfl <;> simp [Edition.escape?] <;> rfl
  rw [readBasic.eq_def]
  split
  case h_1 same => cases same
  case h_2 same => simp at same
  case h_3 | h_4 | h_5 =>
    rename_i same
    rcases mark with rfl | rfl <;> simp at same
  case h_6 same =>
    obtain ⟨-, behind⟩ := List.cons.inj same
    obtain ⟨rfl, rfl⟩ := List.cons.inj behind
    rw [means]
  case h_7 escaped same =>
    obtain ⟨rfl, rfl⟩ := List.cons.inj same
    exact absurd rfl (escaped c rest rfl)

theorem readBasic_plain {c : Char} (mark : c ≠ '"') (slash : c ≠ '\\') (visible : isPrintable c = true)
    (edition : Edition) (read rest : List Char) :
    readBasic edition read (c :: rest) = readBasic edition (c :: read) rest := by
  rw [readBasic.eq_def]
  split
  case h_1 same => cases same
  case h_2 same => exact absurd (List.cons.inj same).1 mark
  case h_3 | h_4 | h_5 | h_6 =>
    rename_i same
    exact absurd (List.cons.inj same).1 slash
  case h_7 same =>
    obtain ⟨rfl, rfl⟩ := List.cons.inj same
    exact if_pos visible

theorem readBasic_number {c : Char} (small : c.toNat < 0x80) (edition : Edition) (read rest : List Char) :
    readBasic edition read
        ('\\' :: 'u' :: '0' :: '0' :: hexDigit (c.toNat / 16) :: hexDigit (c.toNat % 16) :: rest) =
      readBasic edition (c :: read) rest := by
  rw [readBasic.eq_def]
  simp only [charOfHex?_small _ small, Char.ofNat_toNat]

theorem readBasic_writeChar (edition : Edition) (c : Char) (read rest : List Char) :
    readBasic edition read (writeChar c ++ rest) = readBasic edition (c :: read) rest := by
  unfold writeChar
  split
  · rename_i marked
    exact readBasic_escape marked edition read rest
  · rename_i plain
    obtain ⟨mark, slash⟩ := not_or.mp plain
    split
    · rename_i visible
      exact readBasic_plain mark slash visible edition read rest
    · rename_i hidden
      exact readBasic_number (small_of_not_printable (Bool.not_eq_true _ ▸ hidden)) edition read rest

theorem readBasic_written (edition : Edition) (chars read : List Char) :
    readBasic edition read (writeTail chars) = some (.ofList (read.reverse ++ chars), []) := by
  induction chars generalizing read with
  | nil =>
    rw [List.append_nil]
    rfl
  | cons c chars ih =>
    rw [writeTail, List.flatMap_cons, List.append_assoc, readBasic_writeChar, ← writeTail, ih,
      List.reverse_cons, List.append_assoc, List.singleton_append]

/-- A text does not look like one of several lines: it has three quotes in a row nowhere. -/
theorem readText_written (edition : Edition) (s : String) :
    readText edition ('"' :: writeTail s.toList) = some (s, []) := by
  have read : readBasic edition [] (writeTail s.toList) = some (s, []) := by
    rw [readBasic_written, List.reverse_nil, List.nil_append, String.ofList_toList]
  cases same : s.toList with
  | nil =>
    rw [same] at read
    exact read
  | cons c chars =>
    -- A text that is not empty does not begin with a quote, so the reader does not look for three of them.
    have solid : ∃ d more, writeTail (c :: chars) = d :: more ∧ d ≠ '"' := by
      rw [writeTail, List.flatMap_cons, writeChar]
      split
      · exact ⟨'\\', _, rfl, by decide⟩
      · rename_i plain
        split
        · exact ⟨c, _, rfl, fun mark => plain (.inl mark)⟩
        · exact ⟨'\\', _, rfl, by decide⟩
    obtain ⟨d, more, begins, other⟩ := solid
    rw [same, begins] at read
    rw [begins, readText]
    · exact read
    · rintro rest ⟨⟩
      exact other rfl

/-! Entries. -/

/-- A line that sets a key to a text. -/
def entryLine (key value : String) : String :=
  .ofList (key.toList ++ ' ' :: '=' :: ' ' :: '"' :: writeTail value.toList)

structure Bare (key : String) : Prop where
  nonempty : key.toList ≠ []
  bare : ∀ c ∈ key.toList, isBare c = true

section Entry

variable {edition : Edition} {key : String}

theorem Bare.first (bare : Bare key) : ∃ c chars, key.toList = c :: chars ∧ isBare c = true := by
  obtain ⟨c, chars, same⟩ := List.exists_cons_of_ne_nil bare.nonempty
  exact ⟨c, chars, same, bare.bare c (same ▸ List.mem_cons_self)⟩

theorem ne_of_bare {c d : Char} (bare : isBare c = true) (other : isBare d = false) : c ≠ d := by
  rintro rfl
  cases bare.symm.trans other

theorem isBlank_of_bare {c : Char} (bare : isBare c = true) : isBlank c = false := by
  rw [isBlank, beq_false_of_ne (ne_of_bare bare (by decide)), beq_false_of_ne (ne_of_bare bare (by decide))]
  rfl

theorem skipBlanks_bare {c : Char} (bare : isBare c = true) (rest : List Char) :
    skipBlanks (c :: rest) = c :: rest := by
  rw [skipBlanks, List.dropWhile_cons_of_neg (by simp [isBlank_of_bare bare])]

theorem skipFiller_bare {c : Char} (bare : isBare c = true) (rest : List Char) :
    skipFiller false (c :: rest) = some (c :: rest) := by
  have apart {d : Char} (other : isBare d = false) : c ≠ d := ne_of_bare bare other
  unfold skipFiller
  split
  · rename_i same
    cases same
  · rename_i same
    cases same
    cases bare
  · rename_i same
    cases same
    cases bare
  · rename_i same
    cases same
    simp [isBlank_of_bare bare, apart (d := '#') (by decide)]

theorem readName_bare (bare : Bare key) {stop : Char} (other : isBare stop = false) (rest : List Char) :
    readName edition (key.toList ++ stop :: rest) = some (key, stop :: rest) := by
  have taken : (key.toList ++ stop :: rest).takeWhile isBare = key.toList := by
    rw [List.takeWhile_append_of_pos bare.bare, List.takeWhile_cons_of_neg (by simp [other]), List.append_nil]
  obtain ⟨c, chars, same, first⟩ := bare.first
  unfold readName
  split
  · rename_i begins
    cases same ▸ begins
    cases first
  · rename_i begins
    cases same ▸ begins
    cases first
  · have nonempty : key.toList.isEmpty = false := by rw [same]; rfl
    simp only [taken, nonempty, Bool.false_eq_true, if_false, String.ofList_toList, List.drop_left]

theorem readKey_bare (bare : Bare key) {room : Nat} (names : edition.names = room + 1) (rest : List Char) :
    readKey edition (key.toList ++ ' ' :: '=' :: rest) = some ([key], '=' :: rest) := by
  have solid : skipBlanks (key.toList ++ ' ' :: '=' :: rest) = key.toList ++ ' ' :: '=' :: rest := by
    obtain ⟨c, chars, same, first⟩ := bare.first
    rw [same]
    exact skipBlanks_bare first _
  have mark : skipBlanks (' ' :: '=' :: rest) = '=' :: rest := rfl
  rw [readKey, names, readNames, solid, readName_bare bare (by decide)]
  simp only [bind, Option.bind, mark]
  rfl

theorem readLine_entry (bare : Bare key) {room : Nat} (names : edition.names = room + 1) (value : String) :
    readLine edition {} (entryLine key value).toList = some (⟨[(key, .string value)], []⟩, []) := by
  have text : readValue edition edition.nesting ('"' :: writeTail value.toList) = some (.string value, []) := by
    rw [readValue, readText_written]
    rfl
  have start : skipBlanks (' ' :: '"' :: writeTail value.toList) = '"' :: writeTail value.toList := rfl
  obtain ⟨c, chars, same, first⟩ := bare.first
  rw [entryLine, String.toList_ofList]
  unfold readLine
  split
  · rename_i begins
    obtain ⟨rfl, -⟩ := List.cons.inj (same ▸ begins)
    cases first
  · rename_i begins
    obtain ⟨rfl, -⟩ := List.cons.inj (same ▸ begins)
    cases first
  · rw [readKey_bare bare names]
    simp only [bind, Option.bind, start, text]
    rfl

/-- A document of one such line sets the key to just that text. -/
theorem read_entryLine (bare : Bare key) {room : Nat} (names : edition.names = room + 1) (value : String) :
    read edition (entryLine key value) = some [(key, .string value)] := by
  have line := readLine_entry bare names value
  obtain ⟨c, chars, same, first⟩ := bare.first
  obtain ⟨rest, begins⟩ : ∃ rest, (entryLine key value).toList = c :: rest := by
    rw [entryLine, String.toList_ofList, same]
    exact ⟨_, rfl⟩
  rw [begins] at line
  have unmarked : c ≠ '\ufeff' := ne_of_bare first (by decide)
  unfold read
  rw [begins]
  split
  · rename_i marked
    cases marked
    exact absurd rfl unmarked
  · simp only [List.length_cons, readLines, skipFiller_bare first, bind, Option.bind, line]
    rfl

end Entry

end LanguageClient.Toml
