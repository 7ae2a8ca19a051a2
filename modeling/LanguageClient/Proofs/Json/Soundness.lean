import LanguageClient.Proofs.Json.Grammar
import LanguageClient.Proofs.Result

/-! What is read or passed over has the form that the grammar gives it. -/

set_option autoImplicit false
namespace LanguageClient.Json

open Grammar

theorem meets {α : Type} {bytes : List UInt8} {f : Failure} {act : UInt8 → List UInt8 → Except Failure α} {a : α}
    (done : (match skipBlank bytes with
      | [] => .error f
      | b :: rest => act b rest) = Except.ok a) : ∃ b rest, skipBlank bytes = b :: rest ∧ act b rest = .ok a := by
  cases start : skipBlank bytes with
  | nil =>
    rw [start] at done
    cases done
  | cons b rest =>
    rw [start] at done
    exact ⟨b, rest, rfl, done⟩

theorem readAll_sound {α : Type} {reading : List UInt8 → Except Failure (α × List UInt8)} {input : List UInt8}
    {a : α} (done : readAll reading input = .ok a) :
    ∃ rest, reading input = .ok (a, rest) ∧ skipBlank rest = [] := by
  rw [readAll] at done
  rcases result : reading input with f | ⟨value, rest⟩
  · rw [result] at done
    cases done
  · simp only [result, finish] at done
    cases ended : skipBlank rest with
    | nil =>
      simp only [ended] at done
      cases done
      exact ⟨rest, rfl, ended⟩
    | cons b more =>
      simp only [ended] at done
      cases done

theorem readWord_sound {α : Type} {value got : α} {word : List Char} {bytes rest : List UInt8}
    (done : readWord value word bytes = .ok (got, rest)) : got = value ∧ bytes = word.map ascii ++ rest := by
  induction word generalizing bytes with
  | nil =>
    cases done
    exact ⟨rfl, rfl⟩
  | cons c word ih =>
    cases bytes with
    | nil => cases done
    | cons b bytes =>
      rw [readWord] at done
      split at done
      case isTrue same =>
        obtain ⟨rfl, spelled⟩ := ih done
        exact ⟨rfl, by rw [List.map_cons, List.cons_append, same, spelled]⟩
      case isFalse other => cases done

/-! ### Numbers -/

section Numbers

variable {b : UInt8} {bytes rest : List UInt8} {positive : Bool} {significand : Nat} {start : Int} {n : Number}

theorem digits_dropWhile (digit : isDigit b = true) (bytes : List UInt8) :
    Digits (b :: bytes) (bytes.dropWhile isDigit) := by
  induction bytes generalizing b with
  | nil => exact .last digit
  | cons c bytes ih =>
    rw [List.dropWhile_cons]
    split
    case isTrue more => exact .more digit (ih more)
    case isFalse other => exact .last digit

theorem drop_takeWhile (bytes : List UInt8) :
    bytes.drop (bytes.takeWhile isDigit).length = bytes.dropWhile isDigit :=
  calc bytes.drop (bytes.takeWhile isDigit).length
      = (bytes.takeWhile isDigit ++ bytes.dropWhile isDigit).drop (bytes.takeWhile isDigit).length := by
        rw [List.takeWhile_append_dropWhile]
    _ = bytes.dropWhile isDigit := List.drop_left

theorem gatherExponent_left {exponent : Nat} {found : Option Nat} {left : List UInt8}
    (gathered : gatherExponent exponent bytes = (found, left)) :
    left.dropWhile isDigit = bytes.dropWhile isDigit ∧
      (found.isSome = true → left = bytes.dropWhile isDigit) := by
  induction bytes generalizing exponent with
  | nil =>
    cases gathered
    exact ⟨rfl, fun _ => rfl⟩
  | cons d bytes ih =>
    simp only [gatherExponent] at gathered
    split at gathered
    case isTrue digit =>
      rw [List.dropWhile_cons, if_pos digit]
      split at gathered
      case isTrue fits => exact ih gathered
      case isFalse large =>
        cases gathered
        exact ⟨rfl, nofun⟩
    case isFalse other =>
      cases gathered
      have still : (d :: bytes).dropWhile isDigit = d :: bytes := by
        rw [List.dropWhile_cons, if_neg other]
      exact ⟨rfl, fun _ => still.symm⟩

theorem floating_left {exponent : Int} (done : floating positive significand exponent bytes = .ok (n, rest)) :
    rest = bytes := by
  rw [floating] at done
  split at done
  · cases done
    rfl
  · cases done

theorem exponentDigits_sound (raises : Bool)
    (done : (match bytes with
      | [] => failAt .endInValue []
      | b :: rest =>
          if isDigit b then
            match gatherExponent (digitValue b) rest with
            | (some n, left) => floating positive significand (if raises then start + n else start - n) left
            | (none, left) =>
                if significand ≠ 0 ∧ raises then failAt .numberOutOfRange left
                else .ok (.double (signed positive (.ofNat 0)), left.dropWhile isDigit)
          else failAt .invalidNumber rest) = Except.ok (n, rest)) : Digits bytes rest := by
  cases bytes with
  | nil => cases done
  | cons b bytes =>
    dsimp only at done
    split at done
    case isFalse other => cases done
    case isTrue digit =>
      rcases gathered : gatherExponent (digitValue b) bytes with ⟨found | m, left⟩
      · obtain ⟨same, -⟩ := gatherExponent_left gathered
        rw [gathered] at done
        dsimp only at done
        split at done
        · cases done
        · cases done
          rw [same]
          exact digits_dropWhile digit bytes
      · obtain ⟨-, same⟩ := gatherExponent_left gathered
        rw [gathered] at done
        rw [floating_left done, same rfl]
        exact digits_dropWhile digit bytes

theorem readExponent_sound {mark : UInt8} (marked : isExponentMark mark = true)
    (done : readExponent positive significand start bytes = .ok (n, rest)) : Exponent (mark :: bytes) rest := by
  cases bytes with
  | nil => cases done
  | cons sign bytes =>
    rw [readExponent] at done
    by_cases minus : sign = ascii '-'
    · rw [if_pos minus] at done
      exact .signed marked (.inl minus) (exponentDigits_sound false done)
    · by_cases plus : sign = ascii '+'
      · rw [if_neg minus, if_pos plus] at done
        exact .signed marked (.inr plus) (exponentDigits_sound true done)
      · rw [if_neg minus, if_neg plus] at done
        exact .unsigned marked (exponentDigits_sound true done)

theorem readFraction_sound (done : readFraction positive significand start bytes = .ok (n, rest)) :
    ∃ exponent, Fraction (ascii '.' :: bytes) exponent ∧ Exponent exponent rest := by
  rw [readFraction, drop_takeWhile] at done
  cases bytes with
  | nil => cases done
  | cons d bytes =>
    by_cases digit : isDigit d = true
    · have digits := digits_dropWhile digit bytes
      simp only [List.takeWhile_cons, List.dropWhile_cons, digit, if_true, List.isEmpty_cons] at done
      refine ⟨_, .present digits, ?_⟩
      cases left : bytes.dropWhile isDigit with
      | nil =>
        rw [left] at done
        rw [floating_left done]
        exact .absent
      | cons mark more =>
        rw [left] at done
        by_cases marked : isExponentMark mark = true
        · exact readExponent_sound marked (by simpa only [marked, if_true, Bool.false_eq_true, if_false] using done)
        · simp only [marked, Bool.false_eq_true, if_false] at done
          rw [floating_left done]
          exact .absent
    · simp only [List.takeWhile_cons, if_neg digit, List.isEmpty_nil, if_true] at done
      split at done <;> cases done

theorem whole_sound {d : UInt8} (digit : isDigit d = true)
    (leading : ¬(d = ascii '0' ∧ (bytes.head?.map isDigit).getD false = true)) :
    Whole (d :: bytes) (bytes.dropWhile isDigit) := by
  by_cases zero : d = ascii '0'
  · have still : bytes.dropWhile isDigit = bytes := by
      cases bytes with
      | nil => rfl
      | cons c bytes => exact List.dropWhile_cons_of_neg fun more => leading ⟨zero, more⟩
    rw [still, zero]
    exact .zero
  · exact .digits zero (digits_dropWhile digit bytes)

theorem readNumber_sound (done : readNumber positive bytes = .ok (n, rest)) : Magnitude bytes rest := by
  cases bytes with
  | nil => cases done
  | cons d bytes =>
    by_cases digit : isDigit d = true
    case neg =>
      simp only [readNumber, digit, Bool.not_false, if_true] at done
      cases done
    simp only [readNumber, drop_takeWhile, List.dropWhile_cons_of_pos digit, digit, Bool.not_true,
      Bool.false_eq_true, if_false] at done
    split at done
    case isTrue zero =>
      cases done
    case isFalse leading =>
    have whole := whole_sound digit leading
    cases left : bytes.dropWhile isDigit with
    | nil =>
      simp only [left] at whole done
      split at done
      · cases done
        exact .parts whole .absent .absent
      · rw [floating_left done]
        exact .parts whole .absent .absent
    | cons mark more =>
      simp only [left] at whole done
      split at done
      case isTrue point =>
        rw [point] at whole
        obtain ⟨exponent, fraction, exponent_sound⟩ := readFraction_sound done
        exact .parts whole fraction exponent_sound
      case isFalse =>
        split at done
        case isTrue marked => exact .parts whole .absent (readExponent_sound marked done)
        case isFalse =>
          split at done
          · cases done
            exact .parts whole .absent .absent
          · rw [floating_left done]
            exact .parts whole .absent .absent

theorem skipExponent_sound {mark : UInt8} (marked : isExponentMark mark = true)
    (done : skipExponent bytes = .ok rest) : Exponent (mark :: bytes) rest := by
  have digits {bytes : List UInt8} (done : (match bytes with
      | [] => failAt .invalidNumber []
      | b :: rest => if isDigit b then .ok (rest.dropWhile isDigit) else failAt .invalidNumber rest) =
        Except.ok rest) : Digits bytes rest := by
    cases bytes with
    | nil => cases done
    | cons b bytes =>
      dsimp only at done
      split at done
      case isTrue digit =>
        cases done
        exact digits_dropWhile digit bytes
      case isFalse => cases done
  cases bytes with
  | nil => cases done
  | cons sign bytes =>
    rw [skipExponent] at done
    by_cases signed : sign = ascii '-' ∨ sign = ascii '+'
    · rw [if_pos signed] at done
      exact .signed marked signed (digits done)
    · rw [if_neg signed] at done
      exact .unsigned marked (digits done)

theorem fraction_sound (longer : ¬(bytes.dropWhile isDigit).length = bytes.length) :
    Fraction (ascii '.' :: bytes) (bytes.dropWhile isDigit) := by
  cases bytes with
  | nil => exact absurd rfl longer
  | cons d bytes =>
    have digit : isDigit d = true := Decidable.byContradiction fun other =>
      longer (congrArg List.length (List.dropWhile_cons_of_neg other))
    rw [List.dropWhile_cons_of_pos digit]
    exact .present (digits_dropWhile digit bytes)

theorem skipNumber_sound (done : skipNumber bytes = .ok rest) : Magnitude bytes rest := by
  cases bytes with
  | nil => cases done
  | cons d bytes =>
    by_cases digit : isDigit d = true
    case neg =>
      simp only [skipNumber, digit, Bool.not_false, if_true] at done
      cases done
    simp only [skipNumber, List.dropWhile_cons_of_pos digit, digit, Bool.not_true,
      Bool.false_eq_true, if_false] at done
    split at done
    case isTrue zero => cases done
    case isFalse leading =>
    have whole := whole_sound digit leading
    cases left : bytes.dropWhile isDigit with
    | nil =>
      simp only [left] at whole done
      cases done
      exact .parts whole .absent .absent
    | cons mark more =>
      simp only [left] at whole done
      by_cases point : mark = ascii '.'
      · rw [point] at whole
        rw [if_pos point] at done
        split at done
        case isTrue => cases done
        case isFalse longer =>
        have fraction := fraction_sound longer
        cases after : more.dropWhile isDigit with
        | nil =>
          simp only [after] at fraction done
          cases done
          exact .parts whole fraction .absent
        | cons c more =>
          simp only [after] at fraction done
          split at done
          case isTrue marked => exact .parts whole fraction (skipExponent_sound marked done)
          case isFalse =>
            cases done
            exact .parts whole fraction .absent
      · rw [if_neg point] at done
        split at done
        case isTrue marked => exact .parts whole .absent (skipExponent_sound marked done)
        case isFalse =>
          cases done
          exact .parts whole .absent .absent

end Numbers

/-! ### Strings -/

section Strings

variable {bytes rest left : List UInt8}

theorem readHex_sound {n : Nat} (done : readHex bytes = .ok (n, rest)) :
    ∃ a b c d, bytes = a :: b :: c :: d :: rest ∧ ∀ digit ∈ [a, b, c, d], (hexValue? digit).isSome = true := by
  match bytes, done with
  | a :: b :: c :: d :: bytes, done =>
    rw [readHex] at done
    split at done
    case h_1 first second third fourth =>
      cases done
      exact ⟨a, b, c, d, rfl, by simp [first, second, third, fourth]⟩
    case h_2 => cases done
  | [], done | [_], done | [_, _], done | [_, _, _], done => cases done

theorem unicode_sound {n : Nat} (done : readHex bytes = .ok (n, rest)) (quoted : Quoted rest left) :
    Quoted (ascii '\\' :: ascii 'u' :: bytes) left := by
  obtain ⟨a, b, c, d, rfl, digits⟩ := readHex_sound done
  exact .unicode digits quoted

theorem readLowSurrogate_sound {high n : Nat} (done : readLowSurrogate high bytes = .ok (n, rest))
    (quoted : Quoted rest left) : Quoted bytes left := by
  match bytes, done with
  | b :: c :: bytes, done =>
    rw [readLowSurrogate] at done
    split at done
    case isFalse => cases done
    case isTrue backslash =>
    split at done
    case isFalse => cases done
    case isTrue letter =>
    obtain ⟨⟨low, more⟩, hex, done⟩ := ok_of_bind done
    dsimp only at done
    split at done
    case isFalse => cases done
    case isTrue =>
      cases done
      rw [backslash, letter]
      exact unicode_sound hex quoted
  | [b], done =>
    rw [readLowSurrogate] at done
    split at done <;> cases done
  | [], done => cases done

theorem readCodePoint_sound {n : Nat} (done : readCodePoint bytes = .ok (n, rest))
    (quoted : Quoted rest left) : Quoted (ascii '\\' :: ascii 'u' :: bytes) left := by
  rw [readCodePoint] at done
  obtain ⟨⟨unit, more⟩, hex, done⟩ := ok_of_bind done
  dsimp only at done
  split at done
  · cases done
  split at done
  case isTrue => exact unicode_sound hex (readLowSurrogate_sound done quoted)
  case isFalse =>
    cases done
    exact unicode_sound hex quoted

theorem readEscape_sound {c : Char} (done : readEscape bytes = .ok (c, rest)) (quoted : Quoted rest left) :
    Quoted (ascii '\\' :: bytes) left := by
  cases bytes with
  | nil => cases done
  | cons b bytes =>
    rw [readEscape] at done
    split at done
    case h_1 known =>
      cases done
      exact .simple (by rw [known]; rfl) quoted
    case h_2 =>
      split at done
      case isFalse => cases done
      case isTrue letter =>
        obtain ⟨⟨n, more⟩, point, done⟩ := ok_of_bind done
        cases done
        rw [letter]
        exact readCodePoint_sound point quoted

theorem readOctets_sound {fuel : Nat} {read octets : List UInt8}
    (done : readOctets fuel read bytes = .ok (octets, rest)) : Quoted bytes rest := by
  induction fuel generalizing read bytes with
  | zero => cases done
  | succ fuel ih =>
    cases bytes with
    | nil => cases done
    | cons b bytes =>
      rw [readOctets] at done
      split at done
      case isTrue quote =>
        cases done
        rw [quote]
        exact .close
      case isFalse quote =>
      split at done
      case isTrue escape =>
        obtain ⟨⟨c, more⟩, escaped, done⟩ := ok_of_bind done
        rw [escape]
        exact readEscape_sound escaped (ih done)
      case isFalse escape =>
      split at done
      case isTrue => cases done
      case isFalse control => exact .plain quote escape control (ih done)

theorem readString_sound {s : String} (done : readString bytes = .ok (s, rest)) : Quoted bytes rest := by
  obtain ⟨⟨octets, more⟩, read, done⟩ := ok_of_bind done
  dsimp only at done
  split at done
  · cases done
    exact readOctets_sound read
  · cases done

theorem skipString_sound {fuel : Nat} (done : skipString fuel bytes = .ok rest) : Quoted bytes rest := by
  induction fuel generalizing bytes with
  | zero => cases done
  | succ fuel ih =>
    cases bytes with
    | nil => cases done
    | cons b bytes =>
      simp only [skipString] at done
      split at done
      case isTrue quote =>
        cases done
        rw [quote]
        exact .close
      case isFalse quote =>
      split at done
      case isTrue escape =>
        rw [escape]
        cases bytes with
        | nil => cases done
        | cons c more =>
          dsimp only at done
          split at done
          case isTrue known => exact .simple known (ih done)
          case isFalse =>
          split at done
          case isFalse => cases done
          case isTrue letter =>
            obtain ⟨⟨n, left⟩, hex, done⟩ := ok_of_bind done
            rw [letter]
            exact unicode_sound hex (ih done)
      case isFalse escape =>
      split at done
      case isTrue => cases done
      case isFalse control => exact .plain quote escape control (ih done)

end Strings

/-! ### Values -/

section Values

variable {bytes rest : List UInt8}

theorem word_sound {α : Type} {value got : α} {b : UInt8} {c : Char} {word : List Char} (first : b = ascii c)
    (done : readWord value word bytes = .ok (got, rest)) : b :: bytes = (c :: word).map ascii ++ rest := by
  rw [first, (readWord_sound done).2, List.map_cons, List.cons_append]

theorem readColon_sound (done : readColon bytes = .ok rest) : skipBlank bytes = ascii ':' :: rest := by
  rw [readColon] at done
  obtain ⟨b, more, start, done⟩ := meets done
  split at done
  case isTrue colon =>
    cases done
    exact colon ▸ start
  case isFalse => cases done

theorem member_sound {name named text next : List UInt8} (string : Quoted name named)
    (colon : readColon named = .ok text) (value : Grammar.Value text next) :
    Entry .object (ascii '"' :: name) next :=
  .member (List.dropWhile_cons_of_neg (by decide)) string (readColon_sound colon) value

mutual
theorem readNested_sound : (fuel : Nat) → ∀ {room : Nat} {bytes rest : List UInt8} {v : Value},
    readNested fuel room bytes = .ok (v, rest) → Grammar.Value bytes rest
  | 0, _, _, _, _, done => by cases done
  | fuel + 1, room, bytes, rest, v, done => by
    rw [readNested] at done
    obtain ⟨b, more, start, done⟩ := meets done
    have scalar (form : Scalar (b :: more) rest) : Grammar.Value bytes rest := .scalar (start ▸ form)
    split at done
    case isTrue letter => exact scalar (word_sound letter done ▸ .null)
    split at done
    case isTrue letter => exact scalar (word_sound letter done ▸ .yes)
    split at done
    case isTrue letter => exact scalar (word_sound letter done ▸ .no)
    split at done
    case isTrue minus =>
      obtain ⟨⟨n, left⟩, number, done⟩ := ok_of_bind done
      cases done
      exact scalar (minus ▸ .negative (readNumber_sound number))
    split at done
    case isTrue =>
      obtain ⟨⟨n, left⟩, number, done⟩ := ok_of_bind done
      cases done
      exact scalar (.number (readNumber_sound number))
    split at done
    case isTrue quote =>
      obtain ⟨⟨s, left⟩, string, done⟩ := ok_of_bind done
      cases done
      exact scalar (quote ▸ .string (readString_sound string))
    split at done
    case isTrue bracket =>
      split at done
      · cases done
      · exact .group .list (.opened (start.trans (bracket ▸ rfl)) (readItems_sound fuel done))
    split at done
    case isTrue brace =>
      split at done
      · cases done
      · exact .group .object (.opened (start.trans (brace ▸ rfl)) (readMembers_sound fuel done))
    cases done

theorem readItems_sound : (fuel : Nat) → ∀ {room : Nat} {read : List Value} {bytes rest : List UInt8} {v : Value},
    readItems fuel room read bytes = .ok (v, rest) → Remainder .list read.isEmpty bytes rest
  | 0, _, _, _, _, _, done => by cases done
  | fuel + 1, room, read, bytes, rest, v, done => by
    rw [readItems] at done
    obtain ⟨b, more, start, done⟩ := meets done
    split at done
    case isTrue bracket =>
      cases done
      exact .close (start.trans (bracket ▸ rfl))
    split at done
    -- The first item stands at once; before any other one there is a comma, and none before the end.
    case isTrue first =>
      obtain ⟨⟨item, next⟩, reading, done⟩ := ok_of_bind done
      have starts : Starts read.isEmpty bytes (b :: more) := .at_once first start
      exact .enter starts (.item (readNested_sound fuel reading)) (readItems_sound fuel done)
    case isFalse later =>
    split at done
    case isFalse => cases done
    case isTrue comma =>
    obtain ⟨c, left, behind, done⟩ := meets done
    split at done
    case isTrue => cases done
    case isFalse =>
    obtain ⟨⟨item, next⟩, reading, done⟩ := ok_of_bind done
    have starts : Starts read.isEmpty bytes (c :: left) := .behind_comma later start comma behind
    exact .enter starts (.item (readNested_sound fuel reading)) (readItems_sound fuel done)

theorem readMembers_sound : (fuel : Nat) → ∀ {room : Nat} {read : List (String × Value)}
    {bytes rest : List UInt8} {v : Value},
    readMembers fuel room read bytes = .ok (v, rest) → Remainder .object read.isEmpty bytes rest
  | 0, _, _, _, _, _, done => by cases done
  | fuel + 1, room, read, bytes, rest, v, done => by
    rw [readMembers] at done
    obtain ⟨b, more, start, done⟩ := meets done
    split at done
    case isTrue brace =>
      cases done
      exact .close (start.trans (brace ▸ rfl))
    split at done
    case isTrue first =>
      split at done
      case isFalse => cases done
      case isTrue quote =>
      obtain ⟨⟨name, named⟩, string, done⟩ := ok_of_bind done
      obtain ⟨text, colon, done⟩ := ok_of_bind done
      obtain ⟨⟨value, next⟩, reading, done⟩ := ok_of_bind done
      have starts : Starts read.isEmpty bytes (ascii '"' :: more) := .at_once first (quote ▸ start)
      exact .enter starts (member_sound (readString_sound string) colon (readNested_sound fuel reading))
        (readMembers_sound fuel done)
    case isFalse later =>
    split at done
    case isFalse => cases done
    case isTrue comma =>
    obtain ⟨c, left, behind, done⟩ := meets done
    split at done
    case isFalse =>
      split at done <;> cases done
    case isTrue quote =>
    obtain ⟨⟨name, named⟩, string, done⟩ := ok_of_bind done
    obtain ⟨text, colon, done⟩ := ok_of_bind done
    obtain ⟨⟨value, next⟩, reading, done⟩ := ok_of_bind done
    have starts : Starts read.isEmpty bytes (ascii '"' :: left) :=
      .behind_comma later start comma (quote ▸ behind)
    exact .enter starts (member_sound (readString_sound string) colon (readNested_sound fuel reading))
      (readMembers_sound fuel done)
end

theorem readValue_sound {room : Nat} {v : Value} (done : readValue room bytes = .ok (v, rest)) :
    Grammar.Value bytes rest :=
  readNested_sound _ done

/-! Passing over a value leaves open lists and objects to be closed, the innermost first. -/

def Awaiting.Left (kind : Open) : Awaiting → List UInt8 → List UInt8 → Prop
  | .value, bytes, rest => ∃ next, Entry kind bytes next ∧ Onward kind next rest
  | .first, bytes, rest => Inside kind bytes rest
  | .next, bytes, rest => Onward kind bytes rest

/-- What has to follow before all that is open is closed. -/
def Closes (awaiting : Awaiting) : List Open → List UInt8 → List UInt8 → Prop
  | [], bytes, rest => bytes = rest
  | inner :: outer, bytes, rest => ∃ next, awaiting.Left inner bytes next ∧ Closes .next outer next rest

/-- What is passed at the start of a value: all of it, or an opening mark. -/
def Begun (bytes rest : List UInt8) : Option Open → Prop
  | none => Grammar.Value bytes rest
  | some kind => skipBlank bytes = kind.opening :: rest

theorem skipStart_sound {opened : Option Open} (done : skipStart bytes = .ok (opened, rest)) :
    Begun bytes rest opened := by
  rw [skipStart] at done
  -- The cases are those of a reading, but a list or an object is opened only.
  obtain ⟨b, more, start, done⟩ := meets done
  have scalar (form : Scalar (b :: more) rest) : Grammar.Value bytes rest := .scalar (start ▸ form)
  split at done
  case isTrue letter =>
    obtain ⟨rfl, -⟩ := readWord_sound done
    exact scalar (word_sound letter done ▸ .null)
  split at done
  case isTrue letter =>
    obtain ⟨rfl, -⟩ := readWord_sound done
    exact scalar (word_sound letter done ▸ .yes)
  split at done
  case isTrue letter =>
    obtain ⟨rfl, -⟩ := readWord_sound done
    exact scalar (word_sound letter done ▸ .no)
  split at done
  case isTrue minus =>
    obtain ⟨left, number, same⟩ := ok_of_map done
    cases same
    exact scalar (minus ▸ .negative (skipNumber_sound number))
  split at done
  case isTrue =>
    obtain ⟨left, number, same⟩ := ok_of_map done
    cases same
    exact scalar (.number (skipNumber_sound number))
  split at done
  case isTrue quote =>
    obtain ⟨left, string, same⟩ := ok_of_map done
    cases same
    exact scalar (quote ▸ .string (skipString_sound string))
  split at done
  case isTrue bracket =>
    cases done
    exact start.trans (bracket ▸ rfl)
  split at done
  case isTrue brace =>
    cases done
    exact start.trans (brace ▸ rfl)
  cases done

theorem skipName_sound (done : skipName bytes = .ok rest) {left : List UInt8} (value : Grammar.Value rest left) :
    Entry .object bytes left := by
  rw [skipName] at done
  obtain ⟨b, more, start, done⟩ := meets done
  split at done
  case isFalse => cases done
  case isTrue quote =>
  obtain ⟨named, string, colon⟩ := ok_of_bind done
  exact .member (start.trans (quote ▸ rfl)) (skipString_sound string) (readColon_sound colon) value

theorem skipOpen_entry {fuel : Nat} {inner : Open} {outer : List Open}
    (done : skipOpen (fuel + 1) .value (inner :: outer) bytes = .ok rest) :
    ∃ value opened left, (∀ {next}, Grammar.Value value next → Entry inner bytes next) ∧
      skipStart value = .ok (opened, left) ∧
      match opened with
      | none => skipOpen fuel .next (inner :: outer) left = .ok rest
      | some kind => skipOpen fuel .first (kind :: inner :: outer) left = .ok rest := by
  simp only [skipOpen] at done
  cases inner with
  | list =>
    obtain ⟨value, unnamed, done⟩ := ok_of_bind done
    cases unnamed
    obtain ⟨⟨opened, left⟩, started, done⟩ := ok_of_bind done
    refine ⟨bytes, opened, left, .item, started, ?_⟩
    cases opened <;> exact done
  | object =>
    obtain ⟨value, named, done⟩ := ok_of_bind done
    obtain ⟨⟨opened, left⟩, started, done⟩ := ok_of_bind done
    refine ⟨value, opened, left, skipName_sound named, started, ?_⟩
    cases opened <;> exact done

theorem skipOpen_sound {fuel : Nat} {awaiting : Awaiting} {stack : List Open}
    (done : skipOpen fuel awaiting stack bytes = .ok rest) : Closes awaiting stack bytes rest := by
  induction fuel generalizing awaiting stack bytes with
  | zero =>
    cases stack with
    | nil =>
      simp only [skipOpen] at done
      cases done
      rfl
    | cons inner outer => cases awaiting <;> cases done
  | succ fuel ih =>
    cases stack with
    | nil =>
      simp only [skipOpen] at done
      cases done
      rfl
    | cons inner outer =>
    cases awaiting with
    | value =>
      obtain ⟨value, opened, left, entry, started, done⟩ := skipOpen_entry done
      have start := skipStart_sound started
      cases opened with
      | none =>
        obtain ⟨next, onward, closed⟩ := ih done
        exact ⟨next, ⟨left, entry start, onward⟩, closed⟩
      | some kind =>
        obtain ⟨after, inside, next, onward, closed⟩ := ih done
        exact ⟨next, ⟨after, entry (.group kind (.opened start inside)), onward⟩, closed⟩
    | first =>
      rw [skipOpen] at done
      obtain ⟨b, more, start, done⟩ := meets done
      split at done
      case isTrue closing =>
        rw [Open.closes_iff] at closing
        exact ⟨more, .empty (closing ▸ start), ih done⟩
      case isFalse =>
        obtain ⟨next, ⟨after, form, onward⟩, closed⟩ := ih done
        exact ⟨next, .entries (Entry.of_skipBlank (start ▸ form)) onward, closed⟩
    | next =>
      rw [skipOpen] at done
      obtain ⟨b, more, start, done⟩ := meets done
      split at done
      case isTrue comma =>
        obtain ⟨next, ⟨after, form, onward⟩, closed⟩ := ih done
        exact ⟨next, .comma (comma ▸ start) form onward, closed⟩
      case isFalse =>
      split at done
      case isTrue closing =>
        rw [Open.closes_iff] at closing
        exact ⟨more, .close (closing ▸ start), ih done⟩
      case isFalse => cases done

theorem skipValue_sound (done : skipValue bytes = .ok rest) : Grammar.Value bytes rest := by
  obtain ⟨⟨opened, more⟩, started, done⟩ := ok_of_bind done
  have start := skipStart_sound started
  cases opened with
  | none =>
    cases done
    exact start
  | some kind =>
    obtain ⟨next, inside, closed⟩ := skipOpen_sound done
    cases closed
    exact .group kind (.opened start inside)

end Values
end LanguageClient.Json
