import LanguageClient.Json.Reader.String
import LanguageClient.Json.Writer
import LanguageClient.Proofs.Text.Utf8

/-! Strings are read as they were written, and passed over to their end. -/

set_option autoImplicit false
namespace LanguageClient.Json

open Text.Utf8 (encodeChar)

/-! Octets of a text. -/

@[simp] theorem octets_nil : octets [] = [] := rfl

@[simp] theorem octets_append (first second : List Char) :
    octets (first ++ second) = octets first ++ octets second := List.flatMap_append

theorem octets_cons (c : Char) (rest : List Char) : octets (c :: rest) = encodeChar c ++ octets rest :=
  List.flatMap_cons

theorem octets_ascii {c : Char} (small : c.toNat < 0x80) (rest : List Char) :
    octets (c :: rest) = ascii c :: octets rest := by
  rw [octets_cons, Text.Utf8.encodeChar_ascii small]
  rfl

/-! Characters. -/

structure Plain (c : Char) : Prop where
  visible : 0x20 ≤ c.toNat
  mark : c ≠ '"'
  slash : c ≠ '\\'

/-- A character is written as it is, by a letter behind a backslash, or by its number. -/
inductive Writes (c : Char) : List Char → Prop where
  | plain : Plain c → Writes c [c]
  | letter {x : Char} : x.toNat < 0x80 → simpleEscape? (ascii x) = some c → Writes c ['\\', x]
  | number : c.toNat < 0x20 →
      Writes c ['\\', 'u', '0', '0', hexDigit (c.toNat / 16), hexDigit (c.toNat % 16)]

theorem writes_writeChar (c : Char) : Writes c (writeChar c) := by
  have letter {d x : Char} (same : c = d) (small : x.toNat < 0x80)
      (means : simpleEscape? (ascii x) = some d) : Writes c ['\\', x] :=
    .letter small (means.trans (congrArg some same.symm))
  unfold writeChar
  iterate 7
    split
    · rename_i same
      exact letter same (by decide) (by decide)
  split
  · rename_i control
    exact .number control
  · rename_i mark slash _ _ _ _ _ visible
    exact .plain ⟨by omega, mark, slash⟩

theorem octet_of_plain {c : Char} (plain : Plain c) {b : UInt8} (member : b ∈ encodeChar c) :
    b ≠ ascii '"' ∧ b ≠ ascii '\\' ∧ ¬ b < 32 := by
  have apart {d : Char} (other : c ≠ d) : c.toNat ≠ d.toNat := fun same => other (Char.toNat_inj.mp same)
  have mark : c.toNat ≠ 34 := apart plain.mark
  have slash : c.toNat ≠ 92 := apart plain.slash
  have visible := plain.visible
  have octet : b.toNat ≠ 34 ∧ b.toNat ≠ 92 ∧ 32 ≤ b.toNat := by
    rcases Text.Utf8.octet_of_char member with ⟨-, same⟩ | large
    · rw [same]
      exact ⟨mark, slash, visible⟩
    · omega
  have differs {d : UInt8} (other : b.toNat ≠ d.toNat) : b ≠ d := fun same => other (congrArg UInt8.toNat same)
  exact ⟨differs octet.1, differs octet.2.1, Nat.not_lt.mpr octet.2.2⟩

theorem hexValue?_hexDigit : ∀ n < 16, hexValue? (ascii (hexDigit n)) = some n := by decide

theorem hexDigit_small : ∀ n < 16, (hexDigit n).toNat < 0x80 := by decide

def controlOctets (n : Nat) : List UInt8 :=
  [ascii '0', ascii '0', ascii (hexDigit (n / 16)), ascii (hexDigit (n % 16))]

theorem readHex_control {n : Nat} (control : n < 0x20) (rest : List UInt8) :
    readHex (controlOctets n ++ rest) = .ok (n, rest) := by
  have zero : hexValue? (ascii '0') = some 0 := by decide
  have high := hexValue?_hexDigit (n / 16) (by omega)
  have low := hexValue?_hexDigit (n % 16) (by omega)
  have sum : ((0 * 16 + 0) * 16 + n / 16) * 16 + n % 16 = n := by omega
  simp only [controlOctets, List.cons_append, List.nil_append, readHex, zero, high, low, sum]

theorem readEscape_control {c : Char} (control : c.toNat < 0x20) (rest : List UInt8) :
    readEscape (ascii 'u' :: (controlOctets c.toNat ++ rest)) = .ok (c, rest) := by
  have none : simpleEscape? (ascii 'u') = none := by decide
  have code : readCodePoint (controlOctets c.toNat ++ rest) = .ok (c.toNat, rest) := by
    have low : ¬ (0xDC00 ≤ c.toNat ∧ c.toNat ≤ 0xDFFF) := by omega
    have high : ¬ (0xD800 ≤ c.toNat ∧ c.toNat ≤ 0xDBFF) := by omega
    rw [readCodePoint, readHex_control control]
    simp only [bind, Except.bind, if_neg low, if_neg high]
  simp only [readEscape, none, if_true, code, bind, Except.bind, Char.ofNat_toNat]

theorem octets_control {n : Nat} (control : n < 0x20) :
    octets ['\\', 'u', '0', '0', hexDigit (n / 16), hexDigit (n % 16)] =
      ascii '\\' :: ascii 'u' :: controlOctets n := by
  have high := hexDigit_small (n / 16) (by omega)
  have low := hexDigit_small (n % 16) (by omega)
  rw [octets_ascii (by decide), octets_ascii (by decide), octets_ascii (by decide),
    octets_ascii (by decide), octets_ascii high, octets_ascii low, octets_nil]
  rfl

/-! Reading. -/

section Reading

variable {rest : List UInt8}

theorem readOctets_plain {bytes : List UInt8}
    (plain : ∀ b ∈ bytes, b ≠ ascii '"' ∧ b ≠ ascii '\\' ∧ ¬ b < 32) (more : Nat)
    (read : List UInt8) :
    readOctets (bytes.length + more) read (bytes ++ rest) =
      readOctets more (bytes.reverse ++ read) rest := by
  induction bytes generalizing read with
  | nil =>
    rw [List.length_nil, Nat.zero_add]
    rfl
  | cons b bytes ih =>
    obtain ⟨mark, slash, visible⟩ := plain b List.mem_cons_self
    have later := ih (fun b member => plain b (List.mem_cons_of_mem _ member)) (b :: read)
    rw [List.length_cons, Nat.add_right_comm, List.cons_append, readOctets, if_neg mark, if_neg slash,
      if_neg visible, later, List.reverse_cons, List.append_assoc]
    rfl

theorem readOctets_escape {bytes : List UInt8} {c : Char} (escape : readEscape bytes = .ok (c, rest))
    (more : Nat) (read : List UInt8) :
    readOctets (more + 1) read (ascii '\\' :: bytes) =
      readOctets more ((encodeChar c).reverse ++ read) rest := by
  have other : ascii '\\' ≠ ascii '"' := by decide
  rw [readOctets, if_neg other, if_pos rfl, escape]
  rfl

/-- A written character adds its octets to those already read. -/
theorem readOctets_writeChar (c : Char) {read : List UInt8}
    {result : Except Failure (List UInt8 × List UInt8)}
    (later : ∀ fuel, rest.length ≤ fuel →
      readOctets fuel ((encodeChar c).reverse ++ read) rest = result)
    {fuel : Nat} (enough : (octets (writeChar c) ++ rest).length ≤ fuel) :
    readOctets fuel read (octets (writeChar c) ++ rest) = result := by
  have escaped (bytes : List UInt8) (escape : readEscape (bytes ++ rest) = .ok (c, rest))
      (enough : (ascii '\\' :: (bytes ++ rest)).length ≤ fuel) :
      readOctets fuel read (ascii '\\' :: (bytes ++ rest)) = result := by
    obtain ⟨more, rfl⟩ := Nat.exists_eq_add_of_le' (Nat.le_of_add_left_le enough)
    rw [readOctets_escape escape]
    refine later more ?_
    rw [List.length_cons, List.length_append] at enough
    omega
  have writes := writes_writeChar c
  generalize writeChar c = text at *
  cases writes with
  | plain plain =>
    rw [octets_cons, octets_nil, List.append_nil, List.length_append] at enough
    rw [octets_cons, octets_nil, List.append_nil]
    obtain ⟨more, rfl⟩ := Nat.exists_eq_add_of_le (Nat.le_of_add_right_le enough)
    rw [readOctets_plain fun b member => octet_of_plain plain member]
    exact later more (by omega)
  | @letter x small means =>
    rw [octets_ascii (by decide), octets_ascii small, octets_nil] at enough ⊢
    exact escaped [ascii x] (by rw [List.singleton_append, readEscape, means]) enough
  | number control =>
    rw [octets_control control] at enough ⊢
    exact escaped (ascii 'u' :: controlOctets c.toNat) (readEscape_control control rest) enough

theorem readOctets_written (chars : List Char) {fuel : Nat} (read : List UInt8)
    (enough : (octets (chars.flatMap writeChar) ++ ascii '"' :: rest).length ≤ fuel) :
    readOctets fuel read (octets (chars.flatMap writeChar) ++ ascii '"' :: rest) =
      .ok (read.reverse ++ octets chars, rest) := by
  induction chars generalizing fuel read with
  | nil =>
    obtain ⟨more, rfl⟩ := Nat.exists_eq_add_of_le' (Nat.le_of_add_left_le enough)
    rw [List.flatMap_nil, octets_nil, List.nil_append, readOctets, if_pos rfl, List.append_nil]
  | cons c chars ih =>
    rw [List.flatMap_cons, octets_append, List.append_assoc] at enough ⊢
    refine readOctets_writeChar c (fun fuel enough => ?_) enough
    rw [ih _ enough, List.reverse_append, List.reverse_reverse, List.append_assoc, octets_cons]

/-- A string is read as it was written, and what comes behind its closing mark is left. -/
theorem readString_written (s : String) (rest : List UInt8) :
    readString (octets (s.toList.flatMap writeChar) ++ ascii '"' :: rest) = .ok (s, rest) := by
  have decoded : Text.Utf8.decode? (octets s.toList) = some s.toList := Text.Utf8.decode?_encode _
  rw [readString, readOctets_written s.toList [] (Nat.le_refl _)]
  simp only [bind, Except.bind, List.reverse_nil, List.nil_append, decoded, String.ofList_toList]

end Reading

/-! Passing over. -/

section Skipping

variable {rest : List UInt8}

theorem skipString_plain {bytes : List UInt8}
    (plain : ∀ b ∈ bytes, b ≠ ascii '"' ∧ b ≠ ascii '\\' ∧ ¬ b < 32) (more : Nat) :
    skipString (bytes.length + more) (bytes ++ rest) = skipString more rest := by
  induction bytes with
  | nil =>
    rw [List.length_nil, Nat.zero_add]
    rfl
  | cons b bytes ih =>
    obtain ⟨mark, slash, visible⟩ := plain b List.mem_cons_self
    rw [List.length_cons, Nat.add_right_comm, List.cons_append]
    simp only [skipString, if_neg mark, if_neg slash, if_neg visible]
    exact ih fun b member => plain b (List.mem_cons_of_mem _ member)

theorem skipString_writeChar (c : Char) {result : Except Failure (List UInt8)}
    (later : ∀ fuel, rest.length ≤ fuel → skipString fuel rest = result) {fuel : Nat}
    (enough : (octets (writeChar c) ++ rest).length ≤ fuel) :
    skipString fuel (octets (writeChar c) ++ rest) = result := by
  have other : ascii '\\' ≠ ascii '"' := by decide
  have writes := writes_writeChar c
  generalize writeChar c = text at *
  cases writes with
  | plain plain =>
    rw [octets_cons, octets_nil, List.append_nil, List.length_append] at enough
    rw [octets_cons, octets_nil, List.append_nil]
    obtain ⟨more, rfl⟩ := Nat.exists_eq_add_of_le (Nat.le_of_add_right_le enough)
    rw [skipString_plain fun b member => octet_of_plain plain member]
    exact later more (by omega)
  | @letter x small means =>
    rw [octets_ascii (by decide), octets_ascii small, octets_nil] at enough ⊢
    obtain ⟨more, rfl⟩ := Nat.exists_eq_add_of_le' (Nat.le_of_add_left_le enough)
    rw [List.cons_append, List.singleton_append, skipString, if_neg other, if_pos rfl]
    simp only [means, Option.isSome_some, if_true]
    exact later more (by simp at enough; omega)
  | number control =>
    rw [octets_control control] at enough ⊢
    obtain ⟨more, rfl⟩ := Nat.exists_eq_add_of_le' (Nat.le_of_add_left_le enough)
    have letter : (simpleEscape? (ascii 'u')).isSome = false := by decide
    rw [List.cons_append, List.cons_append, skipString, if_neg other, if_pos rfl]
    simp only [letter, Bool.false_eq_true, if_false, if_true, readHex_control control, bind, Except.bind]
    refine later more ?_
    simp only [List.cons_append, List.length_cons, List.length_append] at enough
    omega

theorem skipString_written (chars : List Char) {fuel : Nat}
    (enough : (octets (chars.flatMap writeChar) ++ ascii '"' :: rest).length ≤ fuel) :
    skipString fuel (octets (chars.flatMap writeChar) ++ ascii '"' :: rest) = .ok rest := by
  induction chars generalizing fuel with
  | nil =>
    obtain ⟨more, rfl⟩ := Nat.exists_eq_add_of_le' (Nat.le_of_add_left_le enough)
    rw [List.flatMap_nil, octets_nil, List.nil_append]
    simp only [skipString, if_true]
  | cons c chars ih =>
    rw [List.flatMap_cons, octets_append, List.append_assoc] at enough ⊢
    exact skipString_writeChar c (fun fuel enough => ih enough) enough

end Skipping

end LanguageClient.Json
