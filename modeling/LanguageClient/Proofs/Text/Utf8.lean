import LanguageClient.Proofs.Text

/-! Every text can be read back from its octets. -/

set_option autoImplicit false
namespace LanguageClient.Text.Utf8

theorem toNat_bounds (c : Char) : c.toNat < 0xD800 ∨ (0xE000 ≤ c.toNat ∧ c.toNat < 0x110000) := by
  have valid := c.valid
  simp only [UInt32.isValidChar, Nat.isValidChar] at valid
  unfold Char.toNat
  omega

theorem toNat_octet {n : Nat} (small : n < 256) : (UInt8.ofNat n).toNat = n := by
  rw [UInt8.toNat_ofNat']
  omega

theorem octet_of_char {c : Char} {octet : UInt8} (member : octet ∈ encodeChar c) :
    c.toNat < 0x80 ∧ octet.toNat = c.toNat ∨ 0x80 ≤ octet.toNat := by
  have bounds := toNat_bounds c
  unfold encodeChar at member
  dsimp only at member
  generalize c.toNat = n at *
  have beyond {m : Nat} (same : octet = .ofNat m) (large : 0x80 ≤ m) (fits : m < 256) :
      0x80 ≤ octet.toNat := by
    rw [same, toNat_octet fits]
    exact large
  split at member
  · rename_i one
    refine .inl ⟨one, ?_⟩
    rw [List.mem_singleton.mp member, toNat_octet (by omega)]
  refine .inr ?_
  split at member
  · simp only [List.mem_cons, List.not_mem_nil, or_false] at member
    rcases member with same | same <;> exact beyond same (by omega) (by omega)
  split at member <;> simp only [List.mem_cons, List.not_mem_nil, or_false] at member
  · rcases member with same | same | same <;> exact beyond same (by omega) (by omega)
  · rcases member with same | same | same | same <;> exact beyond same (by omega) (by omega)

section Steps

variable {n bits taken owed low high : Nat} {state : State} {c : Char} {found : List Piece}
  {rest : List UInt8}

theorem scan_one (small : n < 256) (leads : lead n = .done c) :
    scan found .ready (.ofNat n :: rest) = scan (.scalar c :: found) .ready rest := by
  rw [scan, toNat_octet small, leads]

theorem scan_lead (small : n < 256) (leads : lead n = .more state) :
    scan found .ready (.ofNat n :: rest) = scan found state rest := by
  rw [scan, toNat_octet small, leads]

theorem scan_more (small : n < 256) (inside : low ≤ n ∧ n ≤ high) (owes : 1 < owed) :
    scan found (.inside bits taken owed low high) (.ofNat n :: rest) =
      scan found (.inside (bits * 64 + (n - 0x80)) (taken + 1) (owed - 1) 0x80 0xBF) rest := by
  rw [scan, toNat_octet small, step, if_pos inside, if_neg (by omega)]

theorem scan_last (small : n < 256) (inside : low ≤ n ∧ n ≤ high) :
    scan found (.inside bits taken 1 low high) (.ofNat n :: rest) =
      scan (.scalar (Char.ofNat (bits * 64 + (n - 0x80))) :: found) .ready rest := by
  rw [scan, toNat_octet small, step, if_pos inside, if_pos (Nat.le_refl 1)]

end Steps

/-! The first octet of a scalar. In three and four octets the range of the second depends on it. -/

section Leads

variable {n : Nat}

theorem lead_two (large : 0x80 ≤ n) (small : n < 0x800) :
    lead (0xC0 + n / 64) = .more (.inside (n / 64) 1 1 0x80 0xBF) := by
  rw [lead, if_neg (by omega), if_neg (by omega), if_pos (by omega), Nat.add_sub_cancel_left]

theorem lead_three (large : 0x800 ≤ n) (small : n < 0x10000) (scalar : n < 0xD800 ∨ 0xE000 ≤ n) :
    ∃ low high, lead (0xE0 + n / 4096) = .more (.inside (n / 4096) 1 2 low high) ∧
      low ≤ 0x80 + n / 64 % 64 ∧ 0x80 + n / 64 % 64 ≤ high := by
  rw [lead, if_neg (by omega), if_neg (by omega), if_neg (by omega), if_pos (by omega),
    Nat.add_sub_cancel_left]
  refine ⟨_, _, rfl, ?_, ?_⟩
  · split <;> omega
  · split <;> omega

theorem lead_four (large : 0x10000 ≤ n) (small : n < 0x110000) :
    ∃ low high, lead (0xF0 + n / 262144) = .more (.inside (n / 262144) 1 3 low high) ∧
      low ≤ 0x80 + n / 4096 % 64 ∧ 0x80 + n / 4096 % 64 ≤ high := by
  rw [lead, if_neg (by omega), if_neg (by omega), if_neg (by omega), if_neg (by omega),
    if_pos (by omega), Nat.add_sub_cancel_left]
  refine ⟨_, _, rfl, ?_, ?_⟩
  · split <;> omega
  · split <;> omega

end Leads

/-- The octets of a scalar are read as this scalar, whatever comes behind them. -/
theorem scan_encodeChar (c : Char) (found : List Piece) (rest : List UInt8) :
    scan found .ready (encodeChar c ++ rest) = scan (.scalar c :: found) .ready rest := by
  have bounds := toNat_bounds c
  have whole : Char.ofNat c.toNat = c := Char.ofNat_toNat c
  unfold encodeChar
  dsimp only
  generalize c.toNat = n at *
  by_cases one : n < 0x80
  · have leads : lead n = .done c := by rw [lead, if_pos one, whole]
    rw [if_pos one, List.cons_append, List.nil_append, scan_one (by omega) leads]
  rw [if_neg one]
  by_cases two : n < 0x800
  · have sum : n / 64 * 64 + (0x80 + n % 64 - 0x80) = n := by omega
    simp only [if_pos two, List.cons_append, List.nil_append]
    rw [scan_lead (by omega) (lead_two (by omega) two), scan_last (by omega) (by omega), sum, whole]
  rw [if_neg two]
  by_cases three : n < 0x10000
  · obtain ⟨low, high, leads, range⟩ := lead_three (by omega) three (by omega)
    have sum : (n / 4096 * 64 + (0x80 + n / 64 % 64 - 0x80)) * 64 + (0x80 + n % 64 - 0x80) = n := by
      omega
    simp only [if_pos three, List.cons_append, List.nil_append]
    rw [scan_lead (by omega) leads, scan_more (by omega) range (by omega),
      scan_last (by omega) (by omega), sum, whole]
  · obtain ⟨low, high, leads, range⟩ := lead_four (Nat.not_lt.mp three) (by omega)
    have sum : ((n / 262144 * 64 + (0x80 + n / 4096 % 64 - 0x80)) * 64 +
        (0x80 + n / 64 % 64 - 0x80)) * 64 + (0x80 + n % 64 - 0x80) = n := by omega
    simp only [if_neg three, List.cons_append, List.nil_append]
    rw [scan_lead (by omega) leads, scan_more (by omega) range (by omega),
      scan_more (by omega) (by omega) (by omega), scan_last (by omega) (by omega), sum, whole]

theorem pieces_encode (chars : List Char) :
    pieces (chars.flatMap encodeChar) = chars.map .scalar := by
  have scanned (found : List Piece) :
      scan found .ready (chars.flatMap encodeChar) = found.reverse ++ chars.map .scalar := by
    induction chars generalizing found with
    | nil => simp [scan]
    | cons c rest ih =>
      rw [List.flatMap_cons, scan_encodeChar, ih]
      simp
  exact scanned []

theorem decode?_encode (chars : List Char) : decode? (chars.flatMap encodeChar) = some chars := by
  rw [decode?, pieces_encode]
  induction chars with
  | nil => rfl
  | cons c rest ih => simp [List.mapM_cons, Piece.char?, ih]

end LanguageClient.Text.Utf8
