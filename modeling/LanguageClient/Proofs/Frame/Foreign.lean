import LanguageClient.Proofs.Frame.Resynchronisation

/-! Headers beside that of the length.

A line tells a length where the name of that header stands in it, at its start or behind other
text. Whatever else is in a line does not count. So other headers go for nothing as long as the name
does not stand in them; where it does, they are taken for headers of the length.
-/

set_option autoImplicit false
namespace LanguageClient.Frame

structure Header where
  name : List Char
  value : List Char

def lengthTitle : List Char := "Content-Length".toList

namespace Header

/-- The name is there, and has neither a colon nor white space in it; the value keeps to its line. -/
structure WellFormed (h : Header) : Prop where
  named : h.name ≠ []
  name_plain : ∀ c ∈ h.name, c ≠ ':' ∧ Text.isBlank c = false
  value_plain : '\n' ∉ h.value

theorem wellFormed_iff {h : Header} : h.WellFormed ↔
    h.name ≠ [] ∧ h.name.all (fun c => c != ':' && !Text.isBlank c) = true ∧ '\n' ∉ h.value := by
  constructor
  · intro formed
    exact ⟨formed.named, List.all_eq_true.mpr fun c member => by simp [formed.name_plain c member], formed.value_plain⟩
  · rintro ⟨named, plain, value⟩
    exact ⟨named, fun c member => by simpa using List.all_eq_true.mp plain c member, value⟩

instance (h : Header) : Decidable h.WellFormed := decidable_of_iff' _ wellFormed_iff

def text (h : Header) : List Char := h.name ++ ':' :: ' ' :: h.value

def octets (h : Header) : List UInt8 := (h.text ++ ['\r', '\n']).flatMap Text.Utf8.encodeChar

/-- The name of the length stands in the line, with its colon. -/
def Mentions (h : Header) : Prop := lengthTitle <:+ h.name ∨ lengthName <:+: h.value

def parts? (h : Header) : Option (List Char × List Char) := splitAtWord lengthName [] (Text.trimChars h.text)

/-- What a line tells of the length, if it does: the length, or something that is no number. -/
def told? (h : Header) : Option (Option Nat) := h.parts?.map fun parts => Text.unsigned64? (Text.trimChars parts.2)

def notes (h : Header) : List Note :=
  match h.parts? with
  | some (before, _) => if 0 < Text.Utf8.width before then [.resynchronised (Text.Utf8.width before)] else []
  | none => []

end Header

def Block.heed (block : Block) (h : Header) : Block :=
  match h.told? with
  | none => { block with started := true }
  | some (some n) => { block with started := true, length := some n }
  | some none => { block with started := true, invalid := true }

/-- What the lines tell together: the last length counts, unless one of them is no number. -/
def summary (hs : List Header) : Block where
  started := !hs.isEmpty
  length := (hs.filterMap fun h => h.told?.join).getLast?
  invalid := hs.any fun h => h.told? == some none

def blockOctets (hs : List Header) : List UInt8 := hs.flatMap Header.octets ++ [13, 10]

/-! One line. -/

section Lines

variable {h : Header} {n : Nat}

theorem trimChars_ended (chars : List Char) : Text.trimChars (chars ++ ['\r', '\n']) = Text.trimChars chars :=
  @Text.trimChars_blank [] _ (by simp) (by simp [Text.isBlank]) chars

theorem Header.WellFormed.visible (formed : h.WellFormed) : (Text.trimChars h.text).isEmpty = false := by
  obtain ⟨c, rest, name⟩ := List.exists_cons_of_ne_nil formed.named
  have solid := (formed.name_plain c (name ▸ List.mem_cons_self)).2
  rw [Header.text, name]
  exact Text.trimChars_visible solid _

theorem Header.WellFormed.plain (formed : h.WellFormed) : '\n' ∉ h.text := by
  have inside : '\n' ∉ h.name := fun member => absurd (formed.name_plain _ member).2 (by decide)
  simp [Header.text, inside, formed.value_plain]

theorem take_octets (formed : h.WellFormed) (block : Block) :
    block.take h.octets = .header (block.heed h) h.notes := by
  have visible := formed.visible
  simp only [Block.take, Header.octets, Text.Utf8.decode?_encode, trimChars_ended, visible, Bool.false_eq_true,
    if_false, Block.heed, Header.notes, Header.told?]
  rw [← Header.parts?]
  rcases h.parts? with _ | ⟨before, after⟩
  · rfl
  · simp only [Option.map_some]
    cases Text.unsigned64? (Text.trimChars after) <;> rfl

/-- Where the name stands in a line, it ends at the colon behind the name of the header, or it stands
in the value. -/
theorem mentions_of_within (formed : h.WellFormed) (named : lengthName <:+: h.text) : h.Mentions := by
  have colonless : ':' ∉ h.name := fun member => (formed.name_plain _ member).1 rfl
  have titled : ':' ∉ lengthTitle := by decide
  have spelled : lengthName = lengthTitle ++ [':'] := by decide
  obtain ⟨front, back, same⟩ := named
  rw [spelled, ← List.append_assoc, List.append_assoc, List.singleton_append, Header.text] at same
  rcases List.append_eq_append_iff.mp same with ⟨between, name, behind⟩ | ⟨between, before, behind⟩
  · -- The colon of the length is not behind that of the header, so it is the same one.
    cases between with
    | nil => exact .inl ⟨front, by rw [name, List.append_nil]⟩
    | cons c between =>
      obtain ⟨rfl, -⟩ := List.cons.inj behind
      exact absurd (name ▸ List.mem_append_right _ List.mem_cons_self) colonless
  · cases between with
    | nil => exact .inl ⟨front, by rw [before, List.append_nil]⟩
    | cons c between =>
      obtain ⟨rfl, value⟩ := List.cons.inj behind
      -- No colon stands in the title, so it begins behind that of the header.
      rcases List.append_eq_append_iff.mp before with ⟨inner, name, title⟩ | ⟨inner, rfl, title⟩
      · exact absurd (title ▸ List.mem_append_right _ List.mem_cons_self) titled
      cases inner with
      | nil =>
        rw [List.nil_append] at title
        exact absurd (title ▸ List.mem_cons_self) titled
      | cons c inner =>
        obtain ⟨rfl, rfl⟩ := List.cons.inj title
        cases inner with
        | nil => exact absurd (List.cons.inj value).1 (by decide)
        | cons c inner =>
          have rest := (List.cons.inj value).2
          exact .inr ⟨inner, back, by simp [rest, spelled]⟩

theorem parts?_of_unmentioned (formed : h.WellFormed) (unmentioned : ¬ h.Mentions) : h.parts? = none :=
  splitAtWord_none (fun named => unmentioned (mentions_of_within formed (named.trans (trimChars_within _)))) []

theorem digits_trimmed {chars : List Char} (digits : ∀ c ∈ chars, c.isDigit = true) : Text.trimChars (' ' :: chars) = chars := by
  have solid : ∀ c ∈ chars, Text.isBlank c = false := fun c member => Text.isBlank_of_isDigit (digits c member)
  have kept (text : List Char) (solid : ∀ c ∈ text, Text.isBlank c = false) : text.dropWhile Text.isBlank = text :=
    List.dropWhile_eq_self_iff.mpr fun some => by simpa using solid _ (List.getElem_mem some)
  have blank : Text.isBlank ' ' = true := by decide
  rw [Text.trimChars, Text.trimStart, List.dropWhile_cons_of_pos blank, kept chars solid, Text.trimEnd,
    kept chars.reverse fun c member => solid c (List.mem_reverse.mp member), List.reverse_reverse]

theorem unsigned64?_digits {chars : List Char} (read : Text.digits? chars = some n) (fits : n < 2 ^ 64) :
    Text.unsigned64? chars = some n := by
  unfold Text.unsigned64?
  dsimp only
  split
  · exact absurd (Text.isDigit_of_digits? read '+' List.mem_cons_self) (by decide)
  · rw [read]
    simpa [Option.filter] using fits

theorem parts?_length (titled : h.name = lengthTitle) (read : Text.digits? h.value = some n) :
    h.parts? = some ([], ' ' :: h.value) := by
  have digits := Text.isDigit_of_digits? read
  have some : h.value ≠ [] := by
    intro none
    rw [none] at read
    cases read
  have line : h.text = nameChars ++ (' ' :: h.value.dropLast ++ [h.value.getLast some]) := by
    rw [Header.text, titled, List.cons_append, List.dropLast_concat_getLast]
    rfl
  have solid : Text.isBlank (h.value.getLast some) = false := Text.isBlank_of_isDigit (digits _ (List.getLast_mem some))
  have finish := @Text.trimEnd_append _ solid (nameChars ++ ' ' :: h.value.dropLast) [] (by simp)
  have trimmed : Text.trimChars h.text = nameChars ++ ' ' :: h.value := by
    have start : Text.trimStart h.text = h.text := by
      rw [line]
      exact Text.trimStart_cons (by decide) _
    rw [List.append_nil, List.append_assoc, ← line] at finish
    rw [Text.trimChars, start, finish, line, List.cons_append, List.dropLast_concat_getLast]
  rw [Header.parts?, trimmed]
  exact @splitAtWord_behind [] (by decide) [] (' ' :: h.value)

theorem told?_length (titled : h.name = lengthTitle) (read : Text.digits? h.value = some n) (fits : n < 2 ^ 64) :
    h.told? = some (some n) := by
  have digits := Text.isDigit_of_digits? read
  rw [Header.told?, parts?_length titled read, Option.map_some, digits_trimmed digits, unsigned64?_digits read fits]

theorem told?_of_unmentioned (formed : h.WellFormed) (unmentioned : ¬ h.Mentions) : h.told? = none := by
  rw [Header.told?, parts?_of_unmentioned formed unmentioned, Option.map_none]

end Lines

/-! A block of lines. -/

section Blocks

variable {hs : List Header}

theorem nextHeader_headers (formed : ∀ h ∈ hs, h.WellFormed) (block : Block) (rest : List UInt8) (ended : Bool) :
    nextHeader ended block [] (blockOctets hs ++ rest) =
      (afterBlock (hs.foldl Block.heed block) rest ended).noting (hs.flatMap Header.notes) := by
  induction hs generalizing block with
  | nil =>
    have blank : blockOctets [] ++ rest = [13] ++ 10 :: rest := rfl
    rw [blank, nextHeader_line (by simp), List.reverse_nil, List.nil_append, List.singleton_append, take_blank]
    rfl
  | cons h hs ih =>
    have first := formed h List.mem_cons_self
    have later := ih (fun k member => formed k (List.mem_cons_of_mem _ member)) (block.heed h)
    have ten : Text.Utf8.encodeChar '\n' = [10] := by decide
    have plain : '\n' ∉ h.text ++ ['\r'] := by simp [first.plain]
    have line : h.octets = (h.text ++ ['\r']).flatMap Text.Utf8.encodeChar ++ [10] := by
      have ending : ['\r', '\n'] = ['\r'] ++ ['\n'] := rfl
      rw [Header.octets, ending, ← List.append_assoc, List.flatMap_append, List.flatMap_singleton, ten]
    have stream : blockOctets (h :: hs) ++ rest =
        (h.text ++ ['\r']).flatMap Text.Utf8.encodeChar ++ 10 :: (blockOctets hs ++ rest) := by
      simp [blockOctets, line]
    have taken := take_octets first block
    rw [line] at taken
    rw [stream, nextHeader_line (plain_octets plain), List.reverse_nil, List.nil_append, taken]
    simp only [afterLine, later, Step.noting, List.foldl_cons, List.flatMap_cons, List.append_assoc]

theorem foldl_heed (hs : List Header) (block : Block) : hs.foldl Block.heed block =
    { started := block.started || !hs.isEmpty
      length := (hs.filterMap fun h => h.told?.join).getLast?.or block.length
      invalid := block.invalid || hs.any fun h => h.told? == some none } := by
  induction hs generalizing block with
  | nil => simp
  | cons h hs ih =>
    rw [List.foldl_cons, ih, Block.heed]
    rcases told : h.told? with _ | _ | n
    · simp [told]
    · simp [told]
    · simp [told, List.getLast?_cons]

theorem next_headers (formed : ∀ h ∈ hs, h.WellFormed) (rest : List UInt8) (ended : Bool) :
    next .start (blockOctets hs ++ rest) ended =
      (afterBlock (summary hs) rest ended).noting (hs.flatMap Header.notes) := by
  have read := nextHeader_headers formed {} rest ended
  have told : hs.foldl Block.heed {} = summary hs := by simp [foldl_heed, summary]
  rwa [told] at read

/-- The `n` octets behind the lines are their body, whatever they are and whatever follows. -/
def Frames (hs : List Header) (n : Nat) : Prop :=
  ∀ (body rest : List UInt8) (ended : Bool), body.length = n →
    next .start (blockOctets hs ++ (body ++ rest)) ended = ⟨hs.flatMap Header.notes, .frame body, rest⟩

variable {n : Nat}

theorem frames_of_announced (formed : ∀ h ∈ hs, h.WellFormed) (fits : n ≤ bodyLimit)
    (announced : (summary hs).announced = .ok n) : Frames hs n := by
  rintro body rest ended rfl
  rw [next_headers formed]
  simp [afterBlock, announced, nextBody, Step.noting, if_neg (Nat.not_lt_of_le fits)]

theorem announced_of_frames (formed : ∀ h ∈ hs, h.WellFormed) (framed : Frames hs n) :
    (summary hs).announced = .ok n := by
  have read := congrArg Step.arrival (framed (List.replicate n 0) [] true List.length_replicate)
  rw [next_headers formed, List.append_nil] at read
  simp only [Step.noting, afterBlock] at read
  cases announced : (summary hs).announced with
  | error e =>
    rw [announced] at read
    cases read
  | ok m =>
    simp only [announced, nextDrain, nextBody, or_true, if_true] at read
    by_cases large : bodyLimit < m
    · rw [if_pos large] at read
      cases read
    rw [if_neg large] at read
    by_cases whole : ((List.replicate n (0 : UInt8)).take m).length = m
    · -- What is taken is as long as the body, and as long as the length that is announced.
      rw [if_pos whole] at read
      have body := congrArg List.length (Arrival.frame.inj read)
      simp only [List.reverse_cons, List.reverse_nil, List.nil_append, List.flatten_cons, List.flatten_nil,
        List.append_nil, whole, List.length_replicate] at body
      rw [body]
    · rw [if_neg whole] at read
      cases read

theorem frames_iff_announced (formed : ∀ h ∈ hs, h.WellFormed) (fits : n ≤ bodyLimit) :
    Frames hs n ↔ (summary hs).invalid = false ∧ (summary hs).length = some n := by
  have announced : (summary hs).announced = .ok n ↔ (summary hs).invalid = false ∧ (summary hs).length = some n := by
    unfold Block.announced
    cases (summary hs).invalid <;> cases (summary hs).length <;> simp
  exact ⟨fun framed => announced.mp (announced_of_frames formed framed),
    fun said => frames_of_announced formed fits (announced.mpr said)⟩

variable {before after : List Header} {h : Header}

theorem summary_beside (told : h.told? = some (some n)) :
    ((summary (before ++ h :: after)).invalid = false ∧ (summary (before ++ h :: after)).length = some n) ↔
      (∀ k ∈ before ++ after, k.told? ≠ some none) ∧
        ∀ m ∈ (after.filterMap fun k => k.told?.join).getLast?, m = n := by
  refine and_congr ?_ ?_
  · simp [summary, told, or_imp, forall_and]
  · cases last : (after.filterMap fun k => k.told?.join).getLast? <;>
      simp [summary, List.filterMap_append, told, List.getLast?_append, List.getLast?_cons, last]

theorem filterMap_told_nil (silent : ∀ k ∈ after, k.told? = none) : (after.filterMap fun k => k.told?.join) = [] := by
  rw [List.filterMap_eq_nil_iff]
  intro k listed
  rw [silent k listed, Option.join_none]

theorem notes_length (titled : h.name = lengthTitle) (read : Text.digits? h.value = some n) : h.notes = [] := by
  rw [Header.notes, parts?_length titled read]
  rfl

theorem notes_of_unmentioned (formed : h.WellFormed) (unmentioned : ¬ h.Mentions) : h.notes = [] := by
  rw [Header.notes, parts?_of_unmentioned formed unmentioned]

/-- A header of the length frames as many octets as it says just if no other line tells something that is
no number and no later one tells another length. So it does beside headers in which its name does not stand,
whatever they are, and nothing is left of them. -/
theorem framed_by_length (formed : ∀ k ∈ before ++ h :: after, k.WellFormed) (titled : h.name = lengthTitle)
    (read : Text.digits? h.value = some n) (fits : n ≤ bodyLimit) :
    (Frames (before ++ h :: after) n ↔
      (∀ k ∈ before ++ after, k.told? ≠ some none) ∧
        ∀ m ∈ (after.filterMap fun k => k.told?.join).getLast?, m = n) ∧
    ((∀ k ∈ before ++ after, ¬ k.Mentions) →
      ∀ (body rest : List UInt8) (ended : Bool), body.length = n →
        next .start (blockOctets (before ++ h :: after) ++ (body ++ rest)) ended = ⟨[], .frame body, rest⟩) := by
  have small : n < 2 ^ 64 := Nat.lt_of_le_of_lt fits (by decide)
  have told : h.told? = some (some n) := told?_length titled read small
  have framed := (frames_iff_announced formed fits).trans (summary_beside told)
  refine ⟨framed, fun unmentioned body rest ended whole => ?_⟩
  have other (k : Header) (listed : k ∈ before ++ after) : k.WellFormed :=
    formed k (List.mem_append.mpr ((List.mem_append.mp listed).imp_right (List.mem_cons_of_mem h)))
  have silent (k : Header) (listed : k ∈ before ++ after) : k.told? = none :=
    told?_of_unmentioned (other k listed) (unmentioned k listed)
  have quiet : (before ++ h :: after).flatMap Header.notes = [] := by
    rw [List.flatMap_eq_nil_iff]
    intro k listed
    rcases List.mem_append.mp listed with earlier | listed
    · have beside := List.mem_append_left after earlier
      exact notes_of_unmentioned (other k beside) (unmentioned k beside)
    rcases List.mem_cons.mp listed with rfl | later
    · exact notes_length titled read
    · have beside := List.mem_append_right before later
      exact notes_of_unmentioned (other k beside) (unmentioned k beside)
  have lines : Frames (before ++ h :: after) n := by
    refine framed.mpr ⟨fun k listed => by simp [silent k listed], fun m last => ?_⟩
    rw [filterMap_told_nil fun k later => silent k (List.mem_append_right _ later)] at last
    cases last
  rw [lines body rest ended whole, quiet]

/-- The length between a type and a header whose value says something of lengths, but not by their name. -/
theorem framed_between_headers :
    let type : Header := ⟨"Content-Type".toList, "application/vscode-jsonrpc; charset=utf-8".toList⟩
    let length : Header := ⟨lengthTitle, "4".toList⟩
    let other : Header := ⟨"X-Length".toList, "content-length: 7, Content-Length 9".toList⟩
    (∀ k ∈ [type, length, other], k.WellFormed) ∧ (∀ k ∈ [type, other], ¬ k.Mentions) ∧
      next .start (blockOctets [type, length, other] ++ ([116, 101, 115, 116] ++ [10])) false =
        ⟨[], .frame [116, 101, 115, 116], [10]⟩ := by
  intro type length other
  have typed : type.WellFormed := by decide +kernel
  have titled : length.WellFormed := by decide +kernel
  have third : other.WellFormed := by decide +kernel
  have formed : ∀ k ∈ [type] ++ length :: [other], k.WellFormed := by simp [typed, titled, third]
  have silent : ¬ type.Mentions := not_or.mpr ⟨by decide +kernel, by decide +kernel⟩
  have unnamed : ¬ other.Mentions := not_or.mpr ⟨by decide +kernel, by decide +kernel⟩
  have unmentioned : ∀ k ∈ [type] ++ [other], ¬ k.Mentions := by simp [silent, unnamed]
  have read : Text.digits? length.value = some 4 := by decide +kernel
  have framed := framed_by_length formed rfl read (by decide)
  exact ⟨formed, unmentioned, framed.2 unmentioned [116, 101, 115, 116] [10] false rfl⟩

/-- A header whose name ends in that of the length overrules the length before it: of the five octets behind the
lines three are taken for the body, and the stream goes on with the other two. -/
theorem length_overruled :
    let length : Header := ⟨lengthTitle, "5".toList⟩
    let other : Header := ⟨"X-Content-Length".toList, "3".toList⟩
    length.WellFormed ∧ other.WellFormed ∧ other.name ≠ lengthTitle ∧ Text.digits? length.value = some 5 ∧
      next .start (blockOctets [length, other] ++ [104, 101, 108, 108, 111]) true =
        ⟨[.resynchronised 2], .frame [104, 101, 108], [108, 111]⟩ := by
  intro length other
  have titled : length.WellFormed := by decide +kernel
  have second : other.WellFormed := by decide +kernel
  have formed : ∀ k ∈ [length, other], k.WellFormed := by simp [titled, second]
  have told : summary [length, other] = { started := true, length := some 3 } := by decide +kernel
  have noted : [length, other].flatMap Header.notes = [.resynchronised 2] := by decide +kernel
  refine ⟨titled, second, by decide +kernel, by decide +kernel, ?_⟩
  rw [next_headers formed, told, noted]
  rfl

end Blocks

end LanguageClient.Frame
