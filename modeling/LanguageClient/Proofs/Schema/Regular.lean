import LanguageClient.Proofs.Json.Reread
import LanguageClient.Schema.Decode
import LanguageClient.Schema.Encode

/-! Schemas by which data can be written so that it is read back.

What stands in the way is found by a look at the schema alone: two fields of one name, alternatives that read
the same kind of value, a default that is never read, parts of an object that claim the same members.
-/

set_option autoImplicit false
namespace LanguageClient

open Json (Value)

inductive Json.Kind where
  | null
  | boolean
  | number
  | string
  | list
  | object
  deriving DecidableEq, Repr

namespace Json

def Kind.all : List Kind := [.null, .boolean, .number, .string, .list, .object]

theorem Kind.mem_all (kind : Kind) : kind ∈ Kind.all := by
  cases kind <;> decide

def Value.kind : Value → Kind
  | .null => .null
  | .boolean _ => .boolean
  | .number _ => .number
  | .string _ => .string
  | .array _ => .list
  | .object _ => .object

end Json

namespace Schema

open Json (Kind)

mutual
def accepts : Schema → Kind → Bool
  | .unit, kind => kind = .null
  | .ignored, _ | .value, _ | .recursive _, _ | .recur, _ => true
  | .boolean, kind => kind = .boolean
  | .integer _, kind => kind = .number
  | .text, kind | .uri, kind => kind = .string
  | .list _, kind => kind = .list
  | .map _ _, kind | .merged .., kind => kind = .object
  | .variant _, kind => kind = .string ∨ kind = .object
  | .record .., kind | .tagged .., kind => kind = .object ∨ kind = .list
  | .option content, kind => kind = .null || accepts content kind
  | .toggled content _, kind => kind = .null || kind = .boolean || accepts content kind
  | .untagged _ alternatives, kind => acceptsAny alternatives kind

def acceptsAny : List Schema → Kind → Bool
  | [], _ => false
  | shape :: rest, kind => accepts shape kind || acceptsAny rest kind
end

mutual
theorem accepts_of_decode : ∀ (schema : Schema) {self : Decoder} {detached : Bool} {v : Value} {d : Data},
    schema.decodeWith self detached v = .ok d → schema.accepts v.kind = true
  | .unit, _, _, v, _, read => by cases v <;> first | rfl | cases read
  | .ignored, _, _, _, _, _ | .value, _, _, _, _, _ | .recursive _, _, _, _, _, _ | .recur, _, _, _, _, _ => rfl
  | .boolean, _, _, v, _, read | .integer _, _, _, v, _, read | .text, _, _, v, _, read
  | .uri, _, _, v, _, read | .list _, _, _, v, _, read | .map _ _, _, _, v, _, read | .variant _, _, _, v, _, read
  | .record _ _, _, _, v, _, read | .merged _ _ _, _, _, v, _, read | .tagged _ _ _, _, _, v, _, read => by
    cases v <;> first | rfl | cases read
  | .option content, self, detached, v, d, read => by
    by_cases none : v = .null
    · subst none
      rfl
    · have inner : content.decodeWith self detached v = .ok d := by
        cases v <;> first | exact absurd rfl none | exact read
      rw [accepts, accepts_of_decode content inner, Bool.or_true]
  | .toggled content _, self, detached, v, d, read => by
    cases v with
    | null => rfl
    | boolean b => rfl
    | _ =>
      have inner : content.decodeWith self detached _ = .ok d := read
      rw [accepts, accepts_of_decode content inner, Bool.or_true]
  | .untagged _ alternatives, self, detached, v, d, read => by
    rw [decodeWith] at read
    cases found : decodeFirst alternatives self 0 v with
    | some e => exact acceptsAny_of_decode alternatives found
    | none =>
      rw [found] at read
      cases read

theorem acceptsAny_of_decode : ∀ (alternatives : List Schema) {self : Decoder} {index : Nat} {v : Value} {d : Data},
    decodeFirst alternatives self index v = some d → acceptsAny alternatives v.kind = true
  | [], _, _, _, _, read => by cases read
  | shape :: rest, self, index, v, d, read => by
    rw [decodeFirst] at read
    cases first : shape.decodeWith self true v with
    | ok e => rw [acceptsAny, accepts_of_decode shape first, Bool.true_or]
    | error e =>
      rw [first] at read
      rw [acceptsAny, acceptsAny_of_decode rest read, Bool.or_true]
end

/-! Data without contents, which may stand in for what is not there. -/

mutual
/-- Data without contents, for which there is a value with so much room. -/
def vacant : Nat → Schema → Data → Bool
  | _, .option _, .absent | _, .toggled _ _, .absent => true
  | _ + 1, .list _, .list [] => true
  | room + 1, .record _ fields, .record ds => vacantFields room fields ds
  | _, _, _ => false

def vacantFields : Nat → List (Field Schema) → List Data → Bool
  | _, [], [] => true
  | room, ⟨_, shape, _, _⟩ :: fields, d :: ds => vacant room shape d && vacantFields room fields ds
  | _, _, _ => false
end

def Readable (room : Nat) (schema : Schema) (d : Data) : Prop :=
  ∃ v : Value, v.Exact ∧ v.depth ≤ room ∧ ∀ self detached, schema.decodeWith self detached v = .ok d

mutual
theorem readable_of_vacant : ∀ {room : Nat} (schema : Schema) {d : Data}, vacant room schema d = true →
    Readable room schema d
  | _, .option _, .absent, _ | _, .toggled _ _, .absent, _ => ⟨.null, trivial, Nat.zero_le _, fun _ _ => rfl⟩
  | room + 1, .list _, .list [], _ => ⟨.array [], trivial, Nat.succ_le_succ (Nat.zero_le room), fun _ _ => rfl⟩
  | room + 1, .record name fields, .record ds, empty => by
    obtain ⟨items, exact, fits, read⟩ := items_of_vacant name fields empty
    refine ⟨.array items, exact, Nat.succ_le_succ fits, fun self detached => ?_⟩
    rw [decodeWith, read]
    rfl

theorem items_of_vacant (name : String) : ∀ {room : Nat} (fields : List (Field Schema)) {ds : List Data},
    vacantFields room fields ds = true → ∃ items, Json.ExactItems items ∧ Json.depthItems items ≤ room ∧
      ∀ count length self detached index, decodeItems fields name count length self detached index items = .ok ds
  | _, [], [], _ => ⟨[], trivial, Nat.zero_le _, fun _ _ _ _ _ => rfl⟩
  | room, ⟨_, shape, _, _⟩ :: fields, d :: ds, empty => by
    obtain ⟨first, others⟩ := Bool.and_eq_true_iff.mp empty
    obtain ⟨v, exact, fits, read⟩ := readable_of_vacant shape first
    obtain ⟨items, exacts, fit, reads⟩ := items_of_vacant name fields others
    refine ⟨v :: items, ⟨exact, exacts⟩, Nat.max_le.mpr ⟨fits, fit⟩, fun count length self detached index => ?_⟩
    rw [decodeItems, read, reads]
    rfl
end

/-! The look at a schema. -/

/-- What is made of the field when it is not there is data without contents, and it is left out only if it is
read as absent then. -/
def admits (room : Nat) (shape : Schema) (omitted : Bool) : Absence → Bool
  | .refused => !omitted
  | .optional => vacant room shape .absent
  | .default d => vacant room shape d && (!omitted || Data.isAbsent d)

/-- A part of an object takes members that no other takes: those of its own, or all those that are left. -/
def claims (taken : List String) (last : Bool) : Schema → Bool
  | .record _ fields => (fields.map (·.name)).all fun name => !taken.contains name
  | .map _ _ => last
  | _ => false

/-- No kind of value is read by the shape and by one of the others. -/
def apart (shape : Schema) (others : List Schema) : Bool :=
  Kind.all.all fun kind => !(accepts shape kind && acceptsAny others kind)

mutual
/-- Data of the schema can be written so that it is read back, with so much room. -/
def regular : Nat → Schema → Bool
  | _, .unit | _, .value | _, .boolean | _, .text | _, .uri | _, .integer _ | _, .variant _ => true
  | room, .option content => regular room content
  | room + 1, .list item | room + 1, .map _ item => regular room item
  | room + 1, .record _ fields => regularFields room fields && (fields.map (·.name)).Nodup
  | room + 1, .merged _ fields parts =>
      regularFields room fields && (fields.map (·.name)).Nodup && regularParts (room + 1) (fields.map (·.name)) parts
  | room, .untagged _ alternatives => regularAlternatives room alternatives
  | room, .toggled content whenTrue =>
      regular room content && vacant room content whenTrue && !accepts content .null && !accepts content .boolean
  | _, _ => false

def regularFields : Nat → List (Field Schema) → Bool
  | _, [] => true
  | room, ⟨_, shape, absence, omitted⟩ :: fields =>
      regular room shape && admits room shape omitted absence && regularFields room fields

/-- The names are those that are taken by the record itself and the parts before. -/
def regularParts : Nat → List String → List Schema → Bool
  | _, _, [] => true
  | room, taken, part :: parts =>
      regular room part && claims taken parts.isEmpty part &&
        regularParts room (taken ++ (ownNames? part).getD []) parts

def regularAlternatives : Nat → List Schema → Bool
  | _, [] => true
  | room, shape :: rest =>
      regular room shape && !accepts shape .null && apart shape rest && regularAlternatives room rest
end

/-! More room does no harm. -/

mutual
theorem vacant_mono : ∀ {room more : Nat} (schema : Schema) {d : Data}, room ≤ more → vacant room schema d = true →
    vacant more schema d = true
  | _, _, .option _, .absent, _, _ | _, _, .toggled _ _, .absent, _, _ => rfl
  | _ + 1, _ + 1, .list _, .list [], _, _ => rfl
  | _ + 1, _ + 1, .record _ fields, .record _, wider, empty =>
    vacantFields_mono fields (Nat.le_of_succ_le_succ wider) empty

theorem vacantFields_mono : ∀ {room more : Nat} (fields : List (Field Schema)) {ds : List Data}, room ≤ more →
    vacantFields room fields ds = true → vacantFields more fields ds = true
  | _, _, [], [], _, _ => rfl
  | _, _, ⟨_, shape, _, _⟩ :: fields, _ :: _, wider, empty => by
    obtain ⟨first, others⟩ := Bool.and_eq_true_iff.mp empty
    exact Bool.and_eq_true_iff.mpr ⟨vacant_mono shape wider first, vacantFields_mono fields wider others⟩
end

theorem admits_mono {room more : Nat} {shape : Schema} {omitted : Bool} {absence : Absence} (wider : room ≤ more)
    (admitted : admits room shape omitted absence = true) : admits more shape omitted absence = true := by
  cases absence with
  | refused => exact admitted
  | optional => exact vacant_mono shape wider admitted
  | default d =>
    obtain ⟨empty, absent⟩ := Bool.and_eq_true_iff.mp admitted
    exact Bool.and_eq_true_iff.mpr ⟨vacant_mono shape wider empty, absent⟩

mutual
theorem regular_mono : ∀ {room more : Nat} (schema : Schema), room ≤ more → regular room schema = true →
    regular more schema = true
  | _, _, .unit, _, _ | _, _, .value, _, _ | _, _, .boolean, _, _ | _, _, .text, _, _ | _, _, .uri, _, _
  | _, _, .integer _, _, _ | _, _, .variant _, _, _ => rfl
  | _, _, .option content, wider, ok => regular_mono content wider ok
  | _ + 1, _ + 1, .list item, wider, ok | _ + 1, _ + 1, .map _ item, wider, ok =>
    regular_mono item (Nat.le_of_succ_le_succ wider) ok
  | _ + 1, _ + 1, .record _ fields, wider, ok => by
    obtain ⟨shapes, nodup⟩ := Bool.and_eq_true_iff.mp ok
    exact Bool.and_eq_true_iff.mpr ⟨regularFields_mono fields (Nat.le_of_succ_le_succ wider) shapes, nodup⟩
  | _ + 1, _ + 1, .merged _ fields parts, wider, ok => by
    obtain ⟨own, shared⟩ := Bool.and_eq_true_iff.mp ok
    obtain ⟨shapes, nodup⟩ := Bool.and_eq_true_iff.mp own
    exact Bool.and_eq_true_iff.mpr ⟨Bool.and_eq_true_iff.mpr
      ⟨regularFields_mono fields (Nat.le_of_succ_le_succ wider) shapes, nodup⟩, regularParts_mono parts wider shared⟩
  | _, _, .untagged _ alternatives, wider, ok => regularAlternatives_mono alternatives wider ok
  | _, _, .toggled content _, wider, ok => by
    rw [regular, Bool.and_eq_true, Bool.and_eq_true, Bool.and_eq_true] at ok ⊢
    exact ⟨⟨⟨regular_mono content wider ok.1.1.1, vacant_mono content wider ok.1.1.2⟩, ok.1.2⟩, ok.2⟩

theorem regularFields_mono : ∀ {room more : Nat} (fields : List (Field Schema)), room ≤ more →
    regularFields room fields = true → regularFields more fields = true
  | _, _, [], _, _ => rfl
  | _, _, ⟨_, shape, _, _⟩ :: fields, wider, ok => by
    rw [regularFields, Bool.and_eq_true, Bool.and_eq_true] at ok ⊢
    exact ⟨⟨regular_mono shape wider ok.1.1, admits_mono wider ok.1.2⟩, regularFields_mono fields wider ok.2⟩

theorem regularParts_mono : ∀ {room more : Nat} {taken : List String} (parts : List Schema), room ≤ more →
    regularParts room taken parts = true → regularParts more taken parts = true
  | _, _, _, [], _, _ => rfl
  | _, _, _, part :: parts, wider, ok => by
    rw [regularParts, Bool.and_eq_true, Bool.and_eq_true] at ok ⊢
    exact ⟨⟨regular_mono part wider ok.1.1, ok.1.2⟩, regularParts_mono parts wider ok.2⟩

theorem regularAlternatives_mono : ∀ {room more : Nat} (alternatives : List Schema), room ≤ more →
    regularAlternatives room alternatives = true → regularAlternatives more alternatives = true
  | _, _, [], _, _ => rfl
  | _, _, shape :: rest, wider, ok => by
    rw [regularAlternatives, Bool.and_eq_true, Bool.and_eq_true, Bool.and_eq_true] at ok ⊢
    exact ⟨⟨⟨regular_mono shape wider ok.1.1.1, ok.1.1.2⟩, ok.1.2⟩, regularAlternatives_mono rest wider ok.2⟩
end

end Schema
end LanguageClient
