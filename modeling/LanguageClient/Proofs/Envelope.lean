import LanguageClient.Message
import LanguageClient.Proofs.Payload
import LanguageClient.Proofs.Schema.Judging

/-! What of a message is looked at, and what is not.

The text of a message is read twice: once to tell what it is, and once more for its params. Each
reading has members of its own. Two objects that agree on these are the same to it, in whatever order
their members stand and whatever else they hold.
-/

set_option autoImplicit false
namespace LanguageClient.Envelope

open Json (Value)
open Payload (present)
open Schema (Judges defaulted fieldOutcome fieldReaders given readWith taken? written)

/-- Under the name both objects hold values that are read to the same, or nothing but null. -/
def Agree (name : String) (members others : List (String × Value)) : Prop :=
  (present (members.lookup name)).map Value.reread = (present (others.lookup name)).map Value.reread

/-- There is room for the nesting of the params, inside the object. -/
def Shallow (members : List (String × Value)) : Prop :=
  ∀ v, members.lookup "params" = some v → v.depth + 1 < Json.nestingLimit

/-- Params are read from both texts to the same, or with the same error. -/
structure SameParams (text other : List UInt8) : Prop where
  typed : ∀ schema policy, Payload.decode schema policy text = Payload.decode schema policy other
  notification : ∀ method policy,
    ServerNotification.Message.decode method text policy = ServerNotification.Message.decode method other policy
  request : ∀ method, ServerRequest.Message.decode method text = ServerRequest.Message.decode method other

/-- Both texts are told to be the same message, or neither is told to be any. -/
def SameMessage (text other : List UInt8) : Prop :=
  (Rpc.Message.ofBytes text).toOption = (Rpc.Message.ofBytes other).toOption

section Fields

variable {members others : List (String × Value)} {fields : List (Field Schema)} {name : String} {content : Schema}
  {room : Nat}

theorem lookup_of_present {v : Value} (held : present (members.lookup name) = some v) :
    members.lookup name = some v ∧ v ≠ .null := by
  cases kept : members.lookup name with
  | none =>
    rw [kept] at held
    cases held
  | some w =>
    rw [kept] at held
    cases w <;> cases held <;> exact ⟨rfl, nofun⟩

theorem lookup_of_absent (absent : present (members.lookup name) = none) :
    members.lookup name = none ∨ members.lookup name = some .null := by
  cases kept : members.lookup name with
  | none => exact .inl rfl
  | some w =>
    rw [kept] at absent
    cases w <;> first | exact .inr rfl | cases absent

theorem fieldOutcome_absent (listed : (fieldReaders fields room).lookup name = some (readWith (.option content) room))
    (absent : present (members.lookup name) = none) :
    fieldOutcome (fieldReaders fields room) (written members) (defaulted name content) = some .absent := by
  simp only [fieldOutcome, defaulted, written, Json.lookup_map]
  rcases lookup_of_absent absent with none | null
  · rw [none]
    rfl
  · have empty : Schema.Reads (readWith (.option content) room) Value.null.write .absent := Schema.reads_null
    rw [null, listed]
    exact Schema.taken?_of_reads empty

theorem fieldOutcome_agree (judges : ∀ field ∈ fields, Judges (readWith field.shape room))
    (listed : (fieldReaders fields room).lookup name = some (readWith (.option content) room))
    (proper : (Value.object members).Proper) (other : (Value.object others).Proper)
    (agree : Agree name members others) : fieldOutcome (fieldReaders fields room) (written members) (defaulted name content) =
      fieldOutcome (fieldReaders fields room) (written others) (defaulted name content) := by
  unfold Agree at agree
  cases held : present (members.lookup name) with
  | none =>
    rw [held] at agree
    rw [fieldOutcome_absent listed held, fieldOutcome_absent listed (Option.map_eq_none_iff.mp agree.symm)]
  | some v =>
    rw [held] at agree
    obtain ⟨w, kept, alike⟩ := Option.map_eq_some_iff.mp agree.symm
    refine Schema.fieldOutcome_again judges proper.2 other.2 ?_
    show (members.lookup name).map Value.reread = (others.lookup name).map Value.reread
    rw [(lookup_of_present held).1, (lookup_of_present kept).1]
    exact congrArg some alike.symm

end Fields

/-! The params. -/

section Params

variable {members others : List (String × Value)}

theorem judges_envelope :
    ∀ field ∈ [defaulted "params" .value], Judges (readWith field.shape (Json.nestingLimit - 1)) := by
  intro field member
  obtain rfl := List.mem_singleton.mp member
  exact Schema.judges_option (Schema.judges_value (by decide))

theorem outcome_params (proper : (Value.object members).Proper) (shallow : Shallow members) :
    fieldOutcome Payload.readers (written members) (defaulted "params" .value) =
      some (match (members.lookup "params").map Value.reread with
        | none => .absent
        | some v => given v) := by
  simp only [fieldOutcome, written, Json.lookup_map]
  cases held : members.lookup "params" with
  | none =>
    have stands : (defaulted "params" Schema.value).name = "params" := rfl
    rw [stands, held]
    rfl
  | some v =>
    have stands : (defaulted "params" Schema.value).name = "params" := rfl
    rw [stands, held]
    exact Schema.taken?_of_reads (Schema.reads_reread (Schema.proper_of_mem proper.2 (Json.mem_of_lookup held))
      (Nat.lt_sub_of_add_lt (shallow v held)))

theorem present_reread (params : Option Value) :
    present (params.map Value.reread) = (present params).map Value.reread := by
  obtain _ | v := params
  · rfl
  · cases v <;> rfl

theorem params_object (proper : (Value.object members).Proper) (shallow : Shallow members) :
    Payload.params (Value.object members).encode = .ok ((present (members.lookup "params")).map Value.reread) := by
  have deep : 1 < Json.nestingLimit := by decide
  have made : [defaulted "params" .value].mapM (fieldOutcome Payload.readers (written members)) =
      some [match (members.lookup "params").map Value.reread with
        | none => .absent
        | some v => given v] := by
    rw [List.mapM_cons, outcome_params proper shallow]
    rfl
  have outcome := Schema.record_object "ParamsEnvelope" deep judges_envelope proper
  unfold Payload.readers at made
  simp only [made] at outcome
  have read : Payload.envelope.read (Value.object members).encode =
      .ok (Payload.envelopeData ((members.lookup "params").map Value.reread)) := Schema.read_of_reads outcome
  rw [Payload.params, read]
  exact congrArg Except.ok ((Payload.paramsOf_envelopeData _).trans (present_reread _))

theorem shallow_of_agree (proper : (Value.object members).Proper) (other : (Value.object others).Proper)
    (shallow : Shallow members) (agree : Agree "params" members others) : Shallow others := by
  intro w kept
  cases held : present (others.lookup "params") with
  | none =>
    rcases lookup_of_absent held with none | null
    · cases none.symm.trans kept
    · cases null.symm.trans kept
      decide
  | some v =>
    obtain rfl := Option.some.inj ((lookup_of_present held).1.symm.trans kept)
    rw [Agree, held] at agree
    obtain ⟨u, stands, alike⟩ := Option.map_eq_some_iff.mp agree
    have there := (lookup_of_present stands).1
    have same : u.depth = v.depth := by
      rw [← Json.depth_reread (Schema.proper_of_mem proper.2 (Json.mem_of_lookup there)), alike,
        Json.depth_reread (Schema.proper_of_mem other.2 (Json.mem_of_lookup kept))]
    rw [← same]
    exact shallow u there

theorem sameParams_of_agree (proper : (Value.object members).Proper) (other : (Value.object others).Proper)
    (shallow : Shallow members) (agree : Agree "params" members others) :
    SameParams (Value.object members).encode (Value.object others).encode := by
  have found : Payload.params (Value.object members).encode = Payload.params (Value.object others).encode := by
    rw [params_object proper shallow, params_object other (shallow_of_agree proper other shallow agree), agree]
  have typed (schema : Schema) (policy : ParamsPolicy) :
      Payload.decode schema policy (Value.object members).encode =
        Payload.decode schema policy (Value.object others).encode := by
    simp only [Payload.decode, found]
  refine ⟨typed, fun method policy => ?_, fun method => ?_⟩
  · simp only [ServerNotification.Message.decode, typed]
  · simp only [ServerRequest.Message.decode, typed]

end Params

/-! What a message is. -/

section Classification

variable {members others : List (String × Value)}

def telling : List (Field Schema) :=
  [defaulted "id" Rpc.RequestId.schema, defaulted "method" .text, defaulted "result" .value,
    defaulted "error" Rpc.RpcError.schema]

theorem judges_error {room : Nat} (deep : 1 < room) : Judges (readWith Rpc.RpcError.schema room) := by
  have room_pos : 0 < room - 1 := Nat.sub_pos_of_lt deep
  refine Schema.judges_record _ deep fun field member => ?_
  rcases List.mem_cons.mp member with rfl | member
  · exact Schema.judges_integer _
  rcases List.mem_cons.mp member with rfl | member
  · exact Schema.judges_text
  obtain rfl := List.mem_singleton.mp member
  exact Schema.judges_option (Schema.judges_value room_pos)

theorem judges_telling : ∀ field ∈ telling, Judges (readWith field.shape (Json.nestingLimit - 1)) := by
  intro field member
  rcases List.mem_cons.mp member with rfl | member
  · exact Schema.judges_option (Schema.judges_detached Rpc.RequestId.schema (by decide))
  rcases List.mem_cons.mp member with rfl | member
  · exact Schema.judges_option Schema.judges_text
  rcases List.mem_cons.mp member with rfl | member
  · exact Schema.judges_option (Schema.judges_value (by decide))
  obtain rfl := List.mem_singleton.mp member
  exact Schema.judges_option (judges_error (by decide))

theorem ofBytes_object (proper : (Value.object members).Proper) :
    (Rpc.Message.ofBytes (Value.object members).encode).toOption =
      (telling.mapM (fieldOutcome (fieldReaders telling (Json.nestingLimit - 1)) (written members))).map fun ds =>
        Rpc.Message.ofData (.record ds) := by
  have deep : 1 < Json.nestingLimit := by decide
  have outcome := Schema.record_object "RawMessage" deep judges_telling proper
  cases made : telling.mapM (fieldOutcome (fieldReaders telling (Json.nestingLimit - 1)) (written members)) with
  | some ds =>
    simp only [made] at outcome
    have read : Rpc.Message.schema.read (Value.object members).encode = .ok (.record ds) := Schema.read_of_reads outcome
    rw [Rpc.Message.ofBytes, read]
    rfl
  | none =>
    simp only [made] at outcome
    obtain ⟨e, read⟩ : ∃ e, Rpc.Message.schema.read (Value.object members).encode = .error e :=
      Schema.read_of_refuses outcome
    rw [Rpc.Message.ofBytes, read]
    rfl

theorem sameMessage_of_agree (proper : (Value.object members).Proper) (other : (Value.object others).Proper)
    (id : Agree "id" members others) (method : Agree "method" members others)
    (result : Agree "result" members others) (error : Agree "error" members others) :
    SameMessage (Value.object members).encode (Value.object others).encode := by
  have outcomes : ∀ field ∈ telling,
      fieldOutcome (fieldReaders telling (Json.nestingLimit - 1)) (written members) field =
        fieldOutcome (fieldReaders telling (Json.nestingLimit - 1)) (written others) field := by
    intro field member
    rcases List.mem_cons.mp member with rfl | member
    · exact fieldOutcome_agree judges_telling rfl proper other id
    rcases List.mem_cons.mp member with rfl | member
    · exact fieldOutcome_agree judges_telling rfl proper other method
    rcases List.mem_cons.mp member with rfl | member
    · exact fieldOutcome_agree judges_telling rfl proper other result
    obtain rfl := List.mem_singleton.mp member
    exact fieldOutcome_agree judges_telling rfl proper other error
  rw [SameMessage, ofBytes_object proper, ofBytes_object other, Schema.mapM_congr outcomes]

end Classification

section Own

variable {members others : List (String × Value)}

theorem agree_of_eq {name : String} (same : members.lookup name = others.lookup name) : Agree name members others := by
  rw [Agree, same]

/-- Each reading of a message looks at its own members alone. Objects that agree on params are decoded to the same
params, or with the same error, and objects that agree on id, method, result and error are told to be the same message,
or both to be none. In particular params do not hang on id and method, nor what a message is on its params. -/
theorem own_members_alone (proper : (Value.object members).Proper) (other : (Value.object others).Proper) :
    (Shallow members → Agree "params" members others →
      SameParams (Value.object members).encode (Value.object others).encode) ∧
    (Agree "id" members others → Agree "method" members others → Agree "result" members others →
      Agree "error" members others → SameMessage (Value.object members).encode (Value.object others).encode) ∧
    (Shallow members → (∀ name, name ≠ "id" → name ≠ "method" → members.lookup name = others.lookup name) →
      SameParams (Value.object members).encode (Value.object others).encode) ∧
    ((∀ name, name ≠ "params" → members.lookup name = others.lookup name) →
      SameMessage (Value.object members).encode (Value.object others).encode) := by
  refine ⟨sameParams_of_agree proper other, sameMessage_of_agree proper other, fun shallow same => ?_, fun same => ?_⟩
  · exact sameParams_of_agree proper other shallow (agree_of_eq (same _ (by decide) (by decide)))
  · exact sameMessage_of_agree proper other (agree_of_eq (same _ (by decide))) (agree_of_eq (same _ (by decide)))
      (agree_of_eq (same _ (by decide))) (agree_of_eq (same _ (by decide)))

def shown : List (String × Value) :=
  [("jsonrpc", .string "2.0"), ("method", .string "window/logMessage"),
    ("params", .object [("message", .string "ready"), ("type", .ofInt 3)])]

/-- The same one in another order, with an id of null and with members that no reading looks at. -/
def reordered : List (String × Value) :=
  [("load", .number (.double ⟨0x3FF8000000000000⟩)),
    ("params", .object [("type", .ofInt 3), ("message", .string "ready")]),
    ("trace", .array [.object [("id", .ofInt 7)], .null]), ("id", .null), ("method", .string "window/logMessage")]

theorem own_members_reordered :
    (Value.object shown).Proper ∧ (Value.object reordered).Proper ∧ Shallow shown ∧ Agree "params" shown reordered ∧
    Agree "id" shown reordered ∧ Agree "method" shown reordered ∧ Agree "result" shown reordered ∧
    Agree "error" shown reordered ∧ SameParams (Value.object shown).encode (Value.object reordered).encode ∧
    SameMessage (Value.object shown).encode (Value.object reordered).encode := by
  have proper : (Value.object shown).Proper := ⟨by decide, by
    simp [shown, Json.ProperMembers, Value.Proper, Value.ofInt, Json.Number.Proper, Json.Exact]⟩
  have other : (Value.object reordered).Proper := ⟨by decide, by
    simp +decide [reordered, Json.ProperMembers, Json.ProperItems, Value.Proper, Value.ofInt, Json.Number.Proper]⟩
  have shallow : Shallow shown := by
    intro v held
    cases held
    decide
  have params : Agree "params" shown reordered := rfl
  have own := own_members_alone proper other
  exact ⟨proper, other, shallow, params, rfl, rfl, rfl, rfl, own.1 shallow params, own.2.1 rfl rfl rfl rfl⟩

end Own

end LanguageClient.Envelope
