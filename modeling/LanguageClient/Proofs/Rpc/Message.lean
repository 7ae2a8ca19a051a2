import LanguageClient.Proofs.Schema.Listed
import LanguageClient.Rpc.Message

/-! Messages are told apart as they were written. -/

set_option autoImplicit false
namespace LanguageClient.Rpc

open Json (Value octets)
open Schema (Reads Takes given)

/-- An id that fits the type of an id: a number has 64 bits and a sign. -/
def RequestId.Exact : RequestId → Prop
  | number n => Json.IntegerRange.contains .signed64 n = true
  | string _ => True

def RequestId.data : RequestId → Data
  | number n => .choice 0 (.integer n)
  | string s => .choice 1 (.text s)

theorem exact_of_contained {n : Int} (contained : Json.IntegerRange.contains .signed64 n = true) :
    Json.Exact n := by
  simp only [Json.IntegerRange.contains, Bool.and_eq_true, decide_eq_true_eq] at contained
  unfold Json.Exact
  omega

namespace RequestId

variable {key : RequestId}

theorem ofData?_data (key : RequestId) : ofData? key.data = some key := by cases key <;> rfl

theorem exact_toValue (exact : key.Exact) : key.toValue.Exact := by
  cases key with
  | number n => exact exact_of_contained exact
  | string s => trivial

theorem decodes (exact : key.Exact) (self : Decoder) (detached : Bool) :
    schema.decodeWith self detached key.toValue = .ok key.data := by
  cases key with
  | number n =>
    have contained : Json.IntegerRange.contains .signed64 n = true := exact
    simp only [schema, toValue, Value.ofInt, Schema.decodeWith, Schema.decodeFirst, contained, if_true, data]
  | string s =>
    simp only [schema, toValue, Schema.decodeWith, Schema.decodeFirst, Schema.unfit, data]

theorem reads_schema {room : Nat} (exact : key.Exact) (deep : 0 < room) :
    Reads (Schema.readWith schema room) key.toValue.write key.data := by
  intro rest stops
  have flat : key.toValue.depth < room := by cases key <;> exact deep
  have read := Json.readValue_write (exact_toValue exact) flat stops
  have decoded := decodes exact (Schema.unroll id 0) true
  simp only [schema] at decoded ⊢
  simp only [Schema.readWith, Schema.readDetached, read, bind, Except.bind, decoded]

end RequestId

/-! Error objects. -/

namespace RpcError

/-- What can be told to a peer: a code of 64 bits with a sign, and data that stay exact. -/
structure Exact (e : RpcError) : Prop where
  code : Json.IntegerRange.contains .signed64 e.code = true
  data : ∀ v, e.data = some v → v.Exact

def depth (e : RpcError) : Nat := (e.data.map Value.depth).getD 0 + 1

/-- Data of null are the same as no data to the peer. -/
def arrived (e : RpcError) : RpcError :=
  match e.data with
  | some .null => { e with data := none }
  | _ => e

def record (e : RpcError) : Data :=
  .record [.integer e.code, .text e.message,
    match e.data with
    | none => .absent
    | some v => given v]

theorem ofData?_record (e : RpcError) : ofData? e.record = some e.arrived := by
  obtain ⟨code, message, _ | v⟩ := e
  · rfl
  · cases v <;> rfl

theorem reads_schema {e : RpcError} {room : Nat} (exact : e.Exact) (fits : e.depth < room) :
    Reads (Schema.readWith schema room) e.write e.record := by
  obtain ⟨code, message, data⟩ := e
  have deep : 1 < room := Nat.lt_of_le_of_lt (Nat.le_add_left 1 _) fits
  have coded : Reads (Schema.readWith (.integer .signed64) (room - 1)) (Json.writeInt code) (.integer code) :=
    Schema.reads_integer (exact_of_contained exact.code) exact.code
  have worded : Reads (Schema.readWith .text (room - 1)) (Json.writeString message) (.text message) :=
    Schema.reads_text message
  cases data with
  | none =>
    exact Schema.readWith_record deep (List.cons_ne_nil _ _)
      (.taken rfl rfl coded (.taken rfl rfl worded .done)) rfl
  | some v =>
    have shallow : v.depth < room - 1 := Nat.lt_sub_of_add_lt fits
    have attached := Schema.reads_given (exact.data v rfl) shallow
    exact Schema.readWith_record deep (List.cons_ne_nil _ _)
      (.taken rfl rfl coded (.taken rfl rfl worded (.taken rfl rfl attached .done))) rfl

theorem reads_optional {e : RpcError} {room : Nat} (exact : e.Exact) (fits : e.depth < room) :
    Reads (Schema.readWith (.option schema) room) e.write e.record := by
  have front : octets e.write = Json.ascii '\x7b' :: _ := Json.octets_ascii (by decide) _
  exact Schema.reads_option front (by decide) (by decide) (reads_schema exact fits)

end RpcError

/-! Responses. -/

/-- What a response can tell a peer: values stay exact, and so do error objects. -/
def Stated : Outcome → Prop
  | .ok v => v.Exact
  | .error e => e.Exact

def nesting : Outcome → Nat
  | .ok v => v.depth
  | .error e => e.depth

namespace Message

theorem reads_member {key : RequestId} {room : Nat} (exact : key.Exact) (deep : 0 < room) :
    Reads (Schema.readWith (.option RequestId.schema) room) key.toValue.write key.data := by
  refine Schema.reads_some (RequestId.exact_toValue exact) ?_ (RequestId.reads_schema exact deep)
  cases key <;> exact nofun

theorem reads_method {room : Nat} (method : String) :
    Reads (Schema.readWith (.option .text) room) (Json.writeString method) (.text method) :=
  @Schema.reads_some _ (.string method) _ _ trivial nofun (Schema.reads_text method)

theorem getD_given (v : Value) : (json? (given v)).getD .null = v := by cases v <;> rfl

theorem ofBytes_response {r : Response} (exact : r.id.Exact) (stated : Stated r.outcome)
    (fits : nesting r.outcome + 1 < Json.nestingLimit) :
    ofBytes (octets r.write) = .ok (.response (some r.id) (r.outcome.mapError RpcError.arrived)) := by
  obtain ⟨key, outcome⟩ := r
  have room : nesting outcome < Json.nestingLimit - 1 := Nat.lt_sub_of_add_lt fits
  have unread : Schema.Passed (Json.writeString version) := Schema.passed_string _
  have identified := reads_member exact (show 0 < Json.nestingLimit - 1 by decide)
  cases outcome with
  | ok v =>
    have read : schema.read (octets (Response.write ⟨key, .ok v⟩)) =
        .ok (.record [key.data, .absent, given v, .absent]) :=
      Schema.read_of_reads (Schema.readWith_record (by decide) (List.cons_ne_nil _ _)
        (.passed rfl unread (.taken rfl rfl identified
          (.taken rfl rfl (Schema.reads_given stated room) .done))) rfl)
    rw [ofBytes, read]
    simp only [Except.map, ofData, RequestId.ofData?_data, text?, RpcError.ofData?, classify, getD_given]
    rfl
  | error e =>
    have read : schema.read (octets (Response.write ⟨key, .error e⟩)) =
        .ok (.record [key.data, .absent, .absent, e.record]) :=
      Schema.read_of_reads (Schema.readWith_record (by decide) (List.cons_ne_nil _ _)
        (.passed rfl unread (.taken rfl rfl identified
          (.taken rfl rfl (RpcError.reads_optional stated room) .done))) rfl)
    rw [ofBytes, read]
    simp only [Except.map, ofData, RequestId.ofData?_data, text?, RpcError.ofData?_record, classify]
    rfl

/-! Requests and notifications. Their params are passed over, whatever their nesting. -/

section Params

variable {params : Option Value} {readers : List (String × (List UInt8 → Except Json.Failure (Data × List UInt8)))}
  {read : List (String × Data)}

theorem takes_params (exact : ∀ v, params = some v → v.Exact) (unread : readers.lookup "params" = none) :
    Takes readers read (paramsMember params) read := by
  cases params with
  | none => exact .done
  | some v => exact .passed unread (Schema.passed_value (exact v rfl)) .done

theorem ofBytes_request {key : RequestId} {method : String} (identified : key.Exact)
    (exact : ∀ v, params = some v → v.Exact) :
    ofBytes (octets (writeRequest key method params)) = .ok (.request key method) := by
  have read : schema.read (octets (writeRequest key method params)) =
      .ok (.record [key.data, .text method, .absent, .absent]) :=
    Schema.read_of_reads (Schema.readWith_record (by decide) (List.cons_ne_nil _ _)
      (.passed rfl (Schema.passed_string _) (.taken rfl rfl (reads_member identified (by decide))
        (.taken rfl rfl (reads_method method) (takes_params exact rfl)))) rfl)
  rw [ofBytes, read]
  simp only [Except.map, ofData, RequestId.ofData?_data, text?, classify]

theorem ofBytes_notification {method : String} (exact : ∀ v, params = some v → v.Exact) :
    ofBytes (octets (writeNotification method params)) = .ok (.notification method) := by
  have read : schema.read (octets (writeNotification method params)) =
      .ok (.record [.absent, .text method, .absent, .absent]) :=
    Schema.read_of_reads (Schema.readWith_record (by decide) (List.cons_ne_nil _ _)
      (.passed rfl (Schema.passed_string _)
        (.taken rfl rfl (reads_method method) (takes_params exact rfl))) rfl)
  rw [ofBytes, read]
  rfl

end Params

/-! A list is taken for a message as well: its items are id, method, result and error. -/

section Listed

variable {key : RequestId}

theorem ofBytes_listed_request {method : String} (identified : key.Exact) :
    ofBytes (octets (Value.array [key.toValue, .string method]).write) = .ok (.request key method) := by
  have read : schema.read (octets (Value.array [key.toValue, .string method]).write) =
      .ok (.record [key.data, .text method, .absent, .absent]) :=
    Schema.read_of_reads (Schema.readWith_listed (by decide)
      (.taken (RequestId.exact_toValue identified).proper (reads_member identified (by decide))
        (.taken trivial (reads_method method) (.missing (.missing .done)))))
  rw [ofBytes, read]
  simp only [Except.map, ofData, RequestId.ofData?_data, text?, classify]

theorem ofBytes_listed_response {v : Value} (identified : key.Exact) (exact : v.Exact)
    (fits : v.depth + 1 < Json.nestingLimit) :
    ofBytes (octets (Value.array [key.toValue, .null, v]).write) = .ok (.response (some key) (.ok v)) := by
  have room : v.depth < Json.nestingLimit - 1 := Nat.lt_sub_of_add_lt fits
  have read : schema.read (octets (Value.array [key.toValue, .null, v]).write) =
      .ok (.record [key.data, .absent, given v, .absent]) :=
    Schema.read_of_reads (Schema.readWith_listed (by decide)
      (.taken (RequestId.exact_toValue identified).proper (reads_member identified (by decide))
        (.taken trivial Schema.reads_null (.taken exact.proper (Schema.reads_given exact room) (.missing .done)))))
  rw [ofBytes, read]
  simp only [Except.map, ofData, RequestId.ofData?_data, text?, RpcError.ofData?, classify, getD_given]

end Listed

end Message

end LanguageClient.Rpc
