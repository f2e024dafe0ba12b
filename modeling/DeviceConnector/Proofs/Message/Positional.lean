import DeviceConnector.Proofs.Json.Form
import DeviceConnector.Proofs.Message.Variant
/-!
# Messages in order

A message may be given as the array of its fields in the order of declaration, and so may each of
its payloads. It is read as the same message from every such array, whichever fields without a value
are left out at the end, as from the object that is written for it.
-/

namespace DeviceConnector

open Json (Value)
open Json.Value (Slot InOrder Form Optionally Gap optionally_map optionally_getD)

namespace Json.Value

variable {text : String} {v : Value}

/-- The string says the text, whatever is escaped in it. -/
def Spells (text : String) (v : Value) : Prop :=
  ∃ content, v = .string content ∧ toText? content = some text

theorem spells_ofText (text : String) : Spells text (.ofText text) := ⟨_, rfl, toText?_ofText text⟩

theorem Spells.read (spelled : Spells text v) : v ≠ .null ∧ v.text? = some text := by
  obtain ⟨content, rfl, read⟩ := spelled
  exact ⟨by simp, read⟩

def IsWord (n : UInt32) (v : Value) : Prop := v = .ofNat n.toNat

theorem isWord_ofNat (n : UInt32) : IsWord n (.ofNat n.toNat) := rfl

theorem IsWord.read {n : UInt32} (word : IsWord n v) : v ≠ .null ∧ v.word? = some n := by
  obtain rfl := word
  exact ⟨by simp [ofNat], word?_ofNat n⟩

theorem isSpelled_getD {α : Type} {write : α → Value} (spelled : ∀ x, (write x).IsSpelled)
    (a : Option α) : ((a.map write).getD .null).IsSpelled := by
  cases a with
  | none => trivial
  | some x => exact spelled x

theorem form_ofFields {slots : List Slot} {fields : List (String × Option Value)}
    (distinct : (fields.map (·.1)).Nodup)
    (given : ∀ slot ∈ slots, slot.2 (fields.lookup slot.1).join) :
    Form slots (.ofFields fields) := by
  refine .keyed (namedMembers?_ofFields fields) (fun slot _ => countP_present distinct slot.1) ?_
  intro slot mem
  rw [lookup_present distinct]
  exact given slot mem

end Json.Value

open Json.Value (Spells IsWord spells_ofText isWord_ofNat isSpelled_getD form_ofFields)

def EntityRef.slots (ref : EntityRef) : List Slot := [("dSUID", Optionally Spells ref.dsuid)]

def HelloRequest.slots (request : HelloRequest) : List Slot :=
  [("dSUID", Optionally Spells request.dsuid),
    ("api_version", Optionally IsWord request.apiVersion)]

def GenericResponse.slots (response : GenericResponse) : List Slot :=
  [("code", Optionally (fun code => Spells code.name) response.code),
    ("description", Optionally Spells response.description)]

section

variable {v : Value}

theorem ResultCode.ofJson?_of_spells {code : ResultCode} (spelled : Spells code.name v) :
    v ≠ .null ∧ ofJson? v = some code := by
  obtain ⟨content, rfl, read⟩ := spelled
  have named : ofName? code.name = some code := by cases code <;> rfl
  exact ⟨by simp, by rw [ofJson?, read, Option.bind_some, named]⟩

theorem EntityRef.ofJson?_of_form {ref : EntityRef} (form : Form ref.slots v) :
    v ≠ .null ∧ ofJson? v = some ref := by
  obtain ⟨field, record, given⟩ := form.exists_field (by simp [slots])
  replace record : v.record? fields = some field := record
  simp only [slots, List.forall_mem_cons] at given
  have dsuid := given.1.optional fun _ _ => Spells.read
  exact ⟨form.ne_null, by simp [ofJson?, record, dsuid]⟩

theorem HelloRequest.ofJson?_of_form {request : HelloRequest} (form : Form request.slots v) :
    v ≠ .null ∧ ofJson? v = some request := by
  obtain ⟨field, record, given⟩ := form.exists_field (by simp [slots])
  replace record : v.record? fields = some field := record
  simp only [slots, List.forall_mem_cons] at given
  have dsuid := given.1.optional fun _ _ => Spells.read
  have version := given.2.1.optional fun _ _ => IsWord.read
  exact ⟨form.ne_null, by simp [ofJson?, record, dsuid, version]⟩

theorem GenericResponse.ofJson?_of_form {response : GenericResponse}
    (form : Form response.slots v) : v ≠ .null ∧ ofJson? v = some response := by
  obtain ⟨field, record, given⟩ := form.exists_field (by simp [slots])
  replace record : v.record? fields = some field := record
  simp only [slots, List.forall_mem_cons] at given
  have code := given.1.optional fun _ _ => ResultCode.ofJson?_of_spells
  have description := given.2.1.optional fun _ _ => Spells.read
  exact ⟨form.ne_null, by simp [ofJson?, record, code, description]⟩

end

theorem EntityRef.form_toJson (ref : EntityRef) : Form ref.slots ref.toJson := by
  refine form_ofFields (by simp) ?_
  simp [slots, optionally_map spells_ofText]

theorem HelloRequest.form_toJson (request : HelloRequest) : Form request.slots request.toJson := by
  refine form_ofFields (by simp) ?_
  simp [slots, List.lookup_cons, optionally_map spells_ofText, optionally_map isWord_ofNat]

theorem GenericResponse.form_toJson (response : GenericResponse) :
    Form response.slots response.toJson := by
  refine form_ofFields (by simp) ?_
  have code (code : ResultCode) : Spells code.name code.toJson := spells_ofText _
  simp [slots, List.lookup_cons, optionally_map spells_ofText, optionally_map code]

namespace Message

variable {m : Message} {v : Value}

def slots (m : Message) : List Slot :=
  let entity := Optionally fun (ref : EntityRef) => Form ref.slots
  [("type", fun value => ∃ v, value = some v ∧ Spells m.type.tag v),
    ("message_id", Optionally IsWord m.id),
    ("vdsm_request_hello", Optionally (fun request => Form request.slots) m.helloRequest),
    ("vdc_response_hello", entity m.helloResponse), ("vdsm_send_ping", entity m.ping),
    ("vdc_send_pong", entity m.pong), ("vdsm_send_bye", entity m.bye),
    ("vdsm_send_remove", entity m.remove),
    ("generic_response", Optionally (fun response => Form response.slots) m.response),
    ("vdc_send_announce_vdc", entity m.announce), ("vdc_send_vanish", entity m.vanish)]

/-- All fields of the message, those without a value as null and the payloads as objects. -/
def items (m : Message) : List Value :=
  let entity (ref : Option EntityRef) := (ref.map EntityRef.toJson).getD .null
  [m.type.toJson, (m.id.map fun n => .ofNat n.toNat).getD .null,
    (m.helloRequest.map HelloRequest.toJson).getD .null, entity m.helloResponse, entity m.ping,
    entity m.pong, entity m.bye, entity m.remove,
    (m.response.map GenericResponse.toJson).getD .null, entity m.announce, entity m.vanish]

/-- A message is read from both of its forms. -/
theorem ofJson?_of_form (form : Form m.slots v) :
    ofJson? v = some { m with type := .ofTag m.type.tag } := by
  obtain ⟨field, record, given⟩ := form.exists_field (by simp [slots])
  simp only [slots, List.forall_mem_cons] at given
  obtain ⟨type, id, hello, welcome, ping, pong, bye, remove, response, announce, vanish, -⟩ := given
  have entity {ref : Option EntityRef} {value : Option Value}
      (given : Optionally (fun ref => Form ref.slots) ref value) :
      Value.optional EntityRef.ofJson? value = some ref :=
    given.optional fun _ _ => EntityRef.ofJson?_of_form
  refine ofJson?_eq_some_iff.2 ⟨field, record, ?_⟩
  exact {
    type := by
      obtain ⟨w, there, spelled⟩ := type
      rw [there, Option.bind_some, MessageType.ofJson?, spelled.read.2, Option.map_some]
    id := id.optional fun _ _ => IsWord.read
    helloRequest := hello.optional fun _ _ => HelloRequest.ofJson?_of_form
    helloResponse := entity welcome
    ping := entity ping
    pong := entity pong
    bye := entity bye
    remove := entity remove
    response := response.optional fun _ _ => GenericResponse.ofJson?_of_form
    announce := entity announce
    vanish := entity vanish }

theorem inOrder_items (m : Message) : InOrder m.slots m.items := by
  have entity := optionally_getD EntityRef.form_toJson
  exact .next ⟨_, rfl, spells_ofText _⟩ <| .next (optionally_getD isWord_ofNat _) <|
    .next (optionally_getD HelloRequest.form_toJson _) <| .next (entity _) <| .next (entity _) <|
    .next (entity _) <| .next (entity _) <| .next (entity _) <|
    .next (optionally_getD GenericResponse.form_toJson _) <| .next (entity _) <| .next (entity _) <|
    .done (by simp)

theorem isSpelled_items (m : Message) : (Value.array m.items).IsSpelled := by
  have word (n : UInt32) : (Value.ofNat n.toNat).IsSpelled := Value.isSpelled_ofNat _
  simp [items, Value.IsSpelled, Value.AreSpelled, MessageType.toJson, Value.isSpelled_ofText,
    isSpelled_getD word, isSpelled_getD EntityRef.isSpelled_toJson,
    isSpelled_getD HelloRequest.isSpelled_toJson, isSpelled_getD GenericResponse.isSpelled_toJson]

theorem ofJson?_of_lt {values : List Value} (many : fields.length < values.length) :
    ofJson? (.array values) = none := by
  rw [ofJson?, Value.record?_array_of_lt many]
  rfl

/-- No message is read if one of its payloads is an array with more values than it has fields. -/
theorem ofJson?_gap_of_lt {name : String} {kinds : List String} {put : Value → Value}
    {values : List Value} (gap : Gap fields name put) (listed : payloads.lookup name = some kinds)
    (many : kinds.length < values.length) : ofJson? (put (.array values)) = none := by
  rw [Option.eq_none_iff_forall_ne_some]
  intro m read
  obtain ⟨_, record, taken⟩ := ofJson?_eq_some_iff.1 read
  obtain ⟨declared, α, reader, a, ⟨take, through, -⟩, given⟩ := taken.payload listed
  obtain ⟨rest, whole⟩ := gap.exists_rest (by decide) declared
  rw [whole] at record
  obtain ⟨field, -, rfl⟩ := Option.map_eq_some_iff.1 record
  rw [Function.update_self, Value.optional_some reader (by simp), through,
    Value.record?_array_of_lt many] at given
  cases given

/-- The array of the fields of a message is read as the same message as the object that is written
for it; an empty array is no message, and neither is one with too many values, in the message or in
a payload. -/
theorem decode_positional :
    (∀ m : Message, (∀ tag, m.type = .unknown tag → tag ∉ MessageType.table.map (·.2)) →
      ∃ body, BodyCodec.json.encode m = .ok body ∧ BodyCodec.json.decode body = .ok m ∧
        InOrder m.slots m.items ∧ (Value.array m.items).IsText (Value.array m.items).render ∧
        ∀ values text, InOrder m.slots values → (Value.array values).IsText text →
          BodyCodec.json.decode text = BodyCodec.json.decode body) ∧
    (∀ text, (Value.array []).IsText text → BodyCodec.json.decode text = .error .json) ∧
    (∀ values text, fields.length < values.length → (Value.array values).IsText text →
      BodyCodec.json.decode text = .error .json) ∧
    ∀ name kinds put values text, payloads.lookup name = some kinds → Gap fields name put →
      kinds.length < values.length → (put (.array values)).IsText text →
        BodyCodec.json.decode text = .error .json := by
  have unread {v : Value} {text : Bytes} (isText : v.IsText text) (none : ofJson? v = none) :
      BodyCodec.json.decode text = .error .json := by
    have decoded : BodyCodec.json.decode text = _ := decode_of_isText isText
    rwa [none] at decoded
  refine ⟨fun m unlisted => ?_, fun text isText => unread isText rfl,
    fun values text many isText => unread isText (ofJson?_of_lt many),
    fun name kinds put values text listed gap many isText =>
      unread isText (ofJson?_gap_of_lt gap listed many)⟩
  have back := (MessageType.ofTag_tag_iff m.type).2 unlisted
  have read : BodyCodec.json.decode m.encode = .ok m := by
    have decoded := decode_encode m
    rwa [back] at decoded
  refine ⟨m.encode, rfl, read, inOrder_items m, ⟨isSpelled_items m, Json.laid_spellings _⟩, ?_⟩
  intro values text given isText
  have same := ofJson?_of_form (.inOrder given)
  rw [back] at same
  rw [read]
  exact (decode_eq_ok_iff_of_isText isText).2 same

def echoed : Message :=
  { type := .genericResponse, id := some 7, helloRequest := some { apiVersion := some 3 },
    response := some { code := some .ok } }

def echoedValues : List Value :=
  [.ofText "generic_response", .ofNat 7, .ofFields [("api_version", some (.ofNat 3))], .null, .null,
    .null, .null, .null, .array [.ofText "ERR_OK"]]

theorem inOrder_echoedValues : InOrder echoed.slots echoedValues := by
  have hello : Form (HelloRequest.slots { apiVersion := some 3 })
      (.ofFields [("api_version", some (.ofNat 3))]) := HelloRequest.form_toJson _
  have response : Form (GenericResponse.slots { code := some .ok }) (.array [.ofText "ERR_OK"]) :=
    .inOrder <| .next ⟨_, rfl, spells_ofText _⟩ <| .done (by simp [Optionally])
  exact .next ⟨_, rfl, spells_ofText _⟩ <| .next ⟨_, rfl, isWord_ofNat 7⟩ <|
    .next ⟨_, rfl, hello⟩ <| .next (Or.inr rfl) <| .next (Or.inr rfl) <| .next (Or.inr rfl) <|
    .next (Or.inr rfl) <| .next (Or.inr rfl) <| .next ⟨_, rfl, response⟩ <|
    .done (by simp [Optionally, echoed])

def pingOver (payload : Value) : Value :=
  .array ([.ofText "vdsm_send_ping", .null, .null, .null] ++ payload :: [])

theorem decode_positional_echoed :
    BodyCodec.json.decode (Value.array echoedValues).render = .ok echoed ∧
    BodyCodec.json.decode (Value.array []).render = .error .json ∧
    BodyCodec.json.decode (Value.array (List.replicate 12 .null)).render = .error .json ∧
    BodyCodec.json.decode (pingOver (.array [.null, .null])).render = .error .json := by
  obtain ⟨agree, empty, long, inner⟩ := decode_positional
  obtain ⟨body, -, read, -, -, positional⟩ := agree echoed (by simp [echoed])
  have version : Value.IsSpelled (.ofFields [("api_version", some (.ofNat 3))]) :=
    HelloRequest.isSpelled_toJson { apiVersion := some 3 }
  have compact : (Value.array echoedValues).IsText (Value.array echoedValues).render :=
    ⟨by simp [echoedValues, Value.IsSpelled, Value.AreSpelled, Value.isSpelled_ofText,
      Value.isSpelled_ofNat, version], Json.laid_spellings _⟩
  have nulls : (Value.array (List.replicate 12 .null)).IsText (Value.array _).render :=
    ⟨by simp [List.replicate, Value.IsSpelled, Value.AreSpelled], Json.laid_spellings _⟩
  have gap : Gap fields "vdsm_send_ping" pingOver := .placed _ _ rfl
  have pinged : (pingOver (.array [.null, .null])).IsText (pingOver _).render :=
    ⟨by simp [pingOver, Value.IsSpelled, Value.AreSpelled, Value.isSpelled_ofText],
      Json.laid_spellings _⟩
  refine ⟨?_, empty _ ⟨trivial, Json.laid_spellings _⟩, long _ _ (by decide) nulls,
    inner _ EntityRef.fields _ _ _ rfl gap (by decide) pinged⟩
  rw [positional _ _ inOrder_echoedValues compact, read]

end Message

end DeviceConnector
