import DeviceConnector.Proofs.Identifier.Text
import DeviceConnector.Proofs.Json.Record
import DeviceConnector.Proofs.Json.Scalar
import DeviceConnector.Proofs.Message.Fields
/-!
# Message bodies come back

The body of a message is read as that message, with its type taken from its tag: a type outside the
table that bears the tag of a known one is read as the known one. A message that has been read from
any body at all comes back as it is.
-/

namespace DeviceConnector

open Json (Value)

namespace Json.Value

def present (fields : List (String × Option Value)) : List (String × Value) :=
  fields.filterMap fun (name, value) => value.map (name, ·)

theorem namedMembers?_ofFields (fields : List (String × Option Value)) :
    namedMembers? (fields.filterMap fun (name, value) => value.map (Json.ofText name, ·)) =
      some (present fields) := by
  unfold namedMembers? present
  induction fields with
  | nil => rfl
  | cons field fields ih =>
    obtain ⟨name, _ | value⟩ := field
    · simpa using ih
    · simp [toText?_ofText, ih]

theorem keys_present (fields : List (String × Option Value)) :
    ((present fields).map (·.1)).Sublist (fields.map (·.1)) := by
  induction fields with
  | nil => exact .slnil
  | cons field fields ih =>
    obtain ⟨name, _ | value⟩ := field
    · exact ih.cons name
    · exact ih.cons_cons name

/-- If no two fields have the same name, each is found under its own. -/
theorem lookup_present {fields : List (String × Option Value)}
    (distinct : (fields.map (·.1)).Nodup) (name : String) :
    (present fields).lookup name = (fields.lookup name).join := by
  induction fields with
  | nil => rfl
  | cons field fields ih =>
    obtain ⟨first, value⟩ := field
    rw [List.map_cons, List.nodup_cons] at distinct
    have later := ih distinct.2
    by_cases same : name = first
    · subst same
      cases value with
      | some value => simp [present]
      | none =>
        have absent : (present fields).lookup name = none := by
          rw [List.lookup_eq_none_iff]
          intro p mem
          have key := (keys_present fields).subset (List.mem_map_of_mem mem)
          simpa using fun eq : name = p.1 => distinct.1 (eq ▸ key)
        simpa [present] using absent
    · have other : (name == first) = false := by simpa using same
      cases value with
      | some value => simpa [present, List.lookup_cons, other] using later
      | none => simpa [present, List.lookup_cons, other] using later

theorem countP_present {fields : List (String × Option Value)}
    (distinct : (fields.map (·.1)).Nodup) (name : String) :
    (present fields).countP (·.1 == name) ≤ 1 := by
  have counted := List.nodup_iff_count.1 (distinct.sublist (keys_present fields)) name
  rwa [List.count, List.countP_map] at counted

theorem record?_ofFields (fields : List (String × Option Value)) (names : List String)
    (distinct : (fields.map (·.1)).Nodup) :
    (ofFields fields).record? names = some fun name => (fields.lookup name).join := by
  refine record?_object_eq_some_iff.2 ⟨present fields, namedMembers?_ofFields fields, ?_, ?_⟩
  · intro name _
    exact countP_present distinct name
  · funext name
    exact (lookup_present distinct name).symm

theorem optional_some {α : Type} (read : Value → Option α) {value : Value}
    (given : value ≠ .null) : optional read (some value) = (read value).map some := by
  cases value with
  | null => exact absurd rfl given
  | bool | number | string | array | object => rfl

theorem optional_map {α : Type} {read : Value → Option α} {write : α → Value}
    (reads : ∀ a, read (write a) = some a) (given : ∀ a, write a ≠ .null) (a : Option α) :
    optional read (a.map write) = some a := by
  cases a with
  | none => rfl
  | some a => rw [Option.map_some, optional_some read (given a), reads, Option.map_some]

theorem isSpelled_ofFields {fields : List (String × Option Value)}
    (spelled : ∀ field ∈ fields, ∀ value, field.2 = some value → value.IsSpelled) :
    (ofFields fields).IsSpelled := by
  unfold ofFields
  change MembersAreSpelled _
  induction fields with
  | nil => trivial
  | cons field fields ih =>
    obtain ⟨name, _ | value⟩ := field
    · exact ih fun field mem => spelled field (List.mem_cons_of_mem _ mem)
    · refine ⟨isContent_escape _, spelled _ (List.mem_cons_self ..) value rfl, ?_⟩
      exact ih fun field mem => spelled field (List.mem_cons_of_mem _ mem)

end Json.Value

theorem ResultCode.ofJson?_toJson (code : ResultCode) : ofJson? code.toJson = some code := by
  have named : ofName? code.name = some code := by cases code <;> rfl
  have text : Json.toText? (Json.ofText code.name) = some code.name := Json.toText?_ofText _
  simp only [toJson, Value.ofText, ofJson?, text, Option.bind_some, named]

theorem MessageType.ofJson?_toJson (type : MessageType) :
    ofJson? type.toJson = some (.ofTag type.tag) := by
  simp only [toJson, ofJson?, Value.text?_ofText, Option.map_some]

theorem EntityRef.ofJson?_toJson (ref : EntityRef) : ofJson? ref.toJson = some ref := by
  have dsuid := Value.optional_map Value.text?_ofText (by simp [Value.ofText]) ref.dsuid
  have field := Value.record?_ofFields [("dSUID", ref.dsuid.map .ofText)] fields (by simp)
  simp only [toJson, ofJson?, field]
  simp [dsuid]

theorem HelloRequest.ofJson?_toJson (request : HelloRequest) :
    ofJson? request.toJson = some request := by
  have dsuid := Value.optional_map Value.text?_ofText (by simp [Value.ofText]) request.dsuid
  have version := Value.optional_map Value.word?_ofNat (by simp [Value.ofNat]) request.apiVersion
  have field := Value.record?_ofFields [("dSUID", request.dsuid.map .ofText),
    ("api_version", request.apiVersion.map fun n => .ofNat n.toNat)] fields (by simp)
  simp only [toJson, ofJson?, field]
  simp [List.lookup_cons, dsuid, version]

theorem GenericResponse.ofJson?_toJson (response : GenericResponse) :
    ofJson? response.toJson = some response := by
  have code := Value.optional_map ResultCode.ofJson?_toJson
    (by simp [ResultCode.toJson, Value.ofText]) response.code
  have description := Value.optional_map Value.text?_ofText (by simp [Value.ofText])
    response.description
  have field := Value.record?_ofFields [("code", response.code.map ResultCode.toJson),
    ("description", response.description.map .ofText)] fields (by simp)
  simp only [toJson, ofJson?, field]
  simp [List.lookup_cons, code, description]

theorem EntityRef.isSpelled_toJson (ref : EntityRef) : ref.toJson.IsSpelled := by
  apply Value.isSpelled_ofFields
  simp [Value.isSpelled_ofText]

theorem HelloRequest.isSpelled_toJson (request : HelloRequest) : request.toJson.IsSpelled := by
  apply Value.isSpelled_ofFields
  simp [Value.isSpelled_ofText, Value.isSpelled_ofNat]

theorem GenericResponse.isSpelled_toJson (response : GenericResponse) :
    response.toJson.IsSpelled := by
  apply Value.isSpelled_ofFields
  simp [Value.isSpelled_ofText, ResultCode.toJson]

namespace Message

theorem ofJson?_toJson (m : Message) :
    ofJson? m.toJson = some { m with type := .ofTag m.type.tag } := by
  have entity (ref : Option EntityRef) :
      Value.optional EntityRef.ofJson? (ref.map EntityRef.toJson) = some ref :=
    Value.optional_map EntityRef.ofJson?_toJson (by simp [EntityRef.toJson, Value.ofFields]) ref
  have id := Value.optional_map Value.word?_ofNat (by simp [Value.ofNat]) m.id
  have hello := Value.optional_map HelloRequest.ofJson?_toJson
    (by simp [HelloRequest.toJson, Value.ofFields]) m.helloRequest
  have response := Value.optional_map GenericResponse.ofJson?_toJson
    (by simp [GenericResponse.toJson, Value.ofFields]) m.response
  have field : m.toJson.record? fields = _ := Value.record?_ofFields _ fields (by simp)
  simp only [ofJson?, field]
  simp [List.lookup_cons, MessageType.ofJson?_toJson, id, hello, response, entity]

theorem isSpelled_toJson (m : Message) : m.toJson.IsSpelled := by
  apply Value.isSpelled_ofFields
  simp [MessageType.toJson, Value.isSpelled_ofText, Value.isSpelled_ofNat,
    EntityRef.isSpelled_toJson, HelloRequest.isSpelled_toJson, GenericResponse.isSpelled_toJson]

theorem encode_ne_nil (m : Message) : m.encode ≠ [] := by
  simp [encode, toJson, Value.ofFields, Value.render, Value.tokens, Json.Token.spelling]

theorem decode_encode (m : Message) :
    decode m.encode = .ok { m with type := .ofTag m.type.tag } := by
  have nonempty : m.encode.isEmpty = false := by simp [encode_ne_nil]
  have parsed : Value.parse? m.encode = some m.toJson := Value.parse?_render (isSpelled_toJson m)
  rw [decode, nonempty, parsed, Option.bind_some, ofJson?_toJson]
  rfl

theorem ofTag_tag {type : MessageType} (known : type.isKnown = true) :
    MessageType.ofTag type.tag = type := by
  cases type <;> first | rfl | cases known

theorem decode_encode_of_known {m : Message} (known : m.type.isKnown = true) :
    decode m.encode = .ok m := by
  rw [decode_encode, ofTag_tag known]

end Message

namespace MessageType

theorem tag_of_mem_table : ∀ entry ∈ table, entry.1.tag = entry.2 ∧ entry.1.isKnown = true := by
  decide

/-- A tag outside the table is kept, and one in the table is read as the type that it names. -/
theorem ofTag_cases (tag : String) :
    (tag ∉ table.map (·.2) ∧ ofTag tag = unknown tag) ∨
    (tag ∈ table.map (·.2) ∧ (ofTag tag).isKnown = true ∧ (ofTag tag).tag = tag) := by
  unfold ofTag
  cases found : table.find? (·.2 == tag) with
  | none =>
    left
    refine ⟨?_, rfl⟩
    intro listed
    obtain ⟨entry, mem, same⟩ := List.mem_map.1 listed
    exact List.find?_eq_none.1 found entry mem (by simpa using same)
  | some entry =>
    right
    obtain ⟨type, name⟩ := entry
    have mem := List.mem_of_find?_eq_some found
    have same : name = tag := by simpa using List.find?_some found
    obtain ⟨own, known⟩ := tag_of_mem_table (type, name) mem
    exact ⟨List.mem_map.2 ⟨(type, name), mem, same⟩, known, own.trans same⟩

/-- A type is read back from its tag unless it is an unknown one that bears a known tag. -/
theorem ofTag_tag_iff (type : MessageType) :
    ofTag type.tag = type ↔ ∀ tag, type = unknown tag → tag ∉ table.map (·.2) := by
  constructor
  · rintro back tag rfl listed
    rcases ofTag_cases tag with ⟨unlisted, -⟩ | ⟨-, known, -⟩
    · exact unlisted listed
    · have kept : ofTag tag = unknown tag := back
      rw [kept] at known
      cases known
  · intro unlisted
    cases type with
    | unknown tag =>
      rcases ofTag_cases tag with ⟨-, kept⟩ | ⟨listed, -, -⟩
      · exact kept
      · exact absurd listed (unlisted tag rfl)
    | _ => rfl

/-- Reading a tag, writing it and reading it again gives nothing new. -/
theorem ofTag_tag_ofTag (tag : String) : ofTag (ofTag tag).tag = ofTag tag := by
  rcases ofTag_cases tag with ⟨-, kept⟩ | ⟨-, -, same⟩
  · rw [kept]
    exact kept
  · rw [same]

end MessageType

namespace Message

theorem type_of_ofJson? {value : Value} {m : Message} (read : ofJson? value = some m) :
    ∃ tag, m.type = .ofTag tag := by
  obtain ⟨field, -, taken⟩ := ofJson?_eq_some_iff.1 read
  obtain ⟨tagged, -, typed⟩ := Option.bind_eq_some_iff.1 taken.type
  obtain ⟨tag, -, same⟩ := Option.map_eq_some_iff.1 typed
  exact ⟨tag, same.symm⟩

theorem type_of_decode {body : Bytes} {m : Message} (read : decode body = .ok m) :
    MessageType.ofTag m.type.tag = m.type := by
  obtain ⟨-, taken⟩ := decode_eq_ok_iff.1 read
  obtain ⟨value, -, taken⟩ := Option.bind_eq_some_iff.1 taken
  obtain ⟨tag, eq⟩ := type_of_ofJson? taken
  rw [eq]
  exact MessageType.ofTag_tag_ofTag tag

/-- Every message has a body, which is read as the message with its type taken from its tag. That is
the message itself unless its type is an unknown one with a known tag, and it is the message itself
whenever the message has been read from a body. -/
theorem json_round_trip (m : Message) :
    (∃ body, BodyCodec.json.encode m = .ok body ∧ body ≠ [] ∧
      BodyCodec.json.decode body = .ok { m with type := .ofTag m.type.tag }) ∧
    ({ m with type := .ofTag m.type.tag } = m ↔
      ∀ tag, m.type = .unknown tag → tag ∉ MessageType.table.map (·.2)) ∧
    ∀ body, BodyCodec.json.decode body = .ok m →
      ∃ again, BodyCodec.json.encode m = .ok again ∧ BodyCodec.json.decode again = .ok m := by
  refine ⟨⟨m.encode, rfl, encode_ne_nil m, decode_encode m⟩, ?_, ?_⟩
  · rw [← MessageType.ofTag_tag_iff]
    constructor
    · intro same
      exact congrArg Message.type same
    · intro back
      rw [back]
  · intro body read
    have back := type_of_decode read
    have again := decode_encode m
    rw [back] at again
    exact ⟨m.encode, rfl, again⟩

def spelledOut : Bytes :=
  "[ \"t\\u00fcr\", 7, null, null, null, [\"\\ud83d\\ude00\\t\"] ]".toUTF8.data.toList

theorem json_round_trip_spelled_out :
    BodyCodec.json.decode spelledOut =
      .ok { type := .unknown "tür", id := some 7, pong := some ⟨some "😀\t"⟩ } ∧
    ∃ again, again ≠ spelledOut ∧ BodyCodec.json.decode again =
      .ok { type := .unknown "tür", id := some 7, pong := some ⟨some "😀\t"⟩ } := by
  have read : BodyCodec.json.decode spelledOut =
      .ok { type := .unknown "tür", id := some 7, pong := some ⟨some "😀\t"⟩ } := by rfl
  obtain ⟨-, -, reread⟩ := json_round_trip
    { type := .unknown "tür", id := some 7, pong := some ⟨some "😀\t"⟩ }
  obtain ⟨again, encoded, back⟩ := reread spelledOut read
  refine ⟨read, again, ?_, back⟩
  cases encoded
  decide +kernel

end Message

end DeviceConnector
