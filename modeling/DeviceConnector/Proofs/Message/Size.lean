import DeviceConnector.Proofs.Json.Provenance
import DeviceConnector.Proofs.Message.RoundTrip
/-!
# The size of bodies

A body is longer than every text that the message takes from it. The other way round, the answers of
a host have nothing in them that could be arbitrarily long, so their bodies are short.
-/

namespace DeviceConnector

open Json (Value Token)

namespace Json.Value

theorem render_array (items : List Value) :
    (array items).render.length = (Token.spell (itemTokens items)).length + 2 := by
  simp [render, tokens, Token.spell, Token.spelling]

theorem render_object (members : List (Bytes × Value)) :
    (object members).render.length = (Token.spell (memberTokens members)).length + 2 := by
  simp [render, tokens, Token.spell, Token.spelling]

theorem length_render_item_le {items : List Value} {item : Value} (mem : item ∈ items) :
    item.render.length ≤ (Token.spell (itemTokens items)).length := by
  induction items with
  | nil => cases mem
  | cons first items ih =>
    obtain ⟨more, eq⟩ := itemTokens_cons first items
    rcases List.mem_cons.1 mem with rfl | mem
    · rw [eq]
      simp [Token.spell, render]
    · have rest := ih mem
      cases items with
      | nil => cases mem
      | cons next items =>
        rw [itemTokens_cons_cons]
        simp only [Token.spell, List.flatMap_append, List.flatMap_cons,
          List.length_append] at rest ⊢
        omega

theorem length_render_member_le {members : List (Bytes × Value)} {key : Bytes} {v : Value}
    (mem : (key, v) ∈ members) :
    v.render.length ≤ (Token.spell (memberTokens members)).length := by
  induction members with
  | nil => cases mem
  | cons first members ih =>
    obtain ⟨firstKey, firstValue⟩ := first
    rcases List.mem_cons.1 mem with same | mem
    · cases same
      cases members with
      | nil => simp [memberTokens, Token.spell, render]; omega
      | cons next members =>
        rw [memberTokens_cons_cons]
        simp [Token.spell, render]
        omega
    · have rest := ih mem
      cases members with
      | nil => cases mem
      | cons next members =>
        rw [memberTokens_cons_cons]
        simp only [Token.spell, List.flatMap_append, List.flatMap_cons,
          List.length_append] at rest ⊢
        omega

theorem mem_of_namedMembers? {members : List (Bytes × Value)} {named : List (String × Value)}
    {name : String} {v : Value} (read : namedMembers? members = some named)
    (mem : (name, v) ∈ named) : ∃ key, (key, v) ∈ members := by
  induction members generalizing named with
  | nil =>
    cases read
    cases mem
  | cons first members ih =>
    obtain ⟨text, others, -, later, rfl⟩ := namedMembers?_cons_eq_some_iff.1 read
    rcases List.mem_cons.1 mem with here | there
    · cases here
      exact ⟨first.1, List.mem_cons_self ..⟩
    · obtain ⟨key, mem⟩ := ih later there
      exact ⟨key, List.mem_cons_of_mem _ mem⟩

/-- A record is longer than each of its fields. -/
theorem length_render_field {v value : Value} {fields : List String} {name : String}
    {field : String → Option Value} (read : v.record? fields = some field)
    (given : field name = some value) : value.render.length + 2 ≤ v.render.length := by
  cases v with
  | array items =>
    obtain ⟨-, eq⟩ := Option.ite_none_right_eq_some.1 read
    rw [← Option.some.inj eq] at given
    obtain ⟨before, later, split, -⟩ := List.lookup_eq_some_iff.1 given
    have mem : (name, value) ∈ fields.zip items := by simp [split]
    have size := length_render_item_le (List.of_mem_zip mem).2
    rw [render_array]
    omega
  | object members =>
    obtain ⟨named, keys, -, rfl⟩ := record?_object_eq_some_iff.1 read
    obtain ⟨before, later, split, -⟩ := List.lookup_eq_some_iff.1 given
    have mem : (name, value) ∈ named := by simp [split]
    obtain ⟨key, own⟩ := mem_of_namedMembers? keys mem
    have size := length_render_member_le own
    rw [render_object]
    omega
  | null | bool | number | string => cases read

theorem length_render_of_text? {v : Value} {text : String} (read : v.text? = some text) :
    text.utf8ByteSize + 2 ≤ v.render.length := by
  unfold text? at read
  split at read
  · rename_i content
    have size := utf8ByteSize_le_of_toText? read
    simp [render, tokens, Token.spelling]
    omega
  · cases read

theorem given_of_optional {α : Type} {read : Value → Option α} {value : Option Value} {a : α}
    (taken : optional read value = some (some a)) : ∃ v, value = some v ∧ read v = some a := by
  unfold optional at taken
  split at taken
  · cases taken
  · cases taken
  · rename_i v _
    obtain ⟨b, taken, same⟩ := Option.map_eq_some_iff.1 taken
    cases same
    exact ⟨v, rfl, taken⟩

end Json.Value

structure Message.Found (m : Message) (field : String → Option Value) : Prop where
  type : ∃ v, field "type" = some v ∧ MessageType.ofJson? v = some m.type
  ping : Value.optional EntityRef.ofJson? (field "vdsm_send_ping") = some m.ping
  bye : Value.optional EntityRef.ofJson? (field "vdsm_send_bye") = some m.bye

namespace Message

variable {body : Bytes} {m : Message}

theorem found_of_ofJson? {value : Value} (read : ofJson? value = some m) :
    ∃ field, value.record? fields = some field ∧ m.Found field := by
  obtain ⟨field, record, taken⟩ := ofJson?_eq_some_iff.1 read
  exact ⟨field, record, Option.bind_eq_some_iff.1 taken.type, taken.ping, taken.bye⟩

theorem found_of_decode (read : decode body = .ok m) :
    ∃ (v : Value) (field : String → Option Value), v.render.length ≤ body.length ∧
      v.record? fields = some field ∧ m.Found field := by
  obtain ⟨-, taken⟩ := decode_eq_ok_iff.1 read
  obtain ⟨v, parsed, read⟩ := Option.bind_eq_some_iff.1 taken
  obtain ⟨field, record, found⟩ := found_of_ofJson? read
  exact ⟨v, field, (Value.render_sublist_of_parse? parsed).length_le, record, found⟩

end Message

theorem MessageType.tag_ofTag (tag : String) : (ofTag tag).tag = tag := by
  rcases ofTag_cases tag with ⟨-, kept⟩ | ⟨-, -, same⟩
  · rw [kept]
    rfl
  · exact same

namespace Message

variable {body : Bytes} {m : Message}

/-- A body has room for the tag of its type, within quotes and within the record. -/
theorem length_tag_le_of_decode (read : decode body = .ok m) :
    m.type.tag.utf8ByteSize + 4 ≤ body.length := by
  obtain ⟨v, field, within, record, ⟨typeValue, given, typed⟩, -, -⟩ := found_of_decode read
  obtain ⟨tag, text, same⟩ := Option.map_eq_some_iff.1 typed
  have inner := Value.length_render_field record given
  have letters := Value.length_render_of_text? text
  rw [← same, MessageType.tag_ofTag]
  omega

end Message

theorem EntityRef.length_le_of_ofJson? {ref : EntityRef} {v : Value} {text : String}
    (read : ofJson? v = some ref) (named : ref.dsuid = some text) :
    text.utf8ByteSize + 4 ≤ v.render.length := by
  unfold ofJson? at read
  obtain ⟨field, record, rest⟩ := Option.bind_eq_some_iff.1 read
  obtain ⟨dsuid, taken, same⟩ := Option.bind_eq_some_iff.1 rest
  cases same
  obtain rfl : dsuid = some text := named
  obtain ⟨value, given, texted⟩ := Value.given_of_optional taken
  have inner := Value.length_render_field record given
  have letters := Value.length_render_of_text? texted
  omega

theorem Text.byteLength_toList (text : String) :
    Text.byteLength text.toList = text.utf8ByteSize := by
  obtain ⟨cs, rfl⟩ : ∃ cs, text = String.ofList cs := ⟨text.toList, by simp⟩
  rw [String.toList_ofList, byteLength_eq_length]
  simp [String.utf8ByteSize, List.utf8Encode]

theorem Text.byteLength_le_of_sublist {cs longer : List Char} (part : cs.Sublist longer) :
    Text.byteLength cs ≤ Text.byteLength longer := by
  induction part with
  | slnil => exact Nat.le_refl _
  | cons c _ ih => exact Nat.le_trans ih (Nat.le_add_left ..)
  | cons_cons c _ ih => exact Nat.add_le_add_left ih _

theorem Text.trim_sublist (cs : List Char) : (Text.trim cs).Sublist cs := by
  have front := List.dropWhile_sublist (l := cs) Text.isBlank
  have back := List.dropWhile_sublist (l := (cs.dropWhile Text.isBlank).reverse) Text.isBlank
  rw [← List.reverse_sublist, List.reverse_reverse] at back
  exact back.trans front

/-- Every text of an identifier has at least 32 bytes. -/
theorem Dsuid.utf8ByteSize_of_parse? {text : String} {d : Dsuid} (read : parse? text = some d) :
    32 ≤ text.utf8ByteSize := by
  have whole := Text.byteLength_le_of_sublist (Text.trim_sublist text.toList)
  rw [Text.byteLength_toList] at whole
  simp only [parse?, parse, ofDigits] at read
  split at read
  · cases read
  · omega

namespace Message

variable {body : Bytes} {m : Message}

/-- A body that names an entity has room for the identifier. -/
theorem length_target_le_of_decode {target : Dsuid} (read : decode body = .ok m)
    (names : m.ping.bind EntityRef.target? = some target ∨
      m.bye.bind EntityRef.target? = some target) : 38 ≤ body.length := by
  obtain ⟨v, field, within, record, -, ping, bye⟩ := found_of_decode read
  have room {payload : Option EntityRef} {name : String}
      (taken : Value.optional EntityRef.ofJson? (field name) = some payload)
      (named : payload.bind EntityRef.target? = some target) : 38 ≤ body.length := by
    obtain ⟨ref, rfl, targeted⟩ := Option.bind_eq_some_iff.1 named
    obtain ⟨text, written, parsed⟩ := Option.bind_eq_some_iff.1 targeted
    obtain ⟨value, given, read⟩ := Value.given_of_optional taken
    have outer := Value.length_render_field record given
    have inner := EntityRef.length_le_of_ofJson? read written
    have digits := Dsuid.utf8ByteSize_of_parse? parsed
    omega
  rcases names with named | named
  · exact room ping named
  · exact room bye named

end Message

namespace Json

def Value.fieldRoom : String × Option Value → Nat
  | (_, none) => 0
  | (name, some v) => (Json.ofText name).length + v.render.length + 4

def Value.fieldsRoom : List (String × Option Value) → Nat
  | [] => 0
  | field :: fields => fieldRoom field + fieldsRoom fields

theorem Value.length_spell_members (key : Bytes) (v : Value)
    (fields : List (String × Option Value)) :
    (Token.spell (memberTokens ((key, v) ::
      fields.filterMap fun (name, value) => value.map (Json.ofText name, ·)))).length =
      key.length + v.render.length + 3 + fieldsRoom fields := by
  induction fields generalizing key v with
  | nil =>
    simp [memberTokens, Token.spell, Token.spelling, render, fieldsRoom]
    omega
  | cons field fields ih =>
    obtain ⟨name, _ | value⟩ := field
    · simpa [fieldsRoom, fieldRoom] using ih key v
    · have rest := ih (Json.ofText name) value
      simp only [List.filterMap_cons, Option.map_some, memberTokens_cons_cons]
      simp [Token.spell, Token.spelling, render, fieldsRoom, fieldRoom] at rest ⊢
      omega

/-- The size of a record that has its first field. -/
theorem Value.length_render_ofFields (name : String) (v : Value)
    (fields : List (String × Option Value)) :
    (ofFields ((name, some v) :: fields)).render.length =
      (Json.ofText name).length + v.render.length + 5 + fieldsRoom fields := by
  have members := length_spell_members (Json.ofText name) v fields
  have record : (ofFields ((name, some v) :: fields)).render.length = _ := render_object _
  rw [record]
  simp only [List.filterMap_cons, Option.map_some, members]
  omega

theorem Value.length_render_ofText (text : String) :
    (Value.ofText text).render.length = (Json.ofText text).length + 2 := by
  simp [Value.ofText, render, tokens, Token.spelling]

theorem length_decimal_le (digits : Nat) {n : Nat} (positive : 0 < digits)
    (bound : n < 10 ^ digits) : (decimal n).length ≤ digits := by
  rw [decimal, List.length_map]
  exact (Nat.length_toDigits_le_iff (by decide) positive).2 bound

end Json

theorem Text.length_escape_upperDigit : ∀ d < 16,
    (Json.escape (String.utf8EncodeChar (Text.upperDigit d))).length = 1 := by
  decide

theorem Dsuid.length_ofText_text (d : Dsuid) : (Json.ofText d.text).length = 34 := by
  have single (digits : List Char) (upper : ∀ c ∈ digits, ∃ n < 16, c = Text.upperDigit n) :
      (Json.escape (digits.flatMap String.utf8EncodeChar)).length = digits.length := by
    induction digits with
    | nil => rfl
    | cons c digits ih =>
      obtain ⟨n, small, rfl⟩ := upper c (List.mem_cons_self ..)
      have rest := ih fun c mem => upper c (List.mem_cons_of_mem _ mem)
      have first := Text.length_escape_upperDigit n small
      simp only [Json.escape, List.flatMap_cons, List.flatMap_append, List.length_append,
        List.length_cons] at first rest ⊢
      omega
  have bytes : d.text.toUTF8.data.toList = d.digits.flatMap String.utf8EncodeChar := by
    simp [text, List.utf8Encode]
  rw [Json.ofText, bytes, single d.digits fun c mem => mem_digits mem, length_digits]

theorem EntityRef.length_ofDsuid (d : Dsuid) : (EntityRef.ofDsuid d).toJson.render.length = 46 := by
  have name : (Json.ofText "dSUID").length = 5 := rfl
  have record := Value.length_render_ofFields "dSUID" (.ofText d.text) []
  rw [Value.length_render_ofText, d.length_ofText_text, name] at record
  exact record

theorem GenericResponse.length_ofCode_le (code : ResultCode) :
    (GenericResponse.ofCode code).toJson.render.length ≤ 85 := by
  have names : (Json.ofText "code").length = 4 ∧ (Json.ofText "description").length = 11 :=
    ⟨rfl, rfl⟩
  have texts : (Json.ofText code.name).length + (Json.ofText code.description).length ≤ 57 := by
    cases code <;> decide
  have record := Value.length_render_ofFields "code" code.toJson
    [("description", some (.ofText code.description))]
  rw [ResultCode.toJson, Value.length_render_ofText, names.1] at record
  simp only [Value.fieldsRoom, Value.fieldRoom, Value.length_render_ofText, names.2] at record
  have eq : (GenericResponse.ofCode code).toJson.render.length = _ := record
  omega

namespace Message

/-- The size of a body, apart from the braces and the type. -/
theorem length_encode (m : Message) :
    m.encode.length = (Json.ofText m.type.tag).length + 11 +
      Value.fieldsRoom [("message_id", m.id.map fun n => .ofNat n.toNat),
        ("vdsm_request_hello", m.helloRequest.map HelloRequest.toJson),
        ("vdc_response_hello", m.helloResponse.map EntityRef.toJson),
        ("vdsm_send_ping", m.ping.map EntityRef.toJson),
        ("vdc_send_pong", m.pong.map EntityRef.toJson),
        ("vdsm_send_bye", m.bye.map EntityRef.toJson),
        ("vdsm_send_remove", m.remove.map EntityRef.toJson),
        ("generic_response", m.response.map GenericResponse.toJson),
        ("vdc_send_announce_vdc", m.announce.map EntityRef.toJson),
        ("vdc_send_vanish", m.vanish.map EntityRef.toJson)] := by
  have name : (Json.ofText "type").length = 4 := rfl
  have record := Value.length_render_ofFields "type" m.type.toJson
  rw [MessageType.toJson, Value.length_render_ofText, name] at record
  rw [encode, toJson, MessageType.toJson, record]
  omega

theorem idRoom_le (id : Option MessageId) :
    Value.fieldRoom ("message_id", id.map fun n => .ofNat n.toNat) ≤ 24 := by
  cases id with
  | none => exact Nat.zero_le _
  | some id =>
    have bound := id.toNat_lt
    have number := Json.length_decimal_le 10 (by decide) (show id.toNat < 10 ^ 10 by omega)
    have name : (Json.ofText "message_id").length = 10 := rfl
    have literal : (Value.ofNat id.toNat).render = Json.decimal id.toNat := by
      simp [Value.ofNat, Value.render, Value.tokens, Json.Token.spelling, Json.decimal]
    rw [Option.map_some, Value.fieldRoom, name, literal]
    omega

/-- An announcement is at most 127 bytes long. -/
theorem length_encode_announceOf (vdc : Dsuid) (id : MessageId) :
    (announceOf vdc id).encode.length ≤ 127 := by
  have room := idRoom_le (some id)
  have tag : (Json.ofText (announceOf vdc id).type.tag).length = 21 := rfl
  have name : (Json.ofText "vdc_send_announce_vdc").length = 21 := rfl
  rw [length_encode, tag]
  simp [announceOf, Value.fieldsRoom, Value.fieldRoom, name, EntityRef.length_ofDsuid] at room ⊢
  omega

theorem length_encode_ofCode (code : ResultCode) (id : Option MessageId) :
    (ofCode code id).encode.length ≤ 156 := by
  have room := idRoom_le id
  have payload := GenericResponse.length_ofCode_le code
  have tag : (Json.ofText (ofCode code id).type.tag).length = 16 := rfl
  have name : (Json.ofText "generic_response").length = 16 := rfl
  rw [length_encode, tag]
  simp [ofCode, Value.fieldsRoom, Value.fieldRoom, name] at room ⊢
  omega

theorem length_encode_welcome (host : Dsuid) (id : Option MessageId) :
    (welcome host id).encode.length ≤ 121 := by
  have room := idRoom_le id
  have tag : (Json.ofText (welcome host id).type.tag).length = 18 := rfl
  have name : (Json.ofText "vdc_response_hello").length = 18 := rfl
  rw [length_encode, tag]
  simp [welcome, Value.fieldsRoom, Value.fieldRoom, name, EntityRef.length_ofDsuid] at room ⊢
  omega

theorem length_encode_pongOf (entity : Dsuid) : (pongOf entity).encode.length = 87 := by
  have tag : (Json.ofText (pongOf entity).type.tag).length = 13 := rfl
  have name : (Json.ofText "vdc_send_pong").length = 13 := rfl
  rw [length_encode, tag]
  simp [pongOf, Value.fieldsRoom, Value.fieldRoom, name, EntityRef.length_ofDsuid]

end Message

end DeviceConnector
