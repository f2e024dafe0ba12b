import DeviceConnector.Message.Json
/-!
# The fields of a message

A message is read from a record field by field: each part of it comes from the one field of its
name.
-/

namespace DeviceConnector

open Json (Value)

structure Message.TakenFrom (field : String → Option Value) (m : Message) : Prop where
  type : (field "type").bind MessageType.ofJson? = some m.type
  id : Value.optional Value.word? (field "message_id") = some m.id
  helloRequest :
    Value.optional HelloRequest.ofJson? (field "vdsm_request_hello") = some m.helloRequest
  helloResponse :
    Value.optional EntityRef.ofJson? (field "vdc_response_hello") = some m.helloResponse
  ping : Value.optional EntityRef.ofJson? (field "vdsm_send_ping") = some m.ping
  pong : Value.optional EntityRef.ofJson? (field "vdc_send_pong") = some m.pong
  bye : Value.optional EntityRef.ofJson? (field "vdsm_send_bye") = some m.bye
  remove : Value.optional EntityRef.ofJson? (field "vdsm_send_remove") = some m.remove
  response : Value.optional GenericResponse.ofJson? (field "generic_response") = some m.response
  announce : Value.optional EntityRef.ofJson? (field "vdc_send_announce_vdc") = some m.announce
  vanish : Value.optional EntityRef.ofJson? (field "vdc_send_vanish") = some m.vanish

namespace Message

variable {value : Value} {m : Message} {body : Bytes}

theorem ofJson?_eq_some_iff :
    ofJson? value = some m ↔ ∃ field, value.record? fields = some field ∧ TakenFrom field m := by
  simp only [ofJson?, Option.bind_eq_bind, Option.bind_eq_some_iff]
  constructor
  · rintro ⟨field, record, type, typed, id, numbered, hello, hello', welcome, welcome', ping, ping',
      pong, pong', bye, bye', remove, remove', response, response', announce, announce', vanish,
      vanish', same⟩
    cases same
    exact ⟨field, record, Option.bind_eq_some_iff.2 typed, numbered, hello', welcome', ping', pong',
      bye', remove', response', announce', vanish'⟩
  · rintro ⟨field, record, taken⟩
    exact ⟨field, record, m.type, Option.bind_eq_some_iff.1 taken.type, m.id, taken.id, _,
      taken.helloRequest, _, taken.helloResponse, _, taken.ping, _, taken.pong, _, taken.bye, _,
      taken.remove, _, taken.response, _, taken.announce, _, taken.vanish, rfl⟩

theorem decode_eq_ok_iff :
    decode body = .ok m ↔ body ≠ [] ∧ (Value.parse? body).bind ofJson? = some m := by
  unfold decode
  cases body with
  | nil => simp
  | cons b body => cases (Value.parse? (b :: body)).bind ofJson? <;> simp

end Message

end DeviceConnector
