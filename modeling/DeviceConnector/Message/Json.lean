import DeviceConnector.Json.Record
import DeviceConnector.Message.Basic
/-!
# Message bodies

The JSON body of a message: the fields that are present, in the order of declaration, without
blanks. A body is read in either form of a record, so writing and reading give a message back, with
its type taken from its tag.
-/

namespace DeviceConnector

open Json (Value)

inductive BodyError where
  | empty
  | json
  deriving DecidableEq, Repr

namespace BodyError

def message : BodyError → String
  | empty => "empty message body"
  | json => "json error"

end BodyError

namespace ResultCode

def toJson (code : ResultCode) : Value := .ofText code.name

/-- A name, or an object with the name as its one key and null as the value. -/
def ofJson? : Value → Option ResultCode
  | .string content => (Json.toText? content).bind ofName?
  | .object [(key, .null)] => (Json.toText? key).bind ofName?
  | _ => none

end ResultCode

namespace MessageType

def toJson (type : MessageType) : Value := .ofText type.tag

def ofJson? (value : Value) : Option MessageType := value.text?.map ofTag

end MessageType

namespace EntityRef

def fields : List String := ["dSUID"]

def toJson (ref : EntityRef) : Value := .ofFields [("dSUID", ref.dsuid.map .ofText)]

def ofJson? (value : Value) : Option EntityRef := do
  let field ← value.record? fields
  return { dsuid := ← Value.optional Value.text? (field "dSUID") }

end EntityRef

namespace HelloRequest

def fields : List String := ["dSUID", "api_version"]

def toJson (request : HelloRequest) : Value :=
  .ofFields [("dSUID", request.dsuid.map .ofText),
    ("api_version", request.apiVersion.map fun n => .ofNat n.toNat)]

def ofJson? (value : Value) : Option HelloRequest := do
  let field ← value.record? fields
  return {
    dsuid := ← Value.optional Value.text? (field "dSUID")
    apiVersion := ← Value.optional Value.word? (field "api_version") }

end HelloRequest

namespace GenericResponse

def fields : List String := ["code", "description"]

def toJson (response : GenericResponse) : Value :=
  .ofFields [("code", response.code.map ResultCode.toJson),
    ("description", response.description.map .ofText)]

def ofJson? (value : Value) : Option GenericResponse := do
  let field ← value.record? fields
  return {
    code := ← Value.optional ResultCode.ofJson? (field "code")
    description := ← Value.optional Value.text? (field "description") }

end GenericResponse

namespace Message

def fields : List String :=
  ["type", "message_id", "vdsm_request_hello", "vdc_response_hello", "vdsm_send_ping",
    "vdc_send_pong", "vdsm_send_bye", "vdsm_send_remove", "generic_response",
    "vdc_send_announce_vdc", "vdc_send_vanish"]

def toJson (m : Message) : Value :=
  .ofFields [("type", some m.type.toJson),
    ("message_id", m.id.map fun n => .ofNat n.toNat),
    ("vdsm_request_hello", m.helloRequest.map HelloRequest.toJson),
    ("vdc_response_hello", m.helloResponse.map EntityRef.toJson),
    ("vdsm_send_ping", m.ping.map EntityRef.toJson),
    ("vdc_send_pong", m.pong.map EntityRef.toJson),
    ("vdsm_send_bye", m.bye.map EntityRef.toJson),
    ("vdsm_send_remove", m.remove.map EntityRef.toJson),
    ("generic_response", m.response.map GenericResponse.toJson),
    ("vdc_send_announce_vdc", m.announce.map EntityRef.toJson),
    ("vdc_send_vanish", m.vanish.map EntityRef.toJson)]

def ofJson? (value : Value) : Option Message := do
  let field ← value.record? fields
  let entity (name : String) := Value.optional EntityRef.ofJson? (field name)
  return {
    type := ← (field "type").bind MessageType.ofJson?
    id := ← Value.optional Value.word? (field "message_id")
    helloRequest := ← Value.optional HelloRequest.ofJson? (field "vdsm_request_hello")
    helloResponse := ← entity "vdc_response_hello"
    ping := ← entity "vdsm_send_ping"
    pong := ← entity "vdc_send_pong"
    bye := ← entity "vdsm_send_bye"
    remove := ← entity "vdsm_send_remove"
    response := ← Value.optional GenericResponse.ofJson? (field "generic_response")
    announce := ← entity "vdc_send_announce_vdc"
    vanish := ← entity "vdc_send_vanish" }

def encode (m : Message) : Bytes := m.toJson.render

def decode (body : Bytes) : Except BodyError Message :=
  if body.isEmpty then .error .empty
  else
    match (Value.parse? body).bind ofJson? with
    | some m => .ok m
    | none => .error .json

end Message

structure BodyCodec where
  encode : Message → Except BodyError Bytes
  decode : Bytes → Except BodyError Message

namespace BodyCodec

def json : BodyCodec := ⟨fun m => .ok m.encode, Message.decode⟩

end BodyCodec

end DeviceConnector
