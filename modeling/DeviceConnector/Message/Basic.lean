import DeviceConnector.Identifier.Text
/-!
# Messages

A message has a type, perhaps an id, and nine optional payloads, of which it is expected to carry
the one that belongs to its type. Types outside the table of known ones are kept by their tag.
-/

namespace DeviceConnector

abbrev MessageId := UInt32

/-- What a message is about. The names follow the tags on the wire. -/
inductive MessageType where
  | requestHello
  | responseHello
  | ping
  | pong
  | bye
  | remove
  | genericResponse
  | announceVdc
  | vanish
  | requestGetProperty
  | requestSetProperty
  | requestGeneric
  | unknown (tag : String)
  deriving DecidableEq, Repr

namespace MessageType

def table : List (MessageType × String) :=
  [(requestHello, "vdsm_request_hello"), (responseHello, "vdc_response_hello"),
    (ping, "vdsm_send_ping"), (pong, "vdc_send_pong"), (bye, "vdsm_send_bye"),
    (remove, "vdsm_send_remove"), (genericResponse, "generic_response"),
    (announceVdc, "vdc_send_announce_vdc"), (vanish, "vdc_send_vanish"),
    (requestGetProperty, "vdsm_request_get_property"),
    (requestSetProperty, "vdsm_request_set_property"),
    (requestGeneric, "vdsm_request_generic_request")]

def tag : MessageType → String
  | unknown tag => tag
  | type => (table.lookup type).getD ""

def ofTag (tag : String) : MessageType :=
  match table.find? (·.2 == tag) with
  | some (type, _) => type
  | none => unknown tag

def isKnown : MessageType → Bool
  | unknown _ => false
  | _ => true

end MessageType

inductive ResultCode where
  | ok
  | messageUnknown
  | incompatibleApi
  | serviceNotAvailable
  | insufficientStorage
  | forbidden
  | notImplemented
  | noContentForArray
  | invalidValueType
  | missingSubmessage
  | missingData
  | notFound
  | notAuthorized
  deriving DecidableEq, Repr

namespace ResultCode

def table : List (ResultCode × String × String) :=
  [(ok, "ERR_OK", "OK"),
    (messageUnknown, "ERR_MESSAGE_UNKNOWN", "Unknown message type"),
    (incompatibleApi, "ERR_INCOMPATIBLE_API", "Incompatible or not given API version"),
    (serviceNotAvailable, "ERR_SERVICE_NOT_AVAILABLE", "Service not available"),
    (insufficientStorage, "ERR_INSUFFICIENT_STORAGE", "Insufficient storage"),
    (forbidden, "ERR_FORBIDDEN", "Forbidden"),
    (notImplemented, "ERR_NOT_IMPLEMENTED", "Not implemented"),
    (noContentForArray, "ERR_NO_CONTENT_FOR_ARRAY", "No content for array"),
    (invalidValueType, "ERR_INVALID_VALUE_TYPE", "Invalid or unexpected value type"),
    (missingSubmessage, "ERR_MISSING_SUBMESSAGE", "Missing protocol submessage"),
    (missingData, "ERR_MISSING_DATA", "Missing data / empty message"),
    (notFound, "ERR_NOT_FOUND", "Requested entity was not found"),
    (notAuthorized, "ERR_NOT_AUTHORIZED", "Not authorized")]

def name (code : ResultCode) : String := ((table.lookup code).map (·.1)).getD ""

def description (code : ResultCode) : String := ((table.lookup code).map (·.2)).getD ""

def ofName? (name : String) : Option ResultCode := (table.find? (·.2.1 == name)).map (·.1)

end ResultCode

structure HelloRequest where
  dsuid : Option String := none
  apiVersion : Option UInt32 := none
  deriving DecidableEq, Repr, Inhabited

structure EntityRef where
  dsuid : Option String := none
  deriving DecidableEq, Repr, Inhabited

namespace EntityRef

def ofDsuid (dsuid : Dsuid) : EntityRef := ⟨some dsuid.text⟩

def target? (ref : EntityRef) : Option Dsuid := ref.dsuid.bind Dsuid.parse?

end EntityRef

structure GenericResponse where
  code : Option ResultCode := none
  description : Option String := none
  deriving DecidableEq, Repr, Inhabited

namespace GenericResponse

def ofCode (code : ResultCode) : GenericResponse := ⟨some code, some code.description⟩

def isOk (response : GenericResponse) : Bool := response.code == some .ok

end GenericResponse

structure Message where
  type : MessageType
  id : Option MessageId := none
  helloRequest : Option HelloRequest := none
  helloResponse : Option EntityRef := none
  ping : Option EntityRef := none
  pong : Option EntityRef := none
  bye : Option EntityRef := none
  remove : Option EntityRef := none
  response : Option GenericResponse := none
  announce : Option EntityRef := none
  vanish : Option EntityRef := none
  deriving DecidableEq, Repr

namespace Message

def bare (type : MessageType) (id : Option MessageId := none) : Message := { type, id }

def ofCode (code : ResultCode) (id : Option MessageId) : Message :=
  { type := .genericResponse, id, response := some (.ofCode code) }

def welcome (host : Dsuid) (id : Option MessageId) : Message :=
  { type := .responseHello, id, helloResponse := some (.ofDsuid host) }

def pongOf (entity : Dsuid) : Message :=
  { type := .pong, pong := some (.ofDsuid entity) }

def announceOf (vdc : Dsuid) (id : MessageId) : Message :=
  { type := .announceVdc, id := some id, announce := some (.ofDsuid vdc) }

def vanishOf (entity : Dsuid) : Message :=
  { type := .vanish, vanish := some (.ofDsuid entity) }

def helloOf (peer : Dsuid) (apiVersion : UInt32) (id : MessageId) : Message :=
  { type := .requestHello, id := some id,
    helloRequest := some { dsuid := some peer.text, apiVersion := some apiVersion } }

def pingOf (target : Dsuid) : Message :=
  { type := .ping, ping := some (.ofDsuid target) }

def byeOf (peer : Dsuid) (id : Option MessageId) : Message :=
  { type := .bye, id, bye := some (.ofDsuid peer) }

def removeOf (target : Dsuid) (id : Option MessageId) : Message :=
  { type := .remove, id, remove := some (.ofDsuid target) }

/-- The id, unless it is zero, which never names a request. -/
def requestId? (m : Message) : Option MessageId := m.id.filter (· ≠ 0)

def names (payload : Option EntityRef) : Bool := payload.any (·.dsuid.isSome)

/-- The message carries what its type requires. A hello and an announcement are answered, so they
need an id as well; types without a payload are never complete. -/
def isComplete (m : Message) : Bool :=
  match m.type with
  | .requestHello =>
    m.requestId?.isSome && m.helloRequest.any fun p => p.dsuid.isSome && p.apiVersion.isSome
  | .responseHello => names m.helloResponse
  | .ping => names m.ping
  | .pong => names m.pong
  | .bye => names m.bye
  | .remove => names m.remove
  | .genericResponse => m.response.any (·.code.isSome)
  | .announceVdc => m.requestId?.isSome && names m.announce
  | .vanish => names m.vanish
  | .requestGetProperty | .requestSetProperty | .requestGeneric | .unknown _ => false

end Message

end DeviceConnector
