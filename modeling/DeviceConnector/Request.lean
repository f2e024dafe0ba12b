import DeviceConnector.Data.Table
import DeviceConnector.Host.Error
/-!
# Pending requests

A request that is sent waits in a table, under its message id, for the generic response that answers
it. What is to be done with the answer is kept as a value of any type. A request leaves the table
when it is answered, when another one is sent under its id, when sending fails, or when it grows too
old.
-/

namespace DeviceConnector

/-- A way out for messages, which changes a state of its own when it takes one. -/
structure Carrier (σ : Type) where
  /-- A session is established and something carries it. -/
  isConnected : σ → Bool
  transmit : Message → σ → Except HostError σ

structure PendingRequest (κ : Type) where
  callback : κ
  /-- When it was sent, in milliseconds. -/
  since : Nat
  deriving DecidableEq, Repr

abbrev RequestTable (κ : Type) := Table MessageId (PendingRequest κ)

namespace RequestTable

variable {κ σ : Type}

/-- Record a request and hand it to the carrier. Nothing happens unless the carrier is connected and
the message is complete and has an id; a request that cannot be transmitted is dropped, and so is
one that waited under its id. -/
def send (table : RequestTable κ) (via : Carrier σ) (state : σ) (m : Message) (callback : κ)
    (now : Nat) : Except HostError MessageId × RequestTable κ × σ :=
  if via.isConnected state then
    match m.requestId?, m.isComplete with
    | some id, true =>
      match via.transmit m state with
      | .ok state => (.ok id, table.insert id ⟨callback, now⟩, state)
      | .error e => (.error e, (table.insert id ⟨callback, now⟩).erase id, state)
    | _, _ => (.error (.incompleteMessage m.type.tag), table, state)
  else (.error .notConnected, table, state)

structure Answer (κ : Type) where
  callback : κ
  response : GenericResponse
  deriving DecidableEq, Repr

/-- Route a response to the request it answers. It needs a nonzero id and a result code. -/
def answer (table : RequestTable κ) (m : Message) : Option (Answer κ) × RequestTable κ :=
  match m.requestId?, m.response with
  | some id, some response =>
    if response.code.isSome then
      match table.find? id with
      | some request => (some ⟨request.callback, response⟩, table.erase id)
      | none => (none, table)
    else (none, table)
  | _, _ => (none, table)

def evict (table : RequestTable κ) (maxAge now : Nat) : Nat × RequestTable κ :=
  let kept := table.filter fun _ request => now - request.since < maxAge
  (table.size - kept.size, kept)

end RequestTable

end DeviceConnector
