import DeviceConnector.Host.Inbound
/-!
# Operations of a host

Everything that happens to a host, one operation after the other: frames arrive and connections
end, the application adds and removes what it offers and sends messages, and time passes. An
operation is total; whether it may happen at all is said by the users of this module.
-/

namespace DeviceConnector

def Entity.ofKind (kind : EntityKind) (object : ObjectId) (dsuid : Dsuid) (name : String) :
    Entity :=
  match kind with
  | .host => .host object dsuid name
  | .vdc => .vdc ⟨object, dsuid, name⟩
  | .device => .device object dsuid name

inductive Operation where
  /-- A connection begins, under an id. -/
  | connect (id : Nat)
  | frame (link : Link) (body : Bytes)
  | detach (id : Nat)
  /-- Nobody drains the queue of a link any more. -/
  | closeQueue (link : Link)
  /-- The application makes an entity, which gets an identity of its own. -/
  | create (kind : EntityKind) (dsuid : Dsuid) (name : String)
  | addVdc (vdc : Vdc)
  | addDevice (vdc : Vdc) (device : Entity)
  | removeDevice (vdc : Vdc) (dsuid : Dsuid)
  | send (m : Message) (tag : String)
  | notify (m : Message)
  | evict
  | wait (time : Nat)

namespace Host

def perform (h : Host) : Operation → Host
  | .connect id => (h.openLink id).2
  | .frame link body => (h.processFrame body link).2
  | .detach id => (h.detach id).2
  | .closeQueue link => h.closeQueue link
  | .create .. => h.newObject.2
  | .addVdc vdc => (h.addVdc vdc).2
  | .addDevice vdc device => (h.addDevice vdc device).2
  | .removeDevice vdc dsuid => (h.removeDevice vdc dsuid).2
  | .send m tag => (h.send m (.application tag)).2
  | .notify m => (h.notify m).toOption.getD h
  | .evict => h.evictExpired.2
  | .wait time => { h with clock := h.clock + time }

def run (h : Host) (operations : List Operation) : Host := operations.foldl perform h

structure Reads (h : Host) (body : Bytes) (m : Message) : Prop where
  nonempty : body ≠ []
  fits : body.length ≤ h.config.maxMessageSize
  decodes : h.codec.decode body = .ok m

def isVdcConnected (h : Host) (object : ObjectId) : Bool := (h.vdcState object).connected

end Host

end DeviceConnector
