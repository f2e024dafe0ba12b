import DeviceConnector.Host.Outbound
/-!
# vDCs and their devices

A vDC is announced to the controller when it is added during a session, and all of them are
announced when a session begins. A device of an attached vDC is registered at once where its
identifier is free, and its removal is told to the controller.
-/

namespace DeviceConnector.Host

def devices (h : Host) (vdc : Vdc) : List Entity := (h.vdcState vdc.object).devices.values

def device? (h : Host) (vdc : Vdc) (dsuid : Dsuid) : Option Entity :=
  (h.vdcState vdc.object).devices.find? dsuid

def registerVdc (h : Host) (vdc : Vdc) : Bool × Host :=
  let (added, registry) := h.registry.registerVdc vdc (h.devices vdc)
  (added, { h with registry })

/-- Announce a vDC under a new id. It counts as connected once the controller accepts. -/
def announce (h : Host) (vdc : Vdc) : Except HostError MessageId × Host :=
  if (h.vdcState vdc.object).attached then
    match h.allocateId with
    | (.error e, h) => (.error e, h)
    | (.ok id, h) => h.send (.announceOf vdc.dsuid id) (.announcement vdc.object)
  else (.error (.detached vdc.dsuid), h)

/-- Add a vDC with its devices, and announce it during a session; tells whether its identifier was
free. That the announcement fails is no concern of the caller. -/
def addVdc (h : Host) (vdc : Vdc) : Bool × Host :=
  match h.registerVdc vdc with
  | (false, h) => (false, h)
  | (true, h) =>
    let h := h.updateVdc vdc.object fun state => { state with attached := true }
    (true, if h.isConnected then (h.announce vdc).2 else h)

def announceAll (h : Host) : List Vdc → Nat × Host
  | [] => (0, h)
  | vdc :: vdcs =>
    let (result, h) := h.announce vdc
    let (count, h) := h.announceAll vdcs
    ((if result.isOk then 1 else 0) + count, h)

def announceVdcs (h : Host) : Nat × Host := h.announceAll h.registry.vdcs

def flushAnnouncements (h : Host) : Nat × Host :=
  if h.announcePending then { h with announcePending := false }.announceVdcs else (0, h)

def addDevice (h : Host) (vdc : Vdc) (device : Entity) : Bool × Host :=
  let state := h.vdcState vdc.object
  if state.devices.contains device.dsuid then (false, h)
  else
    let h := h.updateVdc vdc.object fun state =>
      { state with devices := state.devices.insert device.dsuid device }
    (true, if state.attached then { h with registry := h.registry.add device } else h)

/-- Tell the controller that an entity of a vDC is gone, as far as it can be told. The notice is
composed in any case. -/
def vanish (h : Host) (vdc : Vdc) (dsuid : Dsuid) : Message × Host :=
  let m := Message.vanishOf dsuid
  if (h.vdcState vdc.object).attached && h.isConnected then
    match h.notify m with
    | .ok h => (m, h)
    | .error _ => (m, h)
  else (m, h)

/-- Remove a device from a vDC. The controller is told before the registry entry goes, and the entry
only goes if it is the device itself. -/
def removeDevice (h : Host) (vdc : Vdc) (dsuid : Dsuid) : Option Entity × Host :=
  match h.device? vdc dsuid with
  | none => (none, h)
  | some device =>
    let h := h.updateVdc vdc.object fun state => { state with devices := state.devices.erase dsuid }
    let (_, h) := h.vanish vdc dsuid
    if (h.vdcState vdc.object).attached then
      let (_, registry) := h.registry.removeIfSame dsuid device
      (some device, { h with registry })
    else (some device, h)

def disconnectVdcs (h : Host) : Host :=
  h.registry.vdcs.foldl (fun h vdc => h.setConnected vdc.object false) h

end DeviceConnector.Host
