import DeviceConnector.Proofs.Host.Operation
import DeviceConnector.Proofs.Request
/-!
# What operations change

For each operation of a host, which parts of its state it can change and how. Sending uses up ids,
records requests and queues bodies; a frame has one of five effects, and all but the first need a
message of their own. Other modules argue from these statements and do not open the operations.
-/

namespace DeviceConnector.Host

variable {h h₁ h₂ h₃ : Host}

def peer (h : Host) : Option Dsuid := h.session.map (·.peer)

theorem peer_eq_none : h.peer = none ↔ h.session = none := by
  simp [peer]

theorem vdcState_updateVdc (object other : ObjectId) (change : VdcState → VdcState) :
    (h.updateVdc object change).vdcState other =
      if other = object then change (h.vdcState other) else h.vdcState other := by
  by_cases same : other = object
  · subst same
    simp [vdcState, updateVdc]
  · simp [vdcState, updateVdc, Table.find?_insert_of_ne _ same, same]

/-- The second host differs from the first at most in what sending uses up: ids of the session,
pending requests and what is queued. -/
structure SentFrom (h₁ h₂ : Host) : Prop where
  rest : h₂ = { h₁ with session := h₂.session, pending := h₂.pending, outbox := h₂.outbox }
  peer : h₂.peer = h₁.peer

theorem SentFrom.refl (h : Host) : SentFrom h h := ⟨rfl, rfl⟩

theorem SentFrom.trans (first : SentFrom h₁ h₂) (second : SentFrom h₂ h₃) : SentFrom h₁ h₃ := by
  refine ⟨?_, second.peer.trans first.peer⟩
  have rest := second.rest
  rw [first.rest] at rest
  exact rest

theorem SentFrom.withDue (sent : SentFrom h₁ h₂) (due : Bool) :
    SentFrom { h₁ with announcePending := due } { h₂ with announcePending := due } := by
  refine ⟨?_, sent.peer⟩
  rw [sent.rest]

theorem SentFrom.attached (sent : SentFrom h₁ h₂) : h₂.attached = h₁.attached := by
  rw [sent.rest]

theorem SentFrom.registry (sent : SentFrom h₁ h₂) : h₂.registry = h₁.registry := by
  rw [sent.rest]

theorem SentFrom.vdcState (sent : SentFrom h₁ h₂) (object : ObjectId) :
    h₂.vdcState object = h₁.vdcState object := by
  rw [sent.rest]
  rfl

theorem transmit_ok {m : Message} (ok : h₁.transmit m = .ok h₂) :
    ∃ link body, h₁.attached = some link ∧ h₁.codec.encode m = .ok body ∧
      body.length ≤ h₁.config.maxMessageSize ∧ h₁.isClosed link = false ∧
      h₂ = { h₁ with outbox := h₁.outbox ++ [⟨link, body⟩] } := by
  unfold transmit at ok
  split at ok
  · cases ok
  rename_i link attached
  split at ok
  · cases ok
  rename_i body encoded
  split at ok
  · rename_i fits
    unfold queue at ok
    split at ok
    · cases ok
    · rename_i opened
      cases ok
      exact ⟨link, body, attached, encoded, fits, by simpa using opened, rfl⟩
  · cases ok

theorem transmit_sentFrom {m : Message} (ok : h₁.transmit m = .ok h₂) : SentFrom h₁ h₂ := by
  obtain ⟨link, body, -, -, -, -, rfl⟩ := transmit_ok ok
  exact ⟨rfl, rfl⟩

theorem queueReply_sentFrom {link : Link} {reply : Option Bytes}
    (ok : h₁.queueReply link reply = .ok h₂) : SentFrom h₁ h₂ := by
  cases reply with
  | none =>
    cases ok
    exact SentFrom.refl h₁
  | some body =>
    simp only [queueReply, queue] at ok
    split at ok
    · cases ok
    · cases ok
      exact ⟨rfl, rfl⟩

theorem notify_sentFrom {m : Message} (ok : h₁.notify m = .ok h₂) : SentFrom h₁ h₂ := by
  unfold notify at ok
  split at ok
  · split at ok
    · exact transmit_sentFrom ok
    · cases ok
  · cases ok

theorem send_cases (h : Host) (m : Message) (callback : Callback) :
    (∃ id link body, m.requestId? = some id ∧ h.isConnected = true ∧
      h.attached = some link ∧ h.codec.encode m = .ok body ∧
      body.length ≤ h.config.maxMessageSize ∧
      h.send m callback = (.ok id, { h with
        pending := h.pending.insert id ⟨callback, h.clock⟩
        outbox := h.outbox ++ [⟨link, body⟩] })) ∨
    ∃ e pending, h.send m callback = (.error e, { h with pending }) := by
  rcases RequestTable.send_cases h.pending carrier h m callback h.clock with
    ⟨id, h', admits, sent, eq⟩ | ⟨id, e, -, -, eq⟩ | ⟨-, e, eq⟩
  · obtain ⟨link, body, attached, encoded, fits, -, rfl⟩ := transmit_ok sent
    have named := RequestTable.requestId?_eq_some.2 ⟨admits.named, admits.nonzero⟩
    refine Or.inl ⟨id, link, body, named, admits.connected, attached, encoded, fits, ?_⟩
    simp only [send, eq]
  · exact Or.inr ⟨e, (h.pending.insert id ⟨callback, h.clock⟩).erase id, by simp only [send, eq]⟩
  · exact Or.inr ⟨e, h.pending, by simp only [send, eq]⟩

theorem send_sentFrom (h : Host) (m : Message) (callback : Callback) :
    SentFrom h (h.send m callback).2 := by
  rcases send_cases h m callback with ⟨id, link, body, -, -, -, -, -, eq⟩ | ⟨e, pending, eq⟩
  · rw [eq]; exact ⟨rfl, rfl⟩
  · rw [eq]; exact ⟨rfl, rfl⟩

theorem allocateId_sentFrom (h : Host) : SentFrom h h.allocateId.2 := by
  unfold allocateId Session.allocateId?
  cases held : h.session with
  | none => exact SentFrom.refl h
  | some session => exact ⟨rfl, by simp [peer, held, Session.allocateId]⟩

theorem announce_sentFrom (h : Host) (vdc : Vdc) : SentFrom h (h.announce vdc).2 := by
  unfold announce
  split
  · have allocated := allocateId_sentFrom h
    split
    · rename_i eq
      rw [eq] at allocated
      exact allocated
    · rename_i eq
      rw [eq] at allocated
      exact allocated.trans (send_sentFrom _ _ _)
  · exact SentFrom.refl h

theorem announceAll_sentFrom (h : Host) (vdcs : List Vdc) : SentFrom h (h.announceAll vdcs).2 := by
  induction vdcs generalizing h with
  | nil => exact SentFrom.refl h
  | cons vdc vdcs ih => exact (announce_sentFrom h vdc).trans (ih _)

theorem flushAnnouncements_sentFrom (h : Host) :
    SentFrom { h with announcePending := false } h.flushAnnouncements.2 := by
  unfold flushAnnouncements announceVdcs
  split
  · exact announceAll_sentFrom _ _
  · rename_i idle
    have eq : h = { h with announcePending := false } := by
      cases h
      simp_all
    rw [← eq]
    exact SentFrom.refl h

theorem vanish_sentFrom (h : Host) (vdc : Vdc) (dsuid : Dsuid) :
    SentFrom h (h.vanish vdc dsuid).2 := by
  simp only [vanish]
  split
  · cases sent : h.notify (.vanishOf dsuid) with
    | ok h' => exact notify_sentFrom sent
    | error e => exact SentFrom.refl h
  · exact SentFrom.refl h

/-- The host that has registered a vDC and its devices, before the vDC is announced. -/
def admitted (h : Host) (vdc : Vdc) : Host :=
  { h with
    registry := (h.devices vdc).foldl Registry.add (h.registry.add (.vdc vdc)) }.updateVdc
      vdc.object fun state => { state with attached := true }

theorem vdcState_admitted (h : Host) (vdc : Vdc) (object : ObjectId) :
    (h.admitted vdc).vdcState object =
      if object = vdc.object then { h.vdcState object with attached := true }
      else h.vdcState object :=
  vdcState_updateVdc vdc.object object _

theorem addVdc_eq (h : Host) (vdc : Vdc) :
    h.addVdc vdc =
      if h.registry.contains vdc.dsuid then (false, h)
      else (true, if h.isConnected then ((h.admitted vdc).announce vdc).2 else h.admitted vdc) := by
  unfold addVdc registerVdc Registry.registerVdc
  by_cases taken : h.registry.contains vdc.dsuid = true
  · simp [taken]
  · simp only [taken]
    rfl

/-- Sending apart, adding a vDC leaves the host as it is or admits the vDC. -/
theorem addVdc_sentFrom (h : Host) (vdc : Vdc) :
    (h.registry.contains vdc.dsuid = true ∧ h.addVdc vdc = (false, h)) ∨
    (h.registry.contains vdc.dsuid = false ∧ (h.addVdc vdc).1 = true ∧
      SentFrom (h.admitted vdc) (h.addVdc vdc).2) := by
  rw [addVdc_eq]
  by_cases taken : h.registry.contains vdc.dsuid = true
  · exact Or.inl ⟨taken, by rw [if_pos taken]⟩
  · refine Or.inr ⟨by simpa using taken, ?_⟩
    rw [if_neg taken]
    refine ⟨rfl, ?_⟩
    dsimp only
    split
    · exact announce_sentFrom _ _
    · exact SentFrom.refl _

def holding (h : Host) (vdc : Vdc) (device : Entity) : Host :=
  h.updateVdc vdc.object fun state =>
    { state with devices := state.devices.insert device.dsuid device }

def without (h : Host) (vdc : Vdc) (dsuid : Dsuid) : Host :=
  h.updateVdc vdc.object fun state => { state with devices := state.devices.erase dsuid }

theorem vdcState_holding (h : Host) (vdc : Vdc) (device : Entity) (object : ObjectId) :
    (h.holding vdc device).vdcState object =
      if object = vdc.object then { h.vdcState object with
        devices := (h.vdcState object).devices.insert device.dsuid device }
      else h.vdcState object :=
  vdcState_updateVdc vdc.object object _

theorem vdcState_without (h : Host) (vdc : Vdc) (dsuid : Dsuid) (object : ObjectId) :
    (h.without vdc dsuid).vdcState object =
      if object = vdc.object then { h.vdcState object with
        devices := (h.vdcState object).devices.erase dsuid }
      else h.vdcState object :=
  vdcState_updateVdc vdc.object object _

theorem device?_holding (h : Host) (vdc other : Vdc) (device : Entity) (dsuid : Dsuid) :
    (h.holding vdc device).device? other dsuid =
      if other.object = vdc.object ∧ dsuid = device.dsuid then some device
      else h.device? other dsuid := by
  unfold device?
  rw [vdcState_holding]
  by_cases own : other.object = vdc.object
  · by_cases same : dsuid = device.dsuid
    · simp [own, same]
    · simp [own, same, Table.find?_insert_of_ne _ same]
  · simp [own]

theorem device?_without (h : Host) (vdc other : Vdc) (gone dsuid : Dsuid) :
    (h.without vdc gone).device? other dsuid =
      if other.object = vdc.object ∧ dsuid = gone then none else h.device? other dsuid := by
  unfold device?
  rw [vdcState_without]
  by_cases own : other.object = vdc.object
  · by_cases same : dsuid = gone
    · simp [own, same]
    · simp [own, same, Table.find?_erase_of_ne _ same]
  · simp [own]

/-- A device is added unless its vDC has one under its identifier, and if the vDC is attached it is
also registered. -/
theorem addDevice_of_missing {h : Host} {vdc : Vdc} {device : Entity}
    (missing : h.device? vdc device.dsuid = none) :
    h.addDevice vdc device = (true, { h.holding vdc device with
      registry := if (h.vdcState vdc.object).attached
        then h.registry.add device else h.registry }) := by
  have free : (h.vdcState vdc.object).devices.contains device.dsuid = false := by
    simpa [Table.contains, device?] using missing
  simp only [addDevice, free]
  cases (h.vdcState vdc.object).attached <;> rfl

theorem addDevice_of_held {h : Host} {vdc : Vdc} {device held : Entity}
    (found : h.device? vdc device.dsuid = some held) : h.addDevice vdc device = (false, h) := by
  have taken : (h.vdcState vdc.object).devices.contains device.dsuid = true := by
    unfold device? at found
    simp [Table.contains, found]
  simp only [addDevice, taken, if_true]

theorem addDevice_cases (h : Host) (vdc : Vdc) (device : Entity) :
    (h.addDevice vdc device).2 = h ∨
    (h.addDevice vdc device).2 = h.holding vdc device ∨
    (h.addDevice vdc device).2 =
      { h.holding vdc device with registry := h.registry.add device } := by
  cases held : h.device? vdc device.dsuid with
  | some e =>
    rw [addDevice_of_held held]
    exact Or.inl rfl
  | none =>
    rw [addDevice_of_missing held]
    right
    dsimp only
    split
    · exact Or.inr rfl
    · exact Or.inl rfl

theorem removeDevice_eq {h : Host} {vdc : Vdc} {dsuid : Dsuid} {device : Entity}
    (found : h.device? vdc dsuid = some device) :
    h.removeDevice vdc dsuid = (some device, { ((h.without vdc dsuid).vanish vdc dsuid).2 with
      registry := if (h.vdcState vdc.object).attached
        then (h.registry.removeIfSame dsuid device).2 else h.registry }) := by
  have sent := vanish_sentFrom (h.without vdc dsuid) vdc dsuid
  have kept : ((h.without vdc dsuid).vanish vdc dsuid).2.registry = h.registry := sent.registry
  have attached : (((h.without vdc dsuid).vanish vdc dsuid).2.vdcState vdc.object).attached =
      (h.vdcState vdc.object).attached := by
    rw [sent.vdcState, vdcState_without, if_pos rfl]
  have eq : h.removeDevice vdc dsuid =
      if (((h.without vdc dsuid).vanish vdc dsuid).2.vdcState vdc.object).attached then
        (some device, { ((h.without vdc dsuid).vanish vdc dsuid).2 with
          registry := (((h.without vdc dsuid).vanish vdc dsuid).2.registry.removeIfSame
            dsuid device).2 })
      else (some device, ((h.without vdc dsuid).vanish vdc dsuid).2) := by
    simp only [removeDevice, found]
    rfl
  rw [eq, attached, kept]
  split
  · rfl
  · rw [← kept]

/-- Sending apart, removing a device that is there takes it out of the table of its vDC and, where
the vDC is attached and the device is the entry itself, out of the registry. -/
theorem removeDevice_of_found {h : Host} {vdc : Vdc} {dsuid : Dsuid} {device : Entity}
    (found : h.device? vdc dsuid = some device) :
    ∃ h', SentFrom (h.without vdc dsuid) h' ∧
      h.removeDevice vdc dsuid = (some device, { h' with
        registry := if (h.vdcState vdc.object).attached
          then (h.registry.removeIfSame dsuid device).2 else h.registry }) :=
  ⟨_, vanish_sentFrom (h.without vdc dsuid) vdc dsuid, removeDevice_eq found⟩

theorem removeDevice_of_missing {h : Host} {vdc : Vdc} {dsuid : Dsuid}
    (missing : h.device? vdc dsuid = none) : h.removeDevice vdc dsuid = (none, h) := by
  simp [removeDevice, missing]

theorem removeDevice_cases (h : Host) (vdc : Vdc) (dsuid : Dsuid) :
    h.removeDevice vdc dsuid = (none, h) ∨
    ∃ device h' registry, h.device? vdc dsuid = some device ∧
      SentFrom (h.without vdc dsuid) h' ∧
      (registry = h.registry ∨ (h.vdcState vdc.object).attached = true ∧
        registry = (h.registry.removeIfSame dsuid device).2) ∧
      h.removeDevice vdc dsuid = (some device, { h' with registry }) := by
  cases found : h.device? vdc dsuid with
  | none => exact Or.inl (removeDevice_of_missing found)
  | some device =>
    obtain ⟨h', sent, eq⟩ := removeDevice_of_found found
    refine Or.inr ⟨device, h', _, rfl, sent, ?_, eq⟩
    split
    · rename_i owned
      exact Or.inr ⟨owned, rfl⟩
    · exact Or.inl rfl

theorem disconnectVdcs_eq (h : Host) :
    ∃ vdcStates, h.disconnectVdcs = { h with vdcStates } := by
  unfold disconnectVdcs
  generalize h.registry.vdcs = vdcs
  induction vdcs generalizing h with
  | nil => exact ⟨_, rfl⟩
  | cons vdc vdcs ih => exact ih (h.setConnected vdc.object false)

theorem evictExpired_eq (h : Host) : ∃ pending, h.evictExpired.2 = { h with pending } := by
  unfold evictExpired
  split <;> exact ⟨_, rfl⟩

theorem detach_cases (h : Host) (id : Nat) :
    (h.detach id).2 = h ∧ (∀ link, h.attached = some link → link.id ≠ id) ∨
    (∃ link, h.attached = some link ∧ link.id = id) ∧
      (h.detach id).2 = { h with session := none, attached := none }.disconnectVdcs := by
  unfold detach
  split
  · rename_i carries
    exact Or.inr ⟨Option.map_eq_some_iff.1 carries, rfl⟩
  · rename_i stray
    refine Or.inl ⟨rfl, ?_⟩
    intro link carried same
    exact stray (by simp [carried, same])

def IsTraffic : Operation → Prop
  | .frame .. | .detach _ => True
  | _ => False

structure Undisturbed (h₁ h₂ : Host) : Prop where
  peer : h₂.peer = h₁.peer
  attached : h₂.attached = h₁.attached
  connected : ∀ object, h₂.isVdcConnected object = h₁.isVdcConnected object

theorem Undisturbed.refl (h : Host) : Undisturbed h h := ⟨rfl, rfl, fun _ => rfl⟩

theorem Undisturbed.trans (first : Undisturbed h₁ h₂) (second : Undisturbed h₂ h₃) :
    Undisturbed h₁ h₃ where
  peer := second.peer.trans first.peer
  attached := second.attached.trans first.attached
  connected object := (second.connected object).trans (first.connected object)

theorem SentFrom.undisturbed (sent : SentFrom h₁ h₂) : Undisturbed h₁ h₂ where
  peer := sent.peer
  attached := sent.attached
  connected object := congrArg VdcState.connected (sent.vdcState object)

theorem admitted_undisturbed (h : Host) (vdc : Vdc) : Undisturbed h (h.admitted vdc) := by
  refine ⟨rfl, rfl, fun object => ?_⟩
  rw [isVdcConnected, vdcState_admitted]
  split <;> rfl

theorem holding_undisturbed (h : Host) (vdc : Vdc) (device : Entity) :
    Undisturbed h (h.holding vdc device) := by
  refine ⟨rfl, rfl, fun object => ?_⟩
  rw [isVdcConnected, vdcState_holding]
  split <;> rfl

theorem without_undisturbed (h : Host) (vdc : Vdc) (dsuid : Dsuid) :
    Undisturbed h (h.without vdc dsuid) := by
  refine ⟨rfl, rfl, fun object => ?_⟩
  rw [isVdcConnected, vdcState_without]
  split <;> rfl

theorem perform_undisturbed {op : Operation} (quiet : ¬ IsTraffic op) :
    Undisturbed h (h.perform op) := by
  cases op with
  | frame | detach => exact absurd trivial quiet
  | connect | closeQueue | create | wait => exact ⟨rfl, rfl, fun _ => rfl⟩
  | addVdc vdc =>
    rcases addVdc_sentFrom h vdc with ⟨-, eq⟩ | ⟨-, -, sent⟩
    · rw [perform, eq]
      exact Undisturbed.refl h
    · exact (admitted_undisturbed h vdc).trans sent.undisturbed
  | addDevice vdc device =>
    have held := holding_undisturbed h vdc device
    rw [perform]
    rcases addDevice_cases h vdc device with eq | eq | eq
    · rw [eq]
      exact Undisturbed.refl h
    · rw [eq]
      exact held
    · rw [eq]
      exact ⟨held.peer, held.attached, held.connected⟩
  | removeDevice vdc dsuid =>
    rw [perform]
    rcases removeDevice_cases h vdc dsuid with eq | ⟨device, h', registry, -, sent, -, eq⟩
    · rw [eq]
      exact Undisturbed.refl h
    · rw [eq]
      have removed := (without_undisturbed h vdc dsuid).trans sent.undisturbed
      exact ⟨removed.peer, removed.attached, removed.connected⟩
  | send m tag => exact (send_sentFrom h m (.application tag)).undisturbed
  | notify m =>
    rw [perform]
    cases sent : h.notify m with
    | error e => exact Undisturbed.refl h
    | ok h' => exact (notify_sentFrom sent).undisturbed
  | evict =>
    obtain ⟨pending, eq⟩ := evictExpired_eq h
    rw [perform, eq]
    exact ⟨rfl, rfl, fun _ => rfl⟩

end DeviceConnector.Host
