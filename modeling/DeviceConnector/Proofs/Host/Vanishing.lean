import DeviceConnector.Proofs.Host.Addressing
import DeviceConnector.Proofs.Host.Outbox
/-!
# What the controller is told has vanished

The removal of a device is told to the controller whoever is registered under its identifier, while
the entry goes only if it is the device itself. So the notice is true exactly if no other entity
owns the entry. Otherwise the owner, which is the host, a vDC or a device of another vDC, stays
registered and answers pings.
-/

namespace DeviceConnector

namespace Host

variable {h : Host} {vdc : Vdc} {dsuid : Dsuid} {device : Entity}

/-- A notice is queued only for an attached vDC, and it goes to the link that carries
the session. -/
theorem vanish_queues (queues : (h.vanish vdc dsuid).2.outbox ≠ h.outbox) :
    (h.vdcState vdc.object).attached = true ∧ ∃ link body peer, h.Carries link peer ∧
      h.codec.encode (.vanishOf dsuid) = .ok body ∧
      (h.vanish vdc dsuid).2.outbox = h.outbox ++ [⟨link, body⟩] := by
  by_cases reached : ((h.vdcState vdc.object).attached && h.isConnected) = true
  · have told : (h.vanish vdc dsuid).2 = (h.notify (.vanishOf dsuid)).toOption.getD h := by
      simp only [vanish, if_pos reached]
      cases h.notify (.vanishOf dsuid) <;> rfl
    rw [told] at queues ⊢
    rw [Bool.and_eq_true] at reached
    obtain ⟨owned, connected⟩ := reached
    have notified : h.notify (.vanishOf dsuid) = h.transmit (.vanishOf dsuid) := by
      simp only [notify, if_pos connected]
      rfl
    rw [notified] at queues ⊢
    cases sent : h.transmit (.vanishOf dsuid) with
    | error e =>
      rw [sent] at queues
      exact absurd rfl queues
    | ok after =>
      obtain ⟨link, body, attached, encoded, -, -, rfl⟩ := transmit_ok sent
      obtain ⟨peer, carries⟩ := carries_of_connected connected attached
      exact ⟨owned, link, body, peer, carries, encoded, rfl⟩
  · simp only [vanish, if_neg reached] at queues
    exact absurd rfl queues

theorem removeDevice_queues (queues : (h.removeDevice vdc dsuid).2.outbox ≠ h.outbox) :
    ∃ device, h.device? vdc dsuid = some device ∧ (h.vdcState vdc.object).attached = true ∧
      ∃ link body peer, h.Carries link peer ∧ h.codec.encode (.vanishOf dsuid) = .ok body ∧
        (h.removeDevice vdc dsuid).2.outbox = h.outbox ++ [⟨link, body⟩] := by
  cases found : h.device? vdc dsuid with
  | none =>
    rw [removeDevice_of_missing found] at queues
    exact absurd rfl queues
  | some device =>
    rw [removeDevice_eq found] at queues ⊢
    obtain ⟨owned, link, body, peer, carries, encoded, told⟩ := vanish_queues queues
    rw [vdcState_without, if_pos rfl] at owned
    exact ⟨device, rfl, owned, link, body, peer, ⟨carries.held, carries.attached⟩, encoded, told⟩

/-- The device itself loses its entry, and another entity keeps it. -/
theorem find?_removeDevice (found : h.device? vdc dsuid = some device)
    (owned : (h.vdcState vdc.object).attached = true) (other : Entity) :
    (h.removeDevice vdc dsuid).2.registry.find? dsuid = some other ↔
      h.registry.find? dsuid = some other ∧ other.object ≠ device.object := by
  rw [removeDevice_eq found]
  dsimp only
  rw [if_pos owned, Registry.find?_removeIfSame]
  simp

theorem find?_removeDevice_eq_none_iff (found : h.device? vdc dsuid = some device)
    (owned : (h.vdcState vdc.object).attached = true) :
    (h.removeDevice vdc dsuid).2.registry.find? dsuid = none ↔
      ∀ other, h.registry.find? dsuid = some other → other.object = device.object := by
  rw [Option.eq_none_iff_forall_ne_some]
  constructor
  · intro gone other entry
    by_contra different
    exact gone other ((find?_removeDevice found owned other).2 ⟨entry, different⟩)
  · intro own other there
    obtain ⟨entry, different⟩ := (find?_removeDevice found owned other).1 there
    exact different (own other entry)

end Host

namespace Site

open Host

variable {s : Site} {config : HostConfig} {vdc : Vdc} {dsuid : Dsuid} {device other : Entity}

/-- What stands in the way of a device is the host, an accepted vDC, or what another accepted vDC
holds. -/
theorem Owned.rival (h : Owned config s) (held : s.host.device? vdc dsuid = some device)
    (entry : s.host.registry.find? dsuid = some other) (different : other.object ≠ device.object) :
    other = .host 0 config.hostDsuid config.name ∨ (∃ rival ∈ s.accepted, other = .vdc rival) ∨
      ∃ rival ∈ s.accepted, rival ≠ vdc ∧ s.host.device? rival dsuid = some other := by
  cases h.owner dsuid other entry with
  | self => exact Or.inl rfl
  | vdc rival accepted => exact Or.inr (Or.inl ⟨rival, accepted, rfl⟩)
  | device rival _ accepted held' =>
    refine Or.inr (Or.inr ⟨rival, accepted, ?_, held'⟩)
    rintro rfl
    obtain rfl := Option.some.inj (held.symm.trans held')
    exact different rfl

/-- Where identifiers do not collide, a device is registered under its own or not at all. -/
theorem Owned.unrivalled (h : Owned config s)
    (distinct : ∀ a ∈ s.made, ∀ b ∈ s.made, a.dsuid = b.dsuid → a = b)
    (held : s.host.device? vdc dsuid = some device)
    (entry : s.host.registry.find? dsuid = some other) : other = device := by
  obtain ⟨made, own⟩ := h.held vdc.object dsuid device held
  obtain ⟨made', own'⟩ := h.registered dsuid other entry
  exact distinct other made' device made (own'.trans own.symm)

/-- If the removal of a device queues anything, that is the notice that its identifier has vanished,
on the link that carries the session. Afterwards the identifier is free exactly if nobody but the
device was registered under it; another entity stays registered and answers pings. In a host that
has been reached by operations about its entities, that is the host itself, an accepted vDC or what
another accepted vDC holds, and there is none as long as no two entities have the
same identifier. -/
theorem told_gone_iff (h : Host) (vdc : Vdc) (dsuid : Dsuid)
    (queues : (h.removeDevice vdc dsuid).2.outbox ≠ h.outbox) :
    ∃ device link body peer, h.device? vdc dsuid = some device ∧ h.Carries link peer ∧
      h.codec.encode (.vanishOf dsuid) = .ok body ∧
      (h.removeDevice vdc dsuid).2.outbox = h.outbox ++ [⟨link, body⟩] ∧
      ((h.removeDevice vdc dsuid).2.registry.find? dsuid = none ↔
        ∀ other, h.registry.find? dsuid = some other → other.object = device.object) ∧
      (∀ other, h.registry.find? dsuid = some other → other.object ≠ device.object →
        (h.removeDevice vdc dsuid).2.registry.find? dsuid = some other ∧
        ∀ request, request.ping.bind EntityRef.target? = some dsuid →
          (h.removeDevice vdc dsuid).2.receivePing request = some (.pongOf other.dsuid)) ∧
      ∀ config codec s, Reachable Honest config codec s → s.host = h →
        (∀ other, h.registry.find? dsuid = some other → other.object ≠ device.object →
          other = .host 0 config.hostDsuid config.name ∨
          (∃ rival ∈ s.accepted, other = .vdc rival) ∨
          ∃ rival ∈ s.accepted, rival ≠ vdc ∧ h.device? rival dsuid = some other) ∧
        ((∀ a ∈ s.made, ∀ b ∈ s.made, a.dsuid = b.dsuid → a = b) →
          (h.removeDevice vdc dsuid).2.registry.find? dsuid = none) := by
  obtain ⟨device, held, owned, link, body, peer, carries, encoded, told⟩ :=
    removeDevice_queues queues
  have free_iff := find?_removeDevice_eq_none_iff held owned
  refine ⟨device, link, body, peer, held, carries, encoded, told, free_iff, ?_, ?_⟩
  · intro other entry different
    have there := (find?_removeDevice held owned other).2 ⟨entry, different⟩
    refine ⟨there, fun request names => ?_⟩
    exact receivePing_of_found names there
  · rintro config codec s reachable rfl
    have known := reachable_owned reachable
    refine ⟨fun other => known.rival held, fun distinct => free_iff.2 fun other entry => ?_⟩
    rw [known.unrivalled distinct held entry]

def hostClash : List Operation :=
  [.create .vdc (.ofUuid 2) "hall", .create .device (.ofUuid 3) "lamp",
    .create .device Dsuid.defaultHost "clash", .addVdc ⟨1, .ofUuid 2, "hall"⟩,
    .addDevice ⟨1, .ofUuid 2, "hall"⟩ (.device 2 (.ofUuid 3) "lamp"),
    .addDevice ⟨1, .ofUuid 2, "hall"⟩ (.device 3 Dsuid.defaultHost "clash"), .connect 1,
    .frame ⟨1, 0⟩ (Message.helloOf (.ofUuid 1) 3 1).encode]

/-- The lamp is registered itself, and when it is removed its identifier is free. -/
theorem told_gone_iff_lamp :
    (((Host.new {} .json).run hostClash).removeDevice ⟨1, .ofUuid 2, "hall"⟩ (.ofUuid 3)).2.outbox ≠
      ((Host.new {} .json).run hostClash).outbox ∧
    (((Host.new {} .json).run hostClash).removeDevice ⟨1, .ofUuid 2, "hall"⟩
      (.ofUuid 3)).2.registry.find? (.ofUuid 3) = none := by
  have queues : (((Host.new {} .json).run hostClash).removeDevice ⟨1, .ofUuid 2, "hall"⟩
      (.ofUuid 3)).2.outbox ≠ ((Host.new {} .json).run hostClash).outbox := by decide +kernel
  have lamp : ((Host.new {} .json).run hostClash).device? ⟨1, .ofUuid 2, "hall"⟩ (.ofUuid 3) =
      some (.device 2 (.ofUuid 3) "lamp") := by decide +kernel
  have entry : ((Host.new {} .json).run hostClash).registry.find? (.ofUuid 3) =
      some (.device 2 (.ofUuid 3) "lamp") := by decide +kernel
  obtain ⟨device, -, -, -, held, -, -, -, free_iff, -⟩ := told_gone_iff _ _ _ queues
  refine ⟨queues, free_iff.2 fun other found => ?_⟩
  rw [Option.some.inj (found.symm.trans entry), Option.some.inj (held.symm.trans lamp)]

/-- When the other device is removed the controller is told that the identifier of the host has
vanished, under which the host goes on answering. -/
theorem vanished_still_answering :
    Reachable Plain {} .json ((initial {} .json).run hostClash) ∧
    ⟨1, .ofUuid 2, "hall"⟩ ∈ ((initial {} .json).run hostClash).accepted ∧
    (((Host.new {} .json).run hostClash).removeDevice ⟨1, .ofUuid 2, "hall"⟩
      Dsuid.defaultHost).2.outbox = ((Host.new {} .json).run hostClash).outbox ++
        [⟨⟨1, 0⟩, (Message.vanishOf Dsuid.defaultHost).encode⟩] ∧
    (((Host.new {} .json).run hostClash).removeDevice ⟨1, .ofUuid 2, "hall"⟩
      Dsuid.defaultHost).2.registry.find? Dsuid.defaultHost =
        some (.host 0 Dsuid.defaultHost "default-vDC-Host") ∧
    (((Host.new {} .json).run hostClash).removeDevice ⟨1, .ofUuid 2, "hall"⟩
      Dsuid.defaultHost).2.receivePing (.pingOf Dsuid.defaultHost) =
        some (.pongOf Dsuid.defaultHost) :=
  ⟨Execution.run (.refl _) (by decide +kernel), by decide +kernel⟩

end Site

end DeviceConnector
