import DeviceConnector.Proofs.Host.Roster
/-!
# What is registered

The registry entry of an identifier changes only when a free place is filled or when the very device
that is registered is removed from its vDC. Where only plain devices are added to vDCs, the host and
the accepted vDCs therefore stay registered, and every other entry is a device that an accepted vDC
holds under the same identifier.
-/

namespace DeviceConnector

namespace Host

variable {h h₁ h₂ : Host}

theorem SameRoster.device? (same : SameRoster h₁ h₂) (vdc : Vdc) (dsuid : Dsuid) :
    h₂.device? vdc dsuid = h₁.device? vdc dsuid := by
  unfold Host.device?
  rw [same.devices]

theorem device?_congr {vdc other : Vdc} (same : vdc.object = other.object) (dsuid : Dsuid) :
    h.device? vdc dsuid = h.device? other dsuid := by
  unfold device?
  rw [same]

theorem device?_addVdc (h : Host) (added vdc : Vdc) (dsuid : Dsuid) :
    (h.addVdc added).2.device? vdc dsuid = h.device? vdc dsuid := by
  rcases addVdc_sentFrom h added with ⟨-, eq⟩ | ⟨-, -, sent⟩
  · rw [eq]
  · rw [sent.sameRoster.device?]
    unfold device?
    rw [vdcState_admitted]
    split <;> rfl

theorem device?_addDevice (h : Host) (owner vdc : Vdc) (device : Entity) (dsuid : Dsuid) :
    (h.addDevice owner device).2.device? vdc dsuid =
      if vdc.object = owner.object ∧ dsuid = device.dsuid ∧ h.device? vdc dsuid = none
      then some device else h.device? vdc dsuid := by
  cases held : h.device? owner device.dsuid with
  | some e =>
    rw [addDevice_of_held held, if_neg]
    rintro ⟨own, rfl, free⟩
    rw [device?_congr own, held] at free
    cases free
  | none =>
    rw [addDevice_of_missing held]
    refine (device?_holding h owner vdc device dsuid).trans ?_
    by_cases place : vdc.object = owner.object ∧ dsuid = device.dsuid
    · obtain ⟨own, rfl⟩ := place
      have free : h.device? vdc device.dsuid = none := (device?_congr own _).trans held
      rw [if_pos ⟨own, rfl⟩, if_pos ⟨own, rfl, free⟩]
    · rw [if_neg place, if_neg (fun all => place ⟨all.1, all.2.1⟩)]

theorem device?_removeDevice (h : Host) (owner vdc : Vdc) (gone dsuid : Dsuid) :
    (h.removeDevice owner gone).2.device? vdc dsuid =
      if vdc.object = owner.object ∧ dsuid = gone then none else h.device? vdc dsuid := by
  cases found : h.device? owner gone with
  | some device =>
    obtain ⟨h', sent, eq⟩ := removeDevice_of_found found
    have left : h'.device? vdc dsuid = (h.without owner gone).device? vdc dsuid :=
      sent.sameRoster.device? vdc dsuid
    rw [eq, ← device?_without, ← left]
    rfl
  | none =>
    rw [removeDevice_of_missing found]
    split
    · rename_i place
      obtain ⟨own, rfl⟩ := place
      rw [device?_congr own, found]
    · rfl

theorem registry_addVdc (h : Host) (vdc : Vdc) :
    (h.addVdc vdc).2.registry =
      if (h.addVdc vdc).1 then (.vdc vdc :: h.devices vdc).foldl Registry.add h.registry
      else h.registry := by
  rcases addVdc_sentFrom h vdc with ⟨-, eq⟩ | ⟨-, added, sent⟩
  · simp [eq]
  · rw [if_pos added, sent.registry]
    rfl

theorem registry_addDevice (h : Host) (vdc : Vdc) (device : Entity) :
    (h.addDevice vdc device).2.registry =
      if h.device? vdc device.dsuid = none ∧ (h.vdcState vdc.object).attached = true
      then [device].foldl Registry.add h.registry else h.registry := by
  cases held : h.device? vdc device.dsuid with
  | some e => simp [addDevice_of_held held]
  | none => simp [addDevice_of_missing held]

theorem registry_removeDevice (h : Host) (vdc : Vdc) (dsuid : Dsuid) :
    (h.removeDevice vdc dsuid).2.registry = h.registry ∨
    ∃ device, h.device? vdc dsuid = some device ∧ (h.vdcState vdc.object).attached = true ∧
      (h.removeDevice vdc dsuid).2.registry = (h.registry.removeIfSame dsuid device).2 := by
  rcases removeDevice_cases h vdc dsuid with eq | ⟨device, h', registry, found, -, left, eq⟩
  · rw [eq]
    exact Or.inl rfl
  · rw [eq]
    rcases left with same | ⟨owned, removed⟩
    · exact Or.inl same
    · exact Or.inr ⟨device, found, owned, removed⟩

end Host

namespace Site

open Host

variable {s : Site} {op : Operation} {vdc : Vdc} {dsuid : Dsuid} {e : Entity}

/-- What a vDC holds under an identifier changes only when a device is added or removed there. -/
theorem device?_step (s : Site) (op : Operation) (vdc : Vdc) (dsuid : Dsuid) :
    (s.next op).host.device? vdc dsuid = s.host.device? vdc dsuid ∨
    (∃ owner device, op = .addDevice owner device ∧ vdc.object = owner.object ∧
      dsuid = device.dsuid ∧ s.host.device? vdc dsuid = none ∧
      (s.next op).host.device? vdc dsuid = some device) ∨
    ∃ owner, op = .removeDevice owner dsuid ∧ vdc.object = owner.object ∧
      (s.next op).host.device? vdc dsuid = none := by
  by_cases enlists : Enlists op
  · cases op with
    | create kind d name => exact Or.inl rfl
    | addVdc added => exact Or.inl (device?_addVdc s.host added vdc dsuid)
    | addDevice owner device =>
      have after := device?_addDevice s.host owner vdc device dsuid
      split at after
      · rename_i place
        exact Or.inr (Or.inl ⟨owner, device, rfl, place.1, place.2.1, place.2.2, after⟩)
      · exact Or.inl after
    | removeDevice owner gone =>
      have after := device?_removeDevice s.host owner vdc gone dsuid
      split at after
      · rename_i place
        obtain ⟨own, rfl⟩ := place
        exact Or.inr (Or.inr ⟨owner, rfl, own, after⟩)
      · exact Or.inl after
    | _ => exact enlists.elim
  · exact Or.inl ((perform_sameRoster s.host enlists).device? vdc dsuid)

theorem accepted_step (s : Site) (op : Operation) (vdc : Vdc) :
    vdc ∈ (s.next op).accepted ↔
      vdc ∈ s.accepted ∨ op = .addVdc vdc ∧ (s.host.addVdc vdc).1 = true := by
  cases op with
  | addVdc added =>
    simp only [next]
    by_cases free : (s.host.addVdc added).1 = true
    · rw [if_pos free, List.mem_cons]
      constructor
      · rintro (rfl | mem)
        · exact Or.inr ⟨rfl, free⟩
        · exact Or.inl mem
      · rintro (mem | ⟨same, -⟩)
        · exact Or.inr mem
        · exact Or.inl (Operation.addVdc.inj same).symm
    · rw [if_neg free]
      constructor
      · exact Or.inl
      · rintro (mem | ⟨same, free'⟩)
        · exact mem
        · obtain rfl := Operation.addVdc.inj same
          exact absurd free' free
  | _ => simp [next]

theorem Roster.attached_iff (h : Roster s) (made : .vdc vdc ∈ s.made) :
    (s.host.vdcState vdc.object).attached = true ↔ vdc ∈ s.accepted := by
  rw [h.attached]
  constructor
  · rintro ⟨other, mem, same⟩
    have equal := h.identity _ (h.accepted other mem) _ made same
    obtain rfl := Entity.vdc.inj equal
    exact mem
  · intro mem
    exact ⟨vdc, mem, rfl⟩

/-- The operation removes from an accepted vDC the very device that is registered. -/
structure Vacates (s : Site) (op : Operation) (vdc : Vdc) (dsuid : Dsuid) : Prop where
  removes : op = .removeDevice vdc dsuid
  accepted : vdc ∈ s.accepted
  entry : ∃ device, s.host.device? vdc dsuid = some device ∧
    s.host.registry.find? dsuid = some device

inductive Offers (s : Site) : Operation → Entity → Prop
  | vdc {vdc : Vdc} : (s.host.addVdc vdc).1 = true → Offers s (.addVdc vdc) (.vdc vdc)
  | held {vdc : Vdc} {device : Entity} : (s.host.addVdc vdc).1 = true →
      s.host.device? vdc device.dsuid = some device → Offers s (.addVdc vdc) device
  | device {vdc : Vdc} {device : Entity} : vdc ∈ s.accepted →
      s.host.device? vdc device.dsuid = none → Offers s (.addDevice vdc device) device

theorem Vacates.next (h : Roster s) (vacates : Vacates s op vdc dsuid) :
    (s.next op).host.registry.find? dsuid = none := by
  obtain ⟨rfl, accepted, device, held, entry⟩ := vacates
  have owned := (h.attached_iff (h.accepted vdc accepted)).2 accepted
  obtain ⟨h', sent, eq⟩ := removeDevice_of_found held
  rw [next_host, perform, eq, if_pos owned]
  refine Option.eq_none_iff_forall_ne_some.2 fun e there => ?_
  obtain ⟨before, other⟩ := Registry.find?_removeIfSame.1 there
  obtain rfl := Option.some.inj (entry.symm.trans before)
  exact other ⟨rfl, rfl⟩

/-- An entry stays, or a free place is filled, or the registered device itself is removed. -/
theorem registry_step (h : Roster s) (honest : Honest s op) (dsuid : Dsuid) :
    (s.next op).host.registry.find? dsuid = s.host.registry.find? dsuid ∨
    (s.host.registry.find? dsuid = none ∧ ∃ e, Offers s op e ∧ e.dsuid = dsuid ∧
      (s.next op).host.registry.find? dsuid = some e) ∨
    ∃ vdc, Vacates s op vdc dsuid := by
  by_cases enlists : Enlists op
  · cases op with
    | create kind d name => exact Or.inl rfl
    | addVdc vdc =>
      have after : (s.next (.addVdc vdc)).host.registry = _ := registry_addVdc s.host vdc
      split at after
      · rename_i added
        rw [after]
        rcases Registry.find?_foldl_add_cases s.host.registry (.vdc vdc :: s.host.devices vdc) dsuid
          with same | ⟨free, e, mem, own, filled⟩
        · exact Or.inl same
        · refine Or.inr (Or.inl ⟨free, e, ?_, own, filled⟩)
          rcases List.mem_cons.1 mem with rfl | mem
          · exact Offers.vdc added
          · obtain ⟨key, held⟩ := Table.mem_values.1 mem
            obtain rfl : e.dsuid = key := (h.held vdc.object key e held).2
            exact Offers.held added held
      · rw [after]
        exact Or.inl rfl
    | addDevice vdc device =>
      have after : (s.next (.addDevice vdc device)).host.registry = _ :=
        registry_addDevice s.host vdc device
      split at after
      · rename_i offered
        have accepted := (h.attached_iff honest.1).1 offered.2
        rw [after]
        rcases Registry.find?_foldl_add_cases s.host.registry [device] dsuid
          with same | ⟨free, e, mem, own, filled⟩
        · exact Or.inl same
        · obtain rfl := List.mem_singleton.1 mem
          exact Or.inr (Or.inl ⟨free, e, Offers.device accepted offered.1, own, filled⟩)
      · rw [after]
        exact Or.inl rfl
    | removeDevice vdc gone =>
      rcases registry_removeDevice s.host vdc gone with same | ⟨device, held, owned, removed⟩
      · rw [next_host, perform, same]
        exact Or.inl rfl
      · have accepted := (h.attached_iff honest).1 owned
        have made := (h.held vdc.object gone device held).1
        rw [next_host, perform, removed]
        cases before : s.host.registry.find? dsuid with
        | none =>
          refine Or.inl (Option.eq_none_iff_forall_ne_some.2 fun e there => ?_)
          cases before.symm.trans (Registry.find?_removeIfSame.1 there).1
        | some e =>
          by_cases own : dsuid = gone ∧ e.object = device.object
          · obtain ⟨rfl, identical⟩ := own
            obtain rfl := h.identity e (h.registered dsuid e before).1 device made identical
            exact Or.inr (Or.inr ⟨vdc, rfl, accepted, e, held, before⟩)
          · exact Or.inl (Registry.find?_removeIfSame.2 ⟨before, own⟩)
    | _ => exact enlists.elim
  · rw [next_host, (perform_sameRoster s.host enlists).registry]
    exact Or.inl rfl

/-- A vDC keeps a device until the device is removed from it. -/
theorem Roster.held_step (h : Roster s) (honest : Honest s op) (made : .vdc vdc ∈ s.made)
    {e : Entity} (held : s.host.device? vdc dsuid = some e) :
    (s.next op).host.device? vdc dsuid = some e ∨
    op = .removeDevice vdc dsuid ∧ (s.next op).host.device? vdc dsuid = none := by
  rcases device?_step s op vdc dsuid with
    same | ⟨-, -, -, -, -, free, -⟩ | ⟨owner, rfl, own, gone⟩
  · exact Or.inl (same.trans held)
  · cases held.symm.trans free
  · have equal := h.identity _ made _ honest own
    obtain rfl := Entity.vdc.inj equal
    exact Or.inr ⟨rfl, gone⟩

variable {config : HostConfig} {codec : BodyCodec}

/-- The host, an accepted vDC, or what an accepted vDC holds under the identifier. -/
inductive Owner (config : HostConfig) (s : Site) (dsuid : Dsuid) : Entity → Prop where
  | self : Owner config s dsuid (.host 0 config.hostDsuid config.name)
  | vdc (vdc : Vdc) (accepted : vdc ∈ s.accepted) : Owner config s dsuid (.vdc vdc)
  | device (vdc : Vdc) (e : Entity) (accepted : vdc ∈ s.accepted)
      (held : s.host.device? vdc dsuid = some e) : Owner config s dsuid e

structure Owned (config : HostConfig) (s : Site) : Prop extends Roster s where
  owner : ∀ dsuid e, s.host.registry.find? dsuid = some e → Owner config s dsuid e

theorem owned_initial (config : HostConfig) (codec : BodyCodec) :
    Owned config (initial config codec) where
  toRoster := roster_initial config codec
  owner dsuid e found := by
    obtain ⟨-, rfl⟩ := find?_new.1 found
    exact .self

theorem Offers.owner (offers : Offers s op e) : Owner config (s.next op) e.dsuid e := by
  cases offers with
  | @vdc vdc added => exact .vdc vdc ((accepted_step s _ vdc).2 (Or.inr ⟨rfl, added⟩))
  | @held vdc _ added held =>
    have accepted := (accepted_step s (.addVdc vdc) vdc).2 (Or.inr ⟨rfl, added⟩)
    exact .device vdc e accepted ((device?_addVdc s.host vdc vdc e.dsuid).trans held)
  | @device vdc _ accepted free =>
    have still := (accepted_step s (.addDevice vdc e) vdc).2 (Or.inl accepted)
    have held := device?_addDevice s.host vdc vdc e e.dsuid
    rw [if_pos ⟨rfl, rfl, free⟩] at held
    exact .device vdc e still held

/-- An entry keeps its owner, since it goes when its owner gives it up. -/
theorem Owned.owner_next (h : Owned config s) (honest : Honest s op)
    (entry : (s.next op).host.registry.find? dsuid = some e) :
    Owner config (s.next op) dsuid e := by
  rcases registry_step h.toRoster honest dsuid with same | ⟨-, new, offers, own, filled⟩ |
    ⟨vdc, vacates⟩
  · have before := same ▸ entry
    cases h.owner dsuid e before with
    | self => exact .self
    | vdc vdc accepted => exact .vdc vdc ((accepted_step s op vdc).2 (Or.inl accepted))
    | device vdc _ accepted held =>
      have still := (accepted_step s op vdc).2 (Or.inl accepted)
      rcases h.held_step honest (h.accepted vdc accepted) held with kept | ⟨removed, -⟩
      · exact .device vdc e still kept
      · have vacates : Vacates s op vdc dsuid := ⟨removed, accepted, e, held, before⟩
        cases entry.symm.trans (vacates.next h.toRoster)
  · obtain rfl := Option.some.inj (entry.symm.trans filled)
    exact own ▸ offers.owner
  · cases entry.symm.trans (vacates.next h.toRoster)

theorem owned_step (h : Owned config s) (honest : Honest s op) : Owned config (s.next op) where
  toRoster := roster_step h.toRoster honest
  owner _ _ entry := h.owner_next honest entry

theorem reachable_owned (reachable : Reachable Honest config codec s) : Owned config s :=
  reachable_induction (owned_initial config codec) (fun _ _ h => owned_step h) reachable

def addsPlain : Operation → Bool
  | .addDevice _ device => device.kind = .device
  | _ => true

def Plain (s : Site) (op : Operation) : Prop := Honest s op ∧ addsPlain op = true

instance (s : Site) (op : Operation) : Decidable (Plain s op) :=
  inferInstanceAs (Decidable (_ ∧ _))

/-- Besides, the host is registered, vDCs hold devices only, and no vDC has been withdrawn. -/
structure Registered (config : HostConfig) (s : Site) : Prop extends Owned config s where
  plain : ∀ vdc dsuid e, s.host.device? vdc dsuid = some e → e.kind = .device
  none_withdrawn : s.withdrawn = []
  self : s.host.registry.find? config.hostDsuid = some (.host 0 config.hostDsuid config.name)

theorem registered_initial (config : HostConfig) (codec : BodyCodec) :
    Registered config (initial config codec) where
  toOwned := owned_initial config codec
  plain vdc dsuid e held := by cases held
  none_withdrawn := rfl
  self := find?_new.2 ⟨rfl, rfl⟩

theorem Registered.plain_next (h : Registered config s) (plain : Plain s op) {e : Entity}
    (held : (s.next op).host.device? vdc dsuid = some e) : e.kind = .device := by
  rcases device?_step s op vdc dsuid with same | ⟨owner, device, rfl, -, -, -, filled⟩ |
    ⟨-, -, -, gone⟩
  · exact h.plain vdc dsuid e (same ▸ held)
  · obtain rfl := Option.some.inj (held.symm.trans filled)
    simpa [addsPlain] using plain.2
  · cases held.symm.trans gone

theorem Registered.none_withdrawn_next (h : Registered config s) (op : Operation) :
    (s.next op).withdrawn = [] := by
  cases op with
  | removeDevice vdc dsuid =>
    simp only [next]
    split
    · rename_i device held
      cases h.plain vdc dsuid _ held
    · exact h.none_withdrawn
  | _ => exact h.none_withdrawn

theorem Registered.entry_next (h : Registered config s) (plain : Plain s op) {e : Entity}
    (entry : s.host.registry.find? dsuid = some e) (other : e.kind ≠ .device) :
    (s.next op).host.registry.find? dsuid = some e := by
  rcases registry_step h.toRoster plain.1 dsuid with same | ⟨free, -⟩ | ⟨vdc, vacates⟩
  · exact same.trans entry
  · cases entry.symm.trans free
  · obtain ⟨device, held, here⟩ := vacates.entry
    obtain rfl := Option.some.inj (entry.symm.trans here)
    exact absurd (h.plain vdc dsuid e held) other

/-- A device that is registered is held by an accepted vDC. -/
theorem Registered.owned (h : Registered config s) (dsuid : Dsuid) (e : Entity)
    (entry : s.host.registry.find? dsuid = some e) (device : e.kind = .device) :
    ∃ vdc ∈ s.accepted, s.host.device? vdc dsuid = some e := by
  cases h.owner dsuid e entry with
  | self | vdc => cases device
  | device vdc _ accepted held => exact ⟨vdc, accepted, held⟩

theorem registered_step (h : Registered config s) (plain : Plain s op) :
    Registered config (s.next op) where
  toOwned := owned_step h.toOwned plain.1
  plain _ _ _ held := h.plain_next plain held
  none_withdrawn := h.none_withdrawn_next op
  self := h.entry_next plain h.self (by simp [Entity.kind])

theorem reachable_registered (reachable : Reachable Plain config codec s) : Registered config s :=
  reachable_induction (registered_initial config codec) (fun _ _ h => registered_step h) reachable

/-- Where only plain devices are added to vDCs, each entry is registered under its own identifier,
the host and the accepted vDCs are registered, and a registered device is held by an accepted vDC
under the same identifier. No operation puts another entity in the place of one that is registered,
and only the removal of the very device frees the place. -/
theorem registry_under_churn (reachable : Reachable Plain config codec s) :
    (∀ dsuid e, s.host.registry.find? dsuid = some e → e.dsuid = dsuid) ∧
    s.host.registry.find? config.hostDsuid = some (.host 0 config.hostDsuid config.name) ∧
    (∀ vdc ∈ s.accepted, s.host.registry.find? vdc.dsuid = some (.vdc vdc)) ∧
    (∀ vdc, (s.host.addVdc vdc).1 = false →
      (s.next (.addVdc vdc)).host.registry = s.host.registry) ∧
    (∀ dsuid e, s.host.registry.find? dsuid = some e → e.kind = .device →
      ∃ vdc, (s.host.vdcState vdc.object).attached = true ∧ vdc ∈ s.accepted ∧
        s.host.device? vdc dsuid = some e) ∧
    ∀ op, Plain s op → ∀ dsuid,
      (s.next op).host.registry.find? dsuid = s.host.registry.find? dsuid ∨
      s.host.registry.find? dsuid = none ∨
      ∃ vdc device, op = .removeDevice vdc dsuid ∧ s.host.device? vdc dsuid = some device ∧
        s.host.registry.find? dsuid = some device ∧
        (s.next op).host.registry.find? dsuid = none := by
  have h := reachable_registered reachable
  refine ⟨fun dsuid e entry => (h.registered dsuid e entry).2, h.self, ?_, ?_, ?_, ?_⟩
  · intro vdc accepted
    refine h.kept vdc accepted ?_
    simp [Lasting, h.none_withdrawn]
  · intro vdc refused
    rw [next_host, perform, registry_addVdc, refused]
    rfl
  · intro dsuid e entry device
    obtain ⟨vdc, accepted, held⟩ := h.owned dsuid e entry device
    exact ⟨vdc, (h.attached_iff (h.accepted vdc accepted)).2 accepted, accepted, held⟩
  · intro op plain dsuid
    rcases registry_step h.toRoster plain.1 dsuid with same | ⟨free, -⟩ | ⟨vdc, vacates⟩
    · exact Or.inl same
    · exact Or.inr (Or.inl free)
    · obtain ⟨device, held, entry⟩ := vacates.entry
      exact Or.inr (Or.inr ⟨vdc, device, vacates.removes, held, entry, vacates.next h.toRoster⟩)

def twoLamps : List Operation :=
  [.create .vdc (.ofUuid 2) "hall", .create .vdc (.ofUuid 3) "stairs",
    .create .device (.ofUuid 4) "lamp", .create .device (.ofUuid 4) "other lamp",
    .addVdc ⟨1, .ofUuid 2, "hall"⟩,
    .addDevice ⟨1, .ofUuid 2, "hall"⟩ (.device 3 (.ofUuid 4) "lamp"),
    .addDevice ⟨2, .ofUuid 3, "stairs"⟩ (.device 4 (.ofUuid 4) "other lamp"),
    .addVdc ⟨2, .ofUuid 3, "stairs"⟩]

theorem registry_under_churn_two_lamps :
    Reachable Plain {} .json ((initial {} .json).run twoLamps) ∧
    ((initial {} .json).run twoLamps).host.registry.find? (.ofUuid 3) =
      some (.vdc ⟨2, .ofUuid 3, "stairs"⟩) ∧
    ∃ vdc ∈ ((initial {} .json).run twoLamps).accepted,
      ((initial {} .json).run twoLamps).host.device? vdc (.ofUuid 4) =
        some (.device 3 (.ofUuid 4) "lamp") := by
  have reachable : Reachable Plain {} .json ((initial {} .json).run twoLamps) :=
    Execution.run (.refl _) (by decide +kernel)
  obtain ⟨-, -, vdcs, -, devices, -⟩ := registry_under_churn reachable
  refine ⟨reachable, vdcs ⟨2, .ofUuid 3, "stairs"⟩ (by decide +kernel), ?_⟩
  obtain ⟨vdc, -, accepted, held⟩ := devices (.ofUuid 4) (.device 3 (.ofUuid 4) "lamp")
    (by decide +kernel) rfl
  exact ⟨vdc, accepted, held⟩

end Site

end DeviceConnector
