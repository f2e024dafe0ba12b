import DeviceConnector.Proofs.Host.Registration
/-!
# Which devices can be addressed

A device that is offered to the registry while another entity has its identifier is passed over, and
that is not made up for when the identifier becomes free. So the devices of accepted vDCs that
cannot be addressed are those that lost to a device of another vDC which has been removed since,
with nothing registered in its place.
-/

namespace DeviceConnector.Site

open Host

variable {s : Site} {op : Operation} {vdc : Vdc} {dsuid : Dsuid} {device : Entity}

/-- A device that is new to an accepted vDC finds its identifier taken, or takes it. -/
theorem taken_of_addDevice (h : Roster s) (accepted : vdc ∈ s.accepted)
    (missing : s.host.device? vdc device.dsuid = none) :
    ∃ e, (s.next (.addDevice vdc device)).host.registry.find? device.dsuid = some e := by
  have attached := (h.attached_iff (h.accepted vdc accepted)).2 accepted
  have registry := registry_addDevice s.host vdc device
  rw [if_pos ⟨missing, attached⟩] at registry
  rw [next_host, perform, registry]
  exact Registry.contains_foldl_add (List.mem_singleton_self device)

theorem taken_of_addVdc (h : Roster s) (added : (s.host.addVdc vdc).1 = true)
    (held : s.host.device? vdc dsuid = some device) :
    ∃ e, (s.next (.addVdc vdc)).host.registry.find? dsuid = some e := by
  have registry := registry_addVdc s.host vdc
  rw [if_pos added] at registry
  have mem : device ∈ s.host.devices vdc := Table.mem_values.2 ⟨dsuid, held⟩
  rw [next_host, perform, registry, ← (h.held vdc.object dsuid device held).2]
  exact Registry.contains_foldl_add (List.mem_cons_of_mem _ mem)

/-- An accepted vDC whose device is not registered after a step had the device before. It was not
registered then either, or the step removes the registered device from another vDC. -/
theorem unregistered_step (h : Roster s) (honest : Honest s op)
    (accepted : vdc ∈ (s.next op).accepted)
    (held : (s.next op).host.device? vdc dsuid = some device)
    (free : (s.next op).host.registry.find? dsuid = none) :
    vdc ∈ s.accepted ∧ s.host.device? vdc dsuid = some device ∧
      (s.host.registry.find? dsuid = none ∨
        ∃ other, other ≠ vdc ∧ Vacates s op other dsuid) := by
  rcases (accepted_step s op vdc).1 accepted with before | ⟨rfl, added⟩
  · rcases device?_step s op vdc dsuid with
      same | ⟨owner, e, rfl, own, rfl, missing, -⟩ | ⟨-, -, -, gone⟩
    · refine ⟨before, same ▸ held, ?_⟩
      rcases registry_step h honest dsuid with kept | ⟨empty, -⟩ | ⟨other, vacates⟩
      · exact Or.inl (kept ▸ free)
      · exact Or.inl empty
      · refine Or.inr ⟨other, ?_, vacates⟩
        rintro rfl
        -- otherwise the vDC itself has lost its device
        have gone := device?_removeDevice s.host other other dsuid dsuid
        rw [if_pos ⟨rfl, rfl⟩] at gone
        rw [vacates.removes] at held
        cases held.symm.trans gone
    · have equal := h.identity _ (h.accepted vdc before) _ honest.1 own
      obtain rfl := Entity.vdc.inj equal
      obtain ⟨e, taken⟩ := taken_of_addDevice h before missing
      cases free.symm.trans taken
    · cases held.symm.trans gone
  · have before : s.host.device? vdc dsuid = some device :=
      (device?_addVdc s.host vdc vdc dsuid).symm.trans held
    obtain ⟨e, taken⟩ := taken_of_addVdc h added before
    cases free.symm.trans taken

/-- The operation in that place removes the registered device of an identifier from another vDC
while this one has a device under it as well, and nothing has been registered under it since. -/
structure Orphaned (s : Site) (operations : List Operation) (place count : Nat) (vdc : Vdc)
    (dsuid : Dsuid) (device : Entity) : Prop where
  before : place < count
  vacated : ∃ op other, operations[place]? = some op ∧ other ≠ vdc ∧
    Vacates (s.after operations place) op other dsuid
  accepted : vdc ∈ (s.after operations place).accepted
  held : (s.after operations place).host.device? vdc dsuid = some device
  lasting : ∀ later, place < later → later ≤ count →
    (s.after operations later).host.registry.find? dsuid = none

variable {config : HostConfig} {codec : BodyCodec} {operations : List Operation} {count place : Nat}

theorem Orphaned.succ (orphaned : Orphaned s operations place count vdc dsuid device)
    (free : (s.after operations (count + 1)).host.registry.find? dsuid = none) :
    Orphaned s operations place (count + 1) vdc dsuid device := by
  refine ⟨Nat.lt_succ_of_lt orphaned.before, orphaned.vacated, orphaned.accepted, orphaned.held, ?_⟩
  intro later since upTo
  by_cases last : later = count + 1
  · rw [last]
    exact free
  · exact orphaned.lasting later since (by omega)

theorem roster_after (obeyed : Obeys Honest (initial config codec) operations) (count : Nat) :
    Roster ((initial config codec).after operations count) :=
  reachable_induction (roster_initial config codec) (fun _ _ h => roster_step h)
    (obeyed.reachable count)

theorem orphaned_of_unregistered (obeyed : Obeys Honest (initial config codec) operations)
    (accepted : vdc ∈ ((initial config codec).after operations count).accepted)
    (held : ((initial config codec).after operations count).host.device? vdc dsuid = some device)
    (free : ((initial config codec).after operations count).host.registry.find? dsuid = none) :
    ∃ place, Orphaned (initial config codec) operations place count vdc dsuid device := by
  induction count with
  | zero => cases accepted
  | succ count ih =>
    cases here : operations[count]? with
    | none =>
      have still := free
      rw [after_beyond here] at accepted held still
      obtain ⟨place, orphaned⟩ := ih accepted held still
      exact ⟨place, orphaned.succ free⟩
    | some op =>
      have still := free
      rw [after_succ here] at accepted held still
      obtain ⟨accepted', held', reason⟩ :=
        unregistered_step (roster_after obeyed count) (obeyed.there here) accepted held still
      rcases reason with empty | ⟨other, ne, vacates⟩
      · obtain ⟨place, orphaned⟩ := ih accepted' held' empty
        exact ⟨place, orphaned.succ free⟩
      · refine ⟨count, Nat.lt_succ_self _, ⟨op, other, here, ne, vacates⟩, accepted', held', ?_⟩
        intro later since upTo
        obtain rfl : later = count + 1 := by omega
        exact free

theorem receivePing_of_found {h : Host} {request : Message} {e : Entity}
    (target : request.ping.bind EntityRef.target? = some dsuid)
    (found : h.registry.find? dsuid = some e) :
    h.receivePing request = some (.pongOf e.dsuid) := by
  obtain ⟨ref, ping, named⟩ := Option.bind_eq_some_iff.1 target
  simp [receivePing, ping, named, found, Entity.pong?]

theorem receivePing_of_missing {h : Host} {request : Message}
    (target : request.ping.bind EntityRef.target? = some dsuid)
    (missing : h.registry.find? dsuid = none) : h.receivePing request = none := by
  simp [receivePing, target, missing]

/-- A device of an accepted vDC has an identifier that is registered, so that whoever is registered
answers a ping, unless the registered device has been removed from another vDC since this one has
its own and nothing has been registered in the meantime. -/
theorem addressable_unless_orphaned (obeyed : Obeys Honest (initial config codec) operations)
    (accepted : vdc ∈ ((initial config codec).after operations count).accepted)
    (held : ((initial config codec).after operations count).host.device? vdc dsuid = some device) :
    ((∃ e, ((initial config codec).after operations count).host.registry.find? dsuid = some e) ↔
      ¬ ∃ place, Orphaned (initial config codec) operations place count vdc dsuid device) ∧
    ∀ request, request.ping.bind EntityRef.target? = some dsuid →
      (((initial config codec).after operations count).host.receivePing request =
          some (.pongOf dsuid) ↔
        ¬ ∃ place, Orphaned (initial config codec) operations place count vdc dsuid device) := by
  have registered :
      (∃ e, ((initial config codec).after operations count).host.registry.find? dsuid = some e) ↔
        ¬ ∃ place, Orphaned (initial config codec) operations place count vdc dsuid device := by
    constructor
    · rintro ⟨e, found⟩ ⟨place, orphaned⟩
      cases found.symm.trans (orphaned.lasting count orphaned.before (Nat.le_refl _))
    · intro sheltered
      refine Option.ne_none_iff_exists'.1 fun free => sheltered ?_
      exact orphaned_of_unregistered obeyed accepted held free
  refine ⟨registered, ?_⟩
  intro request target
  rw [← registered]
  cases entry : ((initial config codec).after operations count).host.registry.find? dsuid with
  | none => simp [receivePing_of_missing target entry]
  | some e =>
    have own : e.dsuid = dsuid := ((roster_after obeyed count).registered dsuid e entry).2
    rw [receivePing_of_found target entry, own]
    simp

theorem addressable_unless_orphaned_two_lamps :
    Obeys Honest (initial {} .json) twoLamps ∧
    ((initial {} .json).after twoLamps 8).host.receivePing (.pingOf (.ofUuid 4)) =
      some (.pongOf (.ofUuid 4)) := by
  have obeyed : Obeys Honest (initial {} .json) twoLamps := by decide +kernel
  have accepted : ⟨2, .ofUuid 3, "stairs"⟩ ∈ ((initial {} .json).after twoLamps 8).accepted := by
    decide +kernel
  have held : ((initial {} .json).after twoLamps 8).host.device? ⟨2, .ofUuid 3, "stairs"⟩
      (.ofUuid 4) = some (.device 4 (.ofUuid 4) "other lamp") := by decide +kernel
  have entry : ((initial {} .json).after twoLamps 8).host.registry.find? (.ofUuid 4) =
      some (.device 3 (.ofUuid 4) "lamp") := by decide +kernel
  obtain ⟨registered, answered⟩ := addressable_unless_orphaned obeyed accepted held
  have sheltered := registered.1 ⟨_, entry⟩
  exact ⟨obeyed, (answered (.pingOf (.ofUuid 4)) (by decide +kernel)).2 sheltered⟩

def lostLamp : List Operation := twoLamps ++ [.removeDevice ⟨1, .ofUuid 2, "hall"⟩ (.ofUuid 4)]

theorem unanswered_lamp :
    Reachable Plain {} .json ((initial {} .json).run lostLamp) ∧
    ⟨2, .ofUuid 3, "stairs"⟩ ∈ ((initial {} .json).run lostLamp).accepted ∧
    (((initial {} .json).run lostLamp).host.vdcState 2).attached = true ∧
    ((initial {} .json).run lostLamp).host.device? ⟨2, .ofUuid 3, "stairs"⟩ (.ofUuid 4) =
      some (.device 4 (.ofUuid 4) "other lamp") ∧
    ((initial {} .json).run lostLamp).host.registry.find? (.ofUuid 4) = none ∧
    ((initial {} .json).run lostLamp).host.receivePing (.pingOf (.ofUuid 4)) = none :=
  ⟨Execution.run (.refl _) (by decide +kernel), by decide +kernel⟩

end DeviceConnector.Site
