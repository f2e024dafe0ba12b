import DeviceConnector.Proofs.Host.Handling
import DeviceConnector.Proofs.Host.Site
/-!
# Which entities a host knows

Entities have identities of their own, so the entity behind an identity never changes. The registry
and the devices of the vDCs hold entities under their own identifiers, a vDC is attached exactly if
it has been accepted, and an accepted vDC stays registered until it is withdrawn.
-/

namespace DeviceConnector

namespace Host

variable {h h₁ h₂ h₃ : Host} {body : Bytes} {link : Link} {op : Operation}

/-- A new host has registered itself and nothing else. -/
theorem find?_new {config : HostConfig} {codec : BodyCodec} {dsuid : Dsuid} {e : Entity} :
    (Host.new config codec).registry.find? dsuid = some e ↔
      dsuid = config.hostDsuid ∧ e = .host 0 config.hostDsuid config.name := by
  have registry : (Host.new config codec).registry =
      Registry.add ∅ (.host 0 config.hostDsuid config.name) := rfl
  rw [registry, Registry.find?_add]
  by_cases own : dsuid = config.hostDsuid
  · simp [own, Entity.dsuid, eq_comm]
  · simp [own, Entity.dsuid]

structure SameRoster (h₁ h₂ : Host) : Prop where
  registry : h₂.registry = h₁.registry
  objects : h₂.objects = h₁.objects
  attached : ∀ object, (h₂.vdcState object).attached = (h₁.vdcState object).attached
  devices : ∀ object, (h₂.vdcState object).devices = (h₁.vdcState object).devices

theorem SameRoster.refl (h : Host) : SameRoster h h := ⟨rfl, rfl, fun _ => rfl, fun _ => rfl⟩

theorem SameRoster.trans (first : SameRoster h₁ h₂) (second : SameRoster h₂ h₃) :
    SameRoster h₁ h₃ where
  registry := second.registry.trans first.registry
  objects := second.objects.trans first.objects
  attached object := (second.attached object).trans (first.attached object)
  devices object := (second.devices object).trans (first.devices object)

theorem SentFrom.sameRoster (sent : SentFrom h₁ h₂) : SameRoster h₁ h₂ where
  registry := sent.registry
  objects := by rw [sent.rest]
  attached object := congrArg VdcState.attached (sent.vdcState object)
  devices object := congrArg VdcState.devices (sent.vdcState object)

theorem setConnected_sameRoster (h : Host) (object : ObjectId) (connected : Bool) :
    SameRoster h (h.setConnected object connected) := by
  refine ⟨rfl, rfl, fun other => ?_, fun other => ?_⟩
  · rw [setConnected, vdcState_updateVdc]
    split <;> rfl
  · rw [setConnected, vdcState_updateVdc]
    split <;> rfl

theorem disconnectVdcs_sameRoster (h : Host) : SameRoster h h.disconnectVdcs := by
  unfold disconnectVdcs
  generalize h.registry.vdcs = vdcs
  induction vdcs generalizing h with
  | nil => exact SameRoster.refl h
  | cons vdc vdcs ih => exact (setConnected_sameRoster h vdc.object false).trans (ih _)

theorem dismissed_sameRoster (h : Host) (m : Message) : SameRoster h (h.dismissed m) := by
  have told (entities : List Entity) : ∀ h : Host,
      SameRoster h (entities.foldl (tellBye · m) h) := by
    induction entities with
    | nil => exact SameRoster.refl
    | cons e entities ih =>
      intro h
      have first : SameRoster h (h.tellBye m e) := by
        cases e with
        | host | device => exact ⟨rfl, rfl, fun _ => rfl, fun _ => rfl⟩
        | vdc vdc =>
          have same := setConnected_sameRoster h vdc.object false
          exact ⟨same.registry, same.objects, same.attached, same.devices⟩
      exact first.trans (ih _)
  have loose : SameRoster h { h with session := none, attached := none } :=
    ⟨rfl, rfl, fun _ => rfl, fun _ => rfl⟩
  exact loose.trans (told h.registry.entities _)

theorem answered_sameRoster (h : Host) (id : MessageId) (callback : Callback)
    (response : GenericResponse) : SameRoster h (h.answered id callback response) := by
  cases callback with
  | application tag => exact ⟨rfl, rfl, fun _ => rfl, fun _ => rfl⟩
  | announcement vdc =>
    cases accepted : response.isOk with
    | false =>
      simp only [answered, runCallback, accepted]
      exact ⟨rfl, rfl, fun _ => rfl, fun _ => rfl⟩
    | true =>
      simp only [answered, runCallback, accepted, if_true]
      have same := setConnected_sameRoster { h with pending := h.pending.erase id } vdc true
      exact ⟨same.registry, same.objects, same.attached, same.devices⟩

theorem Handling.sameRoster {after : Host} (effect : Handling h body link after) :
    SameRoster h after := by
  cases effect with
  | silent | established | renewed => exact ⟨rfl, rfl, fun _ => rfl, fun _ => rfl⟩
  | ended m => exact dismissed_sameRoster h m
  | answered id request response => exact answered_sameRoster h id request.callback response

def Enlists : Operation → Prop
  | .create .. | .addVdc _ | .addDevice .. | .removeDevice .. => True
  | _ => False

/-- Everything else leaves the host with the entities that it knows. -/
theorem perform_sameRoster (h : Host) (other : ¬ Enlists op) : SameRoster h (h.perform op) := by
  cases op with
  | create | addVdc | addDevice | removeDevice => exact absurd trivial other
  | connect | closeQueue | wait => exact ⟨rfl, rfl, fun _ => rfl, fun _ => rfl⟩
  | frame link body =>
    obtain ⟨due, sent⟩ := processFrame_sentFrom h body link
    have handled := (handleBody_handling h body link).sameRoster
    have flushed : SameRoster (h.handleBody body link).2
        { (h.handleBody body link).2 with announcePending := due } :=
      ⟨rfl, rfl, fun _ => rfl, fun _ => rfl⟩
    exact (handled.trans flushed).trans sent.sameRoster
  | detach id =>
    rcases detach_cases h id with ⟨eq, -⟩ | ⟨-, eq⟩
    · simp only [perform, eq]
      exact SameRoster.refl h
    · simp only [perform, eq]
      have loose : SameRoster h { h with session := none, attached := none } :=
        ⟨rfl, rfl, fun _ => rfl, fun _ => rfl⟩
      exact loose.trans (disconnectVdcs_sameRoster _)
  | send m tag => exact (send_sentFrom h m (.application tag)).sameRoster
  | notify m =>
    simp only [perform]
    cases sent : h.notify m with
    | error e => exact SameRoster.refl h
    | ok h' => exact (notify_sentFrom sent).sameRoster
  | evict =>
    obtain ⟨pending, eq⟩ := evictExpired_eq h
    simp only [perform, eq]
    exact ⟨rfl, rfl, fun _ => rfl, fun _ => rfl⟩

end Host

namespace Site

open Host

variable {s : Site} {op : Operation}

/-- Operations are about entities that exist, and identifiers are derived from unique ids, as all
are that can be made or read. -/
def Honest (s : Site) : Operation → Prop
  | .create _ dsuid _ => dsuid.kind = .uuid
  | .addVdc vdc => .vdc vdc ∈ s.made
  | .addDevice vdc device => .vdc vdc ∈ s.made ∧ device ∈ s.made
  | .removeDevice vdc _ => .vdc vdc ∈ s.made
  | _ => True

instance (s : Site) : ∀ op, Decidable (Honest s op)
  | .create _ dsuid _ => inferInstanceAs (Decidable (dsuid.kind = .uuid))
  | .addVdc vdc | .removeDevice vdc _ => inferInstanceAs (Decidable (.vdc vdc ∈ s.made))
  | .addDevice vdc device =>
    inferInstanceAs (Decidable (.vdc vdc ∈ s.made ∧ device ∈ s.made))
  | .connect _ | .frame .. | .detach _ | .closeQueue _ | .send .. | .notify _ | .evict
  | .wait _ => isTrue trivial

structure Roster (s : Site) : Prop where
  objects : ∀ e ∈ s.made, e.object < s.host.objects
  identity : ∀ a ∈ s.made, ∀ b ∈ s.made, a.object = b.object → a = b
  uuids : ∀ vdc, .vdc vdc ∈ s.made → vdc.dsuid.kind = .uuid
  registered : ∀ dsuid e, s.host.registry.find? dsuid = some e → e ∈ s.made ∧ e.dsuid = dsuid
  held : ∀ object dsuid e, (s.host.vdcState object).devices.find? dsuid = some e →
    e ∈ s.made ∧ e.dsuid = dsuid
  accepted : ∀ vdc ∈ s.accepted, .vdc vdc ∈ s.made
  attached : ∀ object, (s.host.vdcState object).attached = true ↔
    ∃ vdc ∈ s.accepted, vdc.object = object
  kept : ∀ vdc ∈ s.accepted, s.Lasting vdc.dsuid →
    s.host.registry.find? vdc.dsuid = some (.vdc vdc)

theorem roster_initial (config : HostConfig) (codec : BodyCodec) :
    Roster (initial config codec) where
  objects := by simp [initial, Host.new, Entity.object]
  identity := by simp [initial]
  uuids := by simp [initial]
  registered dsuid e found := by
    obtain ⟨rfl, rfl⟩ := find?_new.1 found
    exact ⟨List.mem_cons_self .., rfl⟩
  held object dsuid e found := by cases found
  accepted := by simp [initial]
  attached object := by simp [initial, Host.new, vdcState]
  kept := by simp [initial]

theorem roster_of_same (h : Roster s) (other : ¬ Enlists op) : Roster (s.next op) := by
  have same := perform_sameRoster s.host other
  have past : (s.next op).made = s.made ∧ (s.next op).accepted = s.accepted ∧
      (s.next op).withdrawn = s.withdrawn := by
    cases op with
    | create | addVdc | addDevice | removeDevice => exact absurd trivial other
    | _ => exact ⟨rfl, rfl, rfl⟩
  obtain ⟨made, accepted, withdrawn⟩ := past
  constructor
  · rw [made, next_host, same.objects]; exact h.objects
  · rw [made]; exact h.identity
  · rw [made]; exact h.uuids
  · rw [made, next_host, same.registry]; exact h.registered
  · intro object dsuid e found
    rw [next_host, same.devices] at found
    rw [made]
    exact h.held object dsuid e found
  · rw [made, accepted]; exact h.accepted
  · intro object
    rw [next_host, same.attached, accepted]
    exact h.attached object
  · rw [accepted, next_host, same.registry]
    simpa only [Lasting, withdrawn] using h.kept

theorem roster_create (h : Roster s) (kind : EntityKind) (dsuid : Dsuid) (name : String)
    (derived : dsuid.kind = .uuid) : Roster (s.next (.create kind dsuid name)) := by
  have object : (Entity.ofKind kind s.host.objects dsuid name).object = s.host.objects := by
    cases kind <;> rfl
  have fresh : ∀ e ∈ s.made, e.object ≠ (Entity.ofKind kind s.host.objects dsuid name).object := by
    intro e mem
    rw [object]
    exact Nat.ne_of_lt (h.objects e mem)
  constructor
  · intro e mem
    change e.object < s.host.objects + 1
    rcases List.mem_cons.1 mem with rfl | mem
    · rw [object]
      exact Nat.lt_succ_self _
    · exact Nat.lt_succ_of_lt (h.objects e mem)
  · intro a ha b hb same
    rcases List.mem_cons.1 ha with rfl | ha
    · rcases List.mem_cons.1 hb with rfl | hb
      · rfl
      · exact absurd same.symm (fresh b hb)
    · rcases List.mem_cons.1 hb with rfl | hb
      · exact absurd same (fresh a ha)
      · exact h.identity a ha b hb same
  · intro vdc mem
    rcases List.mem_cons.1 mem with new | mem
    · cases kind with
      | vdc =>
        obtain rfl := Entity.vdc.inj new
        exact derived
      | host | device => cases new
    · exact h.uuids vdc mem
  · intro d e found
    obtain ⟨mem, own⟩ := h.registered d e found
    exact ⟨List.mem_cons_of_mem _ mem, own⟩
  · intro object d e found
    obtain ⟨mem, own⟩ := h.held object d e found
    exact ⟨List.mem_cons_of_mem _ mem, own⟩
  · intro vdc mem
    exact List.mem_cons_of_mem _ (h.accepted vdc mem)
  · exact h.attached
  · exact h.kept

theorem roster_addVdc (h : Roster s) (vdc : Vdc) (made : .vdc vdc ∈ s.made) :
    Roster (s.next (.addVdc vdc)) := by
  rcases addVdc_sentFrom s.host vdc with ⟨-, eq⟩ | ⟨free, added, sent⟩
  · have same : s.next (.addVdc vdc) = { s.next (.addVdc vdc) with
        host := s.host, accepted := s.accepted } := by
      simp [next, perform, eq]
    rw [same]
    exact ⟨h.objects, h.identity, h.uuids, h.registered, h.held, h.accepted, h.attached, h.kept⟩
  · have accepted : (s.next (.addVdc vdc)).accepted = vdc :: s.accepted := by simp [next, added]
    have roster : SameRoster (s.host.admitted vdc) (s.next (.addVdc vdc)).host := sent.sameRoster
    have registry : (s.next (.addVdc vdc)).host.registry =
        (s.host.devices vdc).foldl Registry.add (s.host.registry.add (.vdc vdc)) := roster.registry
    have empty : s.host.registry.find? vdc.dsuid = none := by simpa [Table.contains] using free
    have taken : (s.host.registry.add (.vdc vdc)).find? vdc.dsuid = some (.vdc vdc) := by
      rw [Registry.find?_add, if_pos ⟨rfl, empty⟩]
    constructor
    · rw [roster.objects]; exact h.objects
    · exact h.identity
    · exact h.uuids
    · intro dsuid e found
      rw [registry] at found
      rcases Registry.find?_foldl_add found with before | ⟨mem, own⟩
      · rw [Registry.find?_add] at before
        split at before
        · rename_i new
          obtain rfl := Option.some.inj before
          exact ⟨made, new.1.symm⟩
        · exact h.registered dsuid e before
      · obtain ⟨key, found⟩ := Table.mem_values.1 mem
        exact ⟨(h.held _ key e found).1, own⟩
    · intro object dsuid e found
      rw [roster.devices, vdcState_admitted] at found
      apply h.held object dsuid e
      split at found <;> exact found
    · intro other mem
      rw [accepted] at mem
      rcases List.mem_cons.1 mem with rfl | mem
      · exact made
      · exact h.accepted other mem
    · intro object
      rw [roster.attached, vdcState_admitted, accepted]
      by_cases same : object = vdc.object
      · simp [same]
      · simp [same, Ne.symm same, h.attached object]
    · intro other mem lasting
      rw [accepted] at mem
      rw [registry]
      apply Registry.find?_foldl_add_of_found
      rcases List.mem_cons.1 mem with rfl | mem
      · exact taken
      · have before := h.kept other mem lasting
        rw [Registry.find?_add, if_neg (by simp [before]), before]

theorem roster_addDevice (h : Roster s) (vdc : Vdc) (device : Entity) (made : device ∈ s.made) :
    Roster (s.next (.addDevice vdc device)) := by
  have held (object : ObjectId) (dsuid : Dsuid) (e : Entity)
      (found : ((s.host.holding vdc device).vdcState object).devices.find? dsuid = some e) :
      e ∈ s.made ∧ e.dsuid = dsuid := by
    rw [vdcState_holding] at found
    split at found
    · by_cases same : dsuid = device.dsuid
      · subst same
        rw [Table.find?_insert_self] at found
        obtain rfl := Option.some.inj found
        exact ⟨made, rfl⟩
      · rw [Table.find?_insert_of_ne _ same] at found
        exact h.held object dsuid e found
    · exact h.held object dsuid e found
  have attached (object : ObjectId) :
      ((s.host.holding vdc device).vdcState object).attached = true ↔
        ∃ vdc ∈ s.accepted, vdc.object = object := by
    rw [vdcState_holding, ← h.attached object]
    split <;> rfl
  have host : (s.next (.addDevice vdc device)).host = (s.host.addDevice vdc device).2 := rfl
  rcases addDevice_cases s.host vdc device with eq | eq | eq
  · rw [eq] at host
    have same : s.next (.addDevice vdc device) =
        { s.next (.addDevice vdc device) with host := s.host } := by rw [← host]
    rw [same]
    exact ⟨h.objects, h.identity, h.uuids, h.registered, h.held, h.accepted, h.attached, h.kept⟩
  · rw [eq] at host
    have same : s.next (.addDevice vdc device) =
        { s.next (.addDevice vdc device) with host := s.host.holding vdc device } := by rw [← host]
    rw [same]
    exact ⟨h.objects, h.identity, h.uuids, h.registered, held, h.accepted, attached, h.kept⟩
  · rw [eq] at host
    have same : s.next (.addDevice vdc device) = { s.next (.addDevice vdc device) with
        host := { s.host.holding vdc device with registry := s.host.registry.add device } } := by
      rw [← host]
    rw [same]
    refine ⟨h.objects, h.identity, h.uuids, ?_, held, h.accepted, attached, ?_⟩
    · intro dsuid e found
      change (s.host.registry.add device).find? dsuid = some e at found
      rw [Registry.find?_add] at found
      split at found
      · rename_i new
        obtain rfl := Option.some.inj found
        exact ⟨made, new.1.symm⟩
      · exact h.registered dsuid e found
    · intro other mem lasting
      have before := h.kept other mem lasting
      change (s.host.registry.add device).find? other.dsuid = _
      rw [Registry.find?_add, if_neg (by simp [before]), before]

theorem mem_withdrawn_next {gone : Vdc} (mem : gone ∈ s.withdrawn) (op : Operation) :
    gone ∈ (s.next op).withdrawn := by
  cases op with
  | removeDevice vdc dsuid =>
    simp only [next]
    split
    · split
      · exact List.mem_cons_of_mem _ mem
      · exact mem
    · exact mem
  | _ => exact mem

theorem mem_withdrawn_of_removed {vdc device : Vdc} {dsuid : Dsuid}
    (found : s.host.device? vdc dsuid = some (.vdc device))
    (owned : (s.host.vdcState vdc.object).attached = true) (accepted : device ∈ s.accepted) :
    device ∈ (s.next (.removeDevice vdc dsuid)).withdrawn := by
  simp [next, found, owned, accepted]

theorem roster_removeDevice (h : Roster s) (vdc : Vdc) (dsuid : Dsuid) :
    Roster (s.next (.removeDevice vdc dsuid)) := by
  have before (other : Vdc) (mem : other ∈ s.accepted)
      (lasting : (s.next (.removeDevice vdc dsuid)).Lasting other.dsuid) :
      s.host.registry.find? other.dsuid = some (.vdc other) :=
    h.kept other mem fun gone here => lasting gone (mem_withdrawn_next here _)
  rcases removeDevice_cases s.host vdc dsuid with eq | ⟨device, h', registry, found, sent, left, eq⟩
  · have host : (s.next (.removeDevice vdc dsuid)).host = s.host := congrArg Prod.snd eq
    have same : s.next (.removeDevice vdc dsuid) =
        { s.next (.removeDevice vdc dsuid) with host := s.host } := by rw [← host]
    rw [same]
    exact ⟨h.objects, h.identity, h.uuids, h.registered, h.held, h.accepted, h.attached, before⟩
  · have host : (s.next (.removeDevice vdc dsuid)).host = { h' with registry } :=
      congrArg Prod.snd eq
    have roster : SameRoster (s.host.without vdc dsuid) h' := sent.sameRoster
    have same : s.next (.removeDevice vdc dsuid) =
        { s.next (.removeDevice vdc dsuid) with host := { h' with registry } } := by rw [← host]
    rw [same]
    constructor
    · intro e mem
      change e.object < h'.objects
      rw [roster.objects]
      exact h.objects e mem
    · exact h.identity
    · exact h.uuids
    · intro d e there
      change registry.find? d = some e at there
      rcases left with rfl | ⟨-, rfl⟩
      · exact h.registered d e there
      · exact h.registered d e (Registry.find?_removeIfSame.1 there).1
    · intro object d e there
      change (h'.vdcState object).devices.find? d = some e at there
      rw [roster.devices, vdcState_without] at there
      split at there
      · exact h.held object d e (Table.find?_erase there).2
      · exact h.held object d e there
    · exact h.accepted
    · intro object
      refine Iff.trans ?_ (h.attached object)
      change (h'.vdcState object).attached = true ↔ _
      rw [roster.attached, vdcState_without]
      split <;> rfl
    · intro other mem lasting
      have there := before other mem lasting
      change registry.find? other.dsuid = _
      rcases left with rfl | ⟨owned, rfl⟩
      · exact there
      · refine Registry.find?_removeIfSame.2 ⟨there, ?_⟩
        rintro ⟨own, identical⟩
        obtain rfl := h.identity _ (h.accepted other mem) device
          (h.held vdc.object dsuid device found).1 identical
        exact lasting other (mem_withdrawn_of_removed found owned mem) rfl

theorem roster_step (h : Roster s) (honest : Honest s op) : Roster (s.next op) := by
  by_cases enlists : Enlists op
  · cases op with
    | create kind dsuid name => exact roster_create h kind dsuid name honest
    | addVdc vdc => exact roster_addVdc h vdc honest
    | addDevice vdc device => exact roster_addDevice h vdc device honest.2
    | removeDevice vdc dsuid => exact roster_removeDevice h vdc dsuid
    | _ => exact enlists.elim
  · exact roster_of_same h enlists

end Site

end DeviceConnector
