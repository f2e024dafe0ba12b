import DeviceConnector.Proofs.Host.SessionLink
/-!
# When a vDC counts as connected

A vDC counts as connected from the acceptance of its announcement to the end of the session. The end
of a session resets every registered vDC, but a request for announcement outlives the session it was
made in. So outside sessions a registered vDC counts as connected only after an acceptance that came
late, or because it had been so when it was registered.
-/

namespace DeviceConnector.Host

variable {h : Host} {body : Bytes} {link : Link} {m : Message} {op : Operation}

theorem isVdcConnected_setConnected (object other : ObjectId) (connected : Bool) :
    (h.setConnected object connected).isVdcConnected other =
      if other = object then connected else h.isVdcConnected other := by
  unfold isVdcConnected setConnected
  rw [vdcState_updateVdc]
  split <;> rfl

/-- The end of a connection resets the registered vDCs and no others. -/
theorem disconnectVdcs_connected (h : Host) (object : ObjectId) :
    h.disconnectVdcs.isVdcConnected object = true ↔
      h.isVdcConnected object = true ∧ ∀ vdc ∈ h.registry.vdcs, vdc.object ≠ object := by
  unfold disconnectVdcs
  generalize h.registry.vdcs = vdcs
  induction vdcs generalizing h with
  | nil => simp
  | cons vdc vdcs ih =>
    rw [List.foldl_cons, ih, isVdcConnected_setConnected]
    by_cases same : object = vdc.object
    · simp [same]
    · simp [same, Ne.symm same]

theorem isVdcConnected_tellBye (e : Entity) (object : ObjectId) :
    (h.tellBye m e).isVdcConnected object = true ↔
      h.isVdcConnected object = true ∧ ∀ vdc, e.vdc? = some vdc → vdc.object ≠ object := by
  cases e with
  | host | device => simp [tellBye, Entity.vdc?, isVdcConnected, vdcState]
  | vdc vdc =>
    have told : (h.tellBye m (.vdc vdc)).isVdcConnected object =
        (h.setConnected vdc.object false).isVdcConnected object := rfl
    rw [told, isVdcConnected_setConnected]
    by_cases same : object = vdc.object
    · simp [Entity.vdc?, same]
    · simp [Entity.vdc?, same, Ne.symm same]

/-- A bye that ends the session resets the registered vDCs and no others. -/
theorem dismissed_connected (h : Host) (m : Message) (object : ObjectId) :
    (h.dismissed m).isVdcConnected object = true ↔
      h.isVdcConnected object = true ∧ ∀ vdc ∈ h.registry.vdcs, vdc.object ≠ object := by
  have told (entities : List Entity) : ∀ h : Host,
      ((entities.foldl (tellBye · m) h).isVdcConnected object = true ↔
        h.isVdcConnected object = true ∧
          ∀ vdc ∈ entities.filterMap Entity.vdc?, vdc.object ≠ object) := by
    induction entities with
    | nil => simp
    | cons e entities ih =>
      intro h
      rw [List.foldl_cons, ih, isVdcConnected_tellBye]
      cases e <;> simp [Entity.vdc?, and_assoc]
  exact told h.registry.entities _

theorem answered_connected (h : Host) (id : MessageId) (callback : Callback)
    (response : GenericResponse) (object : ObjectId) :
    (h.answered id callback response).isVdcConnected object = true ↔
      h.isVdcConnected object = true ∨
        callback = .announcement object ∧ response.isOk = true := by
  cases callback with
  | application tag => simp [answered, runCallback, isVdcConnected, vdcState]
  | announcement vdc =>
    cases accepted : response.isOk with
    | false => simp [answered, runCallback, accepted, isVdcConnected, vdcState]
    | true =>
      have effect : (h.answered id (.announcement vdc) response).isVdcConnected object =
          (h.setConnected vdc true).isVdcConnected object := by
        simp [answered, runCallback, accepted, setConnected, updateVdc, isVdcConnected, vdcState]
      rw [effect, isVdcConnected_setConnected]
      by_cases same : object = vdc
      · simp [same]
      · simp [same, Ne.symm same]

/-- Traffic leaves the registry alone. -/
theorem perform_registry (traffic : IsTraffic op) : (h.perform op).registry = h.registry := by
  cases op with
  | frame link body =>
    obtain ⟨due, sent⟩ := processFrame_sentFrom h body link
    exact sent.registry.trans (handleBody_handling h body link).registry
  | detach id =>
    rcases detach_cases h id with ⟨eq, -⟩ | ⟨-, eq⟩
    · simp [perform, eq]
    · obtain ⟨vdcStates, same⟩ := disconnectVdcs_eq { h with session := none, attached := none }
      simp only [perform, eq, same]
  | _ => exact traffic.elim

def Faithful (h : Host) : Prop :=
  h.session = none → ∀ vdc ∈ h.registry.vdcs, h.isVdcConnected vdc.object = false

/-- The announcement of a registered vDC is accepted when there is no session. -/
def LateAcceptance (h : Host) : Operation → Prop
  | .frame _ body => h.session = none ∧ ∃ id request response vdc,
      h.Answers body id request response ∧ response.isOk = true ∧
      request.callback = .announcement vdc.object ∧ vdc ∈ h.registry.vdcs
  | _ => False

/-- A vDC that counts as connected becomes registered when there is no session. -/
def StaleEntry (h : Host) (op : Operation) : Prop :=
  h.session = none ∧ ∃ vdc, vdc ∈ (h.perform op).registry.vdcs ∧ vdc ∉ h.registry.vdcs ∧
    h.isVdcConnected vdc.object = true

theorem faithful_new (config : HostConfig) (codec : BodyCodec) :
    (Host.new config codec).Faithful := fun _ _ _ => rfl

/-- Handling a body keeps a host faithful unless it accepts an announcement late. -/
theorem Handling.faithful {after : Host} (effect : Handling h body link after)
    (faithful : h.Faithful) (timely : ¬ LateAcceptance h (.frame link body)) : after.Faithful := by
  intro free vdc registered
  rw [effect.registry] at registered
  cases effect with
  | silent => exact faithful free vdc registered
  | established => cases free
  | renewed session renews => cases renews.held.symm.trans free
  | ended m =>
    rw [Bool.eq_false_iff]
    intro connected
    exact ((dismissed_connected h m vdc.object).1 connected).2 vdc registered rfl
  | answered id request response answers =>
    have gone : h.session = none := by
      obtain ⟨vdcStates, answers, eq⟩ := answered_eq h id request.callback response
      rw [eq] at free
      exact free
    rw [Bool.eq_false_iff]
    intro connected
    rcases (answered_connected h id request.callback response vdc.object).1 connected with
      before | ⟨announced, accepted⟩
    · rw [faithful gone vdc registered] at before
      cases before
    · exact timely ⟨gone, id, request, response, vdc, answers, accepted, announced, registered⟩

theorem not_faithful_of_late (late : LateAcceptance h op) : ¬ (h.perform op).Faithful := by
  intro faithful
  cases op with
  | frame link body =>
    obtain ⟨free, id, request, response, vdc, answers, accepted, announced, registered⟩ := late
    have effect : (h.handleBody body link).2 = h.answered id request.callback response :=
      answers.handleBody
    obtain ⟨due, sent⟩ := processFrame_sentFrom h body link
    have gone : (h.perform (.frame link body)).session = none := by
      have peer := (answered_peer h id request.callback response).1
      rw [peer_eq_none.2 free, ← effect, ← (frame_peer h link body).1] at peer
      exact peer_eq_none.1 peer
    have kept := perform_registry (h := h) (show IsTraffic (.frame link body) from trivial)
    have reset := faithful gone vdc (kept ▸ registered)
    have set : (h.perform (.frame link body)).isVdcConnected vdc.object = true := by
      have connected := (answered_connected h id request.callback response vdc.object).2
        (Or.inr ⟨announced, accepted⟩)
      rw [← effect] at connected
      exact (sent.undisturbed.connected vdc.object).trans connected
    cases set.symm.trans reset
  | _ => exact late

/-- A faithful host stays so unless an announcement is accepted late, or a vDC is registered that
counts as connected. -/
theorem faithful_step (faithful : h.Faithful) :
    (h.perform op).Faithful ↔ ¬ LateAcceptance h op ∧ ¬ StaleEntry h op := by
  constructor
  · intro after
    refine ⟨fun late => not_faithful_of_late late after, ?_⟩
    rintro ⟨free, vdc, registered, fresh, connected⟩
    have quiet : ¬ IsTraffic op := by
      intro traffic
      rw [perform_registry traffic] at registered
      exact fresh registered
    have gone : (h.perform op).session = none := by
      have peer := (perform_undisturbed (h := h) quiet).peer
      rw [peer_eq_none.2 free] at peer
      exact peer_eq_none.1 peer
    have reset := after gone vdc registered
    rw [(perform_undisturbed quiet).connected, connected] at reset
    cases reset
  · rintro ⟨timely, clean⟩ free vdc registered
    by_cases traffic : IsTraffic op
    · cases op with
      | frame link body =>
        obtain ⟨due, sent⟩ := processFrame_sentFrom h body link
        have handled := (handleBody_handling h body link).faithful faithful timely
        have gone : (h.handleBody body link).2.session = none := by
          rw [← peer_eq_none, ← (frame_peer h link body).1]
          exact peer_eq_none.2 free
        have kept : (h.handleBody body link).2.registry = (h.perform (.frame link body)).registry :=
          sent.registry.symm
        exact (sent.undisturbed.connected vdc.object).trans (handled gone vdc (kept ▸ registered))
      | detach id =>
        rcases detach_cases h id with ⟨eq, -⟩ | ⟨-, eq⟩
        · simp only [perform, eq] at free registered ⊢
          exact faithful free vdc registered
        · have kept := perform_registry (h := h) traffic
          rw [kept] at registered
          rw [Bool.eq_false_iff]
          intro connected
          simp only [perform, eq] at connected
          exact ((disconnectVdcs_connected _ vdc.object).1 connected).2 vdc registered rfl
      | _ => exact traffic.elim
    · have gone : h.session = none := by
        rw [← peer_eq_none, ← (perform_undisturbed traffic).peer]
        exact peer_eq_none.2 free
      rw [(perform_undisturbed traffic).connected]
      by_cases before : vdc ∈ h.registry.vdcs
      · exact faithful gone vdc before
      · rw [Bool.eq_false_iff]
        intro connected
        exact clean ⟨gone, vdc, registered, before, connected⟩

/-- Throughout a run no registered vDC counts as connected without a session, exactly if no
announcement is accepted after its session and no vDC is registered while it counts as connected. -/
theorem connected_only_in_session (config : HostConfig) (codec : BodyCodec)
    (operations : List Operation) :
    (∀ count, ((Host.new config codec).run (operations.take count)).Faithful) ↔
    ∀ count op, operations[count]? = some op →
      ¬ LateAcceptance ((Host.new config codec).run (operations.take count)) op ∧
      ¬ StaleEntry ((Host.new config codec).run (operations.take count)) op := by
  have further {count : Nat} {op : Operation} (here : operations[count]? = some op) :
      (Host.new config codec).run (operations.take (count + 1)) =
        ((Host.new config codec).run (operations.take count)).perform op := by
    rw [List.take_add_one, here]
    exact List.foldl_append ..
  constructor
  · intro faithful count op here
    have after := faithful (count + 1)
    rw [further here] at after
    exact (faithful_step (faithful count)).1 after
  · intro allowed count
    induction count with
    | zero => exact faithful_new config codec
    | succ count ih =>
      cases here : operations[count]? with
      | none =>
        rw [List.take_add_one, here]
        simpa using ih
      | some op =>
        rw [further here]
        exact (faithful_step ih).2 (allowed count op here)

def lateAcceptance : List Operation :=
  [.create .vdc (.ofUuid 2) "lamps", .addVdc ⟨1, .ofUuid 2, "lamps"⟩, .connect 1,
    .frame ⟨1, 0⟩ (Message.helloOf (.ofUuid 1) 3 1).encode,
    .frame ⟨1, 0⟩ (Message.byeOf (.ofUuid 1) (some 2)).encode,
    .frame ⟨1, 0⟩ (Message.ofCode .ok (some 1)).encode]

theorem connected_outside_session :
    ((Host.new {} .json).run lateAcceptance).session = none ∧
    ⟨1, .ofUuid 2, "lamps"⟩ ∈ ((Host.new {} .json).run lateAcceptance).registry.vdcs ∧
    ((Host.new {} .json).run lateAcceptance).isVdcConnected 1 = true := by
  decide +kernel

end DeviceConnector.Host
