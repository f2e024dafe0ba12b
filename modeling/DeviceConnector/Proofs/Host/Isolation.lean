import DeviceConnector.Proofs.Host.VdcConnection
/-!
# Connections without the session

While one link carries the session, a frame over another one changes nothing, with two exceptions:
the peer itself may renew the session over it, and responses are matched to requests by their id
alone, whichever link they arrive over.
-/

namespace DeviceConnector.Host

variable {h : Host} {body : Bytes} {m : Message}

theorem Reads.unique {other : Message} (reads : h.Reads body m) (again : h.Reads body other) :
    m = other := by
  have same : (Except.ok m : Except BodyError Message) = .ok other :=
    reads.decodes.symm.trans again.decodes
  exact Except.ok.inj same

/-- Over a link other than the session's, a body that renews nothing has an effect only as a
response that is waited for. -/
theorem Handling.foreign {after : Host} {session : Session} {carrier other : Link}
    (effect : Handling h body other after) (held : h.session = some session)
    (carried : h.attached = some carrier) (foreign : other.id ≠ carrier.id)
    (unrenewed : ¬ h.Renews body session) :
    after = h ∨ ∃ id request response, h.Answers body id request response ∧
      after = h.answered id request.callback response := by
  cases effect with
  | silent => exact Or.inl rfl
  | established m peer reads type valid free => cases held.symm.trans free
  | renewed session' renews =>
    obtain rfl : session' = session := Option.some.inj (renews.held.symm.trans held)
    exact absurd renews unrenewed
  | ended m session' carrier' reads type names held' carried' same =>
    obtain rfl : carrier' = carrier := Option.some.inj (carried'.symm.trans carried)
    exact absurd same.symm foreign
  | answered id request response answers =>
    exact Or.inr ⟨id, request, response, answers, rfl⟩

/-- A body that is handled over a link other than the session's and does not renew the session
leaves the host as it is, unless it answers a pending request. Then that request is no longer
pending, and at most the vDC whose announcement it was counts as connected, if it is accepted. -/
theorem foreign_link_isolated {session : Session} {carrier other : Link}
    (held : h.session = some session) (carried : h.attached = some carrier)
    (foreign : other.id ≠ carrier.id) (unrenewed : ¬ h.Renews body session) :
    ((∀ id request response, ¬ h.Answers body id request response) →
      (h.handleBody body other).2 = h) ∧
    ∀ id request response, h.Answers body id request response →
      (h.handleBody body other).2.session = some session ∧
      (h.handleBody body other).2.attached = some carrier ∧
      (h.handleBody body other).2.registry = h.registry ∧
      (h.handleBody body other).2.pending = h.pending.erase id ∧
      ∀ object, (h.handleBody body other).2.isVdcConnected object = true ↔
        h.isVdcConnected object = true ∨
          request.callback = .announcement object ∧ response.isOk = true := by
  constructor
  · intro unanswering
    have effect := handleBody_handling h body other
    rcases effect.foreign held carried foreign unrenewed with same | ⟨id, request, response,
      answers, -⟩
    · exact same
    · exact absurd answers (unanswering id request response)
  · intro id request response answers
    obtain ⟨vdcStates, answered, eq⟩ := answered_eq h id request.callback response
    have effect : (h.handleBody body other).2 = h.answered id request.callback response :=
      answers.handleBody
    have flags := answered_connected h id request.callback response
    rw [effect]
    refine ⟨?_, ?_, ?_, ?_, flags⟩
    · rw [eq]; exact held
    · rw [eq]; exact carried
    · rw [eq]
    · rw [eq]

theorem not_renews_of_type {session : Session} (reads : h.Reads body m)
    (type : m.type ≠ .requestHello) : ¬ h.Renews body session := by
  rintro ⟨-, other, again, hello, -⟩
  obtain rfl := reads.unique again
  exact type hello

theorem not_answers_of_type {id : MessageId} {request : PendingRequest Callback}
    {response : GenericResponse} (reads : h.Reads body m) (type : m.type ≠ .genericResponse) :
    ¬ h.Answers body id request response := by
  rintro ⟨⟨other, again, generic, -⟩, -⟩
  obtain rfl := reads.unique again
  exact type generic

def announcedOverOne : List Operation :=
  [.create .vdc (.ofUuid 2) "lamps", .addVdc ⟨1, .ofUuid 2, "lamps"⟩, .connect 1, .connect 2,
    .frame ⟨1, 0⟩ (Message.helloOf (.ofUuid 1) 3 1).encode]

theorem announcedOverOne_state :
    ((Host.new {} .json).run announcedOverOne).session = some ⟨.ofUuid 1, 1⟩ ∧
    ((Host.new {} .json).run announcedOverOne).attached = some ⟨1, 0⟩ ∧
    ((Host.new {} .json).run announcedOverOne).pending.find? 1 = some ⟨.announcement 1, 0⟩ ∧
    ((Host.new {} .json).run announcedOverOne).isVdcConnected 1 = false := by
  decide +kernel

theorem announcedOverOne_reads : ((Host.new {} .json).run announcedOverOne).Reads
    (Message.ofCode .ok (some 1)).encode (.ofCode .ok (some 1)) :=
  run_reads announcedOverOne ⟨by decide +kernel, by decide +kernel, rfl⟩

/-- Over the other connection the peer's bye does nothing, while the acceptance of the announcement
leaves session, link and registry alone. -/
theorem foreign_link_isolated_lamps :
    (((Host.new {} .json).run announcedOverOne).handleBody
      (Message.byeOf (.ofUuid 1) none).encode ⟨2, 1⟩).2 =
        (Host.new {} .json).run announcedOverOne ∧
    (((Host.new {} .json).run announcedOverOne).handleBody
      (Message.ofCode .ok (some 1)).encode ⟨2, 1⟩).2.session = some ⟨.ofUuid 1, 1⟩ ∧
    (((Host.new {} .json).run announcedOverOne).handleBody
      (Message.ofCode .ok (some 1)).encode ⟨2, 1⟩).2.attached = some ⟨1, 0⟩ ∧
    (((Host.new {} .json).run announcedOverOne).handleBody
      (Message.ofCode .ok (some 1)).encode ⟨2, 1⟩).2.registry =
        ((Host.new {} .json).run announcedOverOne).registry := by
  obtain ⟨held, carried, waits, -⟩ := announcedOverOne_state
  have foreign : (⟨2, 1⟩ : Link).id ≠ (⟨1, 0⟩ : Link).id := by decide
  have bye : ((Host.new {} .json).run announcedOverOne).Reads
      (Message.byeOf (.ofUuid 1) none).encode (.byeOf (.ofUuid 1) none) :=
    run_reads announcedOverOne ⟨by decide +kernel, by decide +kernel, rfl⟩
  obtain ⟨unmoved, -⟩ := foreign_link_isolated held carried foreign
    (not_renews_of_type bye (by decide))
  obtain ⟨-, settled⟩ := foreign_link_isolated held carried foreign
    (not_renews_of_type announcedOverOne_reads (by decide))
  obtain ⟨session, attached, registry, -⟩ := settled 1 ⟨.announcement 1, 0⟩ (.ofCode .ok)
    ⟨⟨_, announcedOverOne_reads, rfl, rfl, rfl⟩, rfl, waits⟩
  refine ⟨unmoved fun _ _ _ => not_answers_of_type bye (by decide), session, attached, registry⟩

/-- The vDC counts as connected once its announcement is accepted over the other connection, and the
request is no longer pending. -/
theorem accepted_over_foreign_link :
    ((Host.new {} .json).run announcedOverOne).session = some ⟨.ofUuid 1, 1⟩ ∧
    ((Host.new {} .json).run announcedOverOne).attached = some ⟨1, 0⟩ ∧
    ¬ ((Host.new {} .json).run announcedOverOne).Renews (Message.ofCode .ok (some 1)).encode
      ⟨.ofUuid 1, 1⟩ ∧
    ((Host.new {} .json).run announcedOverOne).pending.find? 1 = some ⟨.announcement 1, 0⟩ ∧
    (((Host.new {} .json).run announcedOverOne).handleBody
      (Message.ofCode .ok (some 1)).encode ⟨2, 1⟩).2.pending.find? 1 = none ∧
    ((Host.new {} .json).run announcedOverOne).isVdcConnected 1 = false ∧
    (((Host.new {} .json).run announcedOverOne).handleBody
      (Message.ofCode .ok (some 1)).encode ⟨2, 1⟩).2.isVdcConnected 1 = true := by
  obtain ⟨held, carried, waits, unconnected⟩ := announcedOverOne_state
  have answers : ((Host.new {} .json).run announcedOverOne).Answers
      (Message.ofCode .ok (some 1)).encode 1 ⟨.announcement 1, 0⟩ (.ofCode .ok) :=
    ⟨⟨_, announcedOverOne_reads, rfl, rfl, rfl⟩, rfl, waits⟩
  refine ⟨held, carried, not_renews_of_type announcedOverOne_reads (by decide), waits, ?_,
    unconnected, ?_⟩
  · rw [answers.handleBody]
    obtain ⟨vdcStates, answered, eq⟩ := answered_eq ((Host.new {} .json).run announcedOverOne) 1
      (.announcement 1) (.ofCode .ok)
    rw [eq]
    exact Table.find?_erase_self _ _
  · rw [answers.handleBody, answered_connected]
    exact Or.inr ⟨rfl, rfl⟩

end DeviceConnector.Host
