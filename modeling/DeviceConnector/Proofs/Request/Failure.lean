import DeviceConnector.Proofs.Host.Operation
import DeviceConnector.Proofs.Request
/-!
# What a failed send leaves behind

A send that is refused leaves the pending requests alone. One that is taken up and then cannot be
transmitted leaves its id vacant: its own request goes again, and a request that waited under the
same id has gone with it.
-/

namespace DeviceConnector

namespace RequestTable

variable {κ σ : Type} {table : RequestTable κ} {via : Carrier σ} {state : σ} {m : Message}
  {callback : κ} {now : Nat} {e : HostError} {id : MessageId}

/-- A send that fails is refused, or is taken up under an id and not transmitted. -/
theorem send_failed (failed : (table.send via state m callback now).1 = .error e) :
    (∀ id, ¬ Admits via state m id) ∧ (table.send via state m callback now).2.1 = table ∨
    ∃ id, Admits via state m id ∧ via.transmit m state = .error e ∧
      (table.send via state m callback now).2.1 = table.erase id := by
  rcases send_cases table via state m callback now with
    ⟨id, state', admits, sent, eq⟩ | ⟨id, e', admits, lost, eq⟩ | ⟨refused, e', eq⟩
  · rw [eq] at failed
    cases failed
  · rw [eq] at failed ⊢
    cases failed
    exact Or.inr ⟨id, admits, lost, table.erase_insert id _⟩
  · rw [eq]
    exact Or.inl ⟨refused, rfl⟩

/-- A failed send adds nothing, and it takes away at most what waited under its own id. It leaves
the pending requests exactly as they were unless it was taken up, the carrier being connected and
the message complete, while another request waited under its id; that one is then lost. -/
theorem failed_send_traceless_iff {κ σ : Type} (table : RequestTable κ) (via : Carrier σ)
    (state : σ) (m : Message) (callback : κ) (now : Nat) (e : HostError)
    (failed : (table.send via state m callback now).1 = .error e) :
    ((table.send via state m callback now).2.1 = table ↔
      ∀ id, Admits via state m id → table.find? id = none) ∧
    (∀ id request, (table.send via state m callback now).2.1.find? id = some request ↔
      table.find? id = some request ∧ ¬ Admits via state m id) := by
  rcases send_failed failed with ⟨refused, eq⟩ | ⟨id, admits, -, eq⟩
  · rw [eq]
    constructor
    · constructor
      · intro _ id admits
        exact (refused id admits).elim
      · intro _
        rfl
    · intro id request
      constructor
      · intro found
        exact ⟨found, refused id⟩
      · exact And.left
  · rw [eq]
    have only : ∀ other, Admits via state m other ↔ other = id := by
      intro other
      constructor
      · intro again
        exact again.id_eq admits
      · rintro rfl
        exact admits
    constructor
    · rw [Table.erase_eq_self_iff]
      simp only [only, forall_eq]
    · intro other request
      rw [only]
      by_cases same : other = id
      · subst same
        simp
      · simp [Table.find?_erase_of_ne table same, same]

end RequestTable

namespace Host

def expectant : Host :=
  (Host.new { maxMessageSize := 128 } .json).run
    [.connect 1, .frame ⟨1, 0⟩ (Message.helloOf (.ofUuid 1) 3 1).encode,
      .send (.announceOf (.ofUuid 2) 7) "first"]

/-- A message that this host cannot send takes the request with it whose id it carries. -/
theorem failed_send_forgets_pending :
    expectant.pending.find? 7 = some ⟨.application "first", 0⟩ ∧
    (expectant.send (.ofCode .incompatibleApi (some 7)) (.application "second")).1 =
      .error (.messageTooLarge 147 128) ∧
    (expectant.send (.ofCode .incompatibleApi (some 7)) (.application "second")).2.pending.find? 7 =
      none := by
  decide +kernel

/-- Under an id of its own the same message leaves no trace. -/
theorem failed_send_traceless_vacant :
    (expectant.pending.send carrier expectant (.ofCode .incompatibleApi (some 8))
      (.application "second") 5).1 = .error (.messageTooLarge 147 128) ∧
    expectant.pending.find? 8 = none ∧
    (expectant.pending.send carrier expectant (.ofCode .incompatibleApi (some 8))
      (.application "second") 5).2.1 = expectant.pending := by
  have failed : (expectant.pending.send carrier expectant (.ofCode .incompatibleApi (some 8))
      (.application "second") 5).1 = .error (.messageTooLarge 147 128) := by decide +kernel
  have vacant : expectant.pending.find? 8 = none := by decide +kernel
  obtain ⟨traceless, -⟩ := RequestTable.failed_send_traceless_iff expectant.pending carrier
    expectant (.ofCode .incompatibleApi (some 8)) (.application "second") 5 _ failed
  refine ⟨failed, vacant, traceless.2 ?_⟩
  intro id admits
  obtain rfl : 8 = id := Option.some.inj admits.named
  exact vacant

end Host

end DeviceConnector
