import DeviceConnector.Proofs.Host.Reply
import Mathlib.Data.List.Nodup
import Mathlib.Logic.Relation
/-!
# What a bye does

A bye has an effect only if it names the peer of the session and comes over the link that carries
it. Then session and link are gone, and every registered entity is told of it once, however many
there are, since no entity is registered twice. Any other bye is dropped.
-/

namespace DeviceConnector.Host

open Relation

variable {h : Host} {m : Message} {link : Link} {config : HostConfig} {codec : BodyCodec}

/-- Whatever is done to a host, entities are registered under their own identifiers. -/
theorem dsuid_of_registered (path : ReflTransGen Access (Host.new config codec) h) :
    ∀ dsuid e, h.registry.find? dsuid = some e → e.dsuid = dsuid := by
  induction path with
  | refl =>
    intro dsuid e there
    obtain ⟨rfl, rfl⟩ := find?_new.1 there
    rfl
  | tail _ access own =>
    intro dsuid e there
    rcases access.keeps.entry dsuid e there with before | new
    · exact own dsuid e before
    · exact new

theorem path_run (h : Host) (operations : List Operation) :
    ReflTransGen Access h (h.run operations) := by
  induction operations generalizing h with
  | nil => exact .refl
  | cons op operations ih => exact .head (.operation op) (ih (h.perform op))

/-- The second host is the first one after a bye has ended its session. -/
structure Dismissed (h : Host) (m : Message) (after : Host) : Prop where
  session : after.session = none
  attached : after.attached = none
  told : ∃ entities : List Entity, entities.Nodup ∧
    (∀ e, e ∈ entities ↔ ∃ dsuid, h.registry.find? dsuid = some e) ∧
    after.farewells = h.farewells ++ entities.map (·, m)
  disconnected : ∀ vdc ∈ h.registry.vdcs, after.isVdcConnected vdc.object = false
  others : ∀ object, (∀ vdc ∈ h.registry.vdcs, vdc.object ≠ object) →
    after.isVdcConnected object = h.isVdcConnected object
  registry : after.registry = h.registry
  pending : after.pending = h.pending
  roster : SameRoster h after
  rest : after = { h with
    session := none, attached := none, vdcStates := after.vdcStates, farewells := after.farewells }

theorem dismissed_spec (own : ∀ dsuid e, h.registry.find? dsuid = some e → e.dsuid = dsuid)
    (m : Message) : Dismissed h m (h.dismissed m) := by
  obtain ⟨vdcStates, eq⟩ := dismissed_eq h m
  have connected := dismissed_connected h m
  have roster := dismissed_sameRoster h m
  refine ⟨by rw [eq], by rw [eq], ?_, ?_, ?_, roster.registry, by rw [eq], roster, by rw [eq]⟩
  · refine ⟨h.registry.entities, Registry.nodup_entities own, fun e => ?_, by rw [eq]⟩
    exact Table.mem_values
  · intro vdc registered
    rw [Bool.eq_false_iff]
    intro still
    exact ((connected vdc.object).1 still).2 vdc registered rfl
  · intro object unregistered
    rw [Bool.eq_iff_iff, connected]
    exact and_iff_left unregistered

/-- A bye is answered exactly if it names the peer of the session and comes over the link with the
id of the one that carries it. Then the answer is an acceptance under the id of the bye, session and
link are gone, every registered entity has been told of this bye once more, no registered vDC counts
as connected, and nothing else has changed. Otherwise nothing has. The body of a frame has the same
effect as the bye that it is. -/
theorem bye_cascade (path : ReflTransGen Access (Host.new config codec) h) (m : Message)
    (link : Link) :
    ((h.receiveBye m (some link)).1.isSome = true ↔
      ∃ session carrier, h.session = some session ∧ h.attached = some carrier ∧
        m.bye.bind EntityRef.target? = some session.peer ∧ carrier.id = link.id) ∧
    ((h.receiveBye m (some link)).1.isSome = true →
      (h.receiveBye m (some link)).1 = some (.ofCode .ok m.id) ∧
      Dismissed h m (h.receiveBye m (some link)).2) ∧
    ((h.receiveBye m (some link)).1 = none → (h.receiveBye m (some link)).2 = h) ∧
    ∀ body, h.Reads body m → m.type = .bye → h.handleBody body link =
      ((h.receiveBye m (some link)).1.map fun reply => (h.codec.encode reply).toOption.getD [],
        (h.receiveBye m (some link)).2) := by
  have own := dsuid_of_registered path
  refine ⟨?_, ?_, ?_, ?_⟩
  · by_cases dismisses : h.Dismisses m link
    · rw [receiveBye_of_dismisses dismisses]
      obtain ⟨⟨session, held, named⟩, ⟨carrier, carried, same⟩⟩ := dismisses
      exact iff_of_true rfl ⟨session, carrier, held, carried, named, same⟩
    · rw [receiveBye_of_not_dismisses dismisses]
      refine iff_of_false Bool.false_ne_true ?_
      rintro ⟨session, carrier, held, carried, named, same⟩
      exact dismisses ⟨⟨session, held, named⟩, ⟨carrier, carried, same⟩⟩
  · intro answered
    by_cases dismisses : h.Dismisses m link
    · rw [receiveBye_of_dismisses dismisses]
      exact ⟨rfl, dismissed_spec own m⟩
    · rw [receiveBye_of_not_dismisses dismisses] at answered
      cases answered
  · intro dropped
    by_cases dismisses : h.Dismisses m link
    · rw [receiveBye_of_dismisses dismisses] at dropped
      cases dropped
    · rw [receiveBye_of_not_dismisses dismisses]
  · intro body reads type
    rw [handleBody_eq reads]
    simp only [receive, type]

def acceptedHall : List Operation :=
  [.create .vdc (.ofUuid 2) "hall", .create .device (.ofUuid 3) "lamp",
    .addVdc ⟨1, .ofUuid 2, "hall"⟩,
    .addDevice ⟨1, .ofUuid 2, "hall"⟩ (.device 2 (.ofUuid 3) "lamp"), .connect 1,
    .frame ⟨1, 0⟩ (Message.helloOf (.ofUuid 1) 3 1).encode,
    .frame ⟨1, 0⟩ (Message.ofCode .ok (some 1)).encode]

theorem bye_cascade_hall :
    ((Host.new {} .json).run acceptedHall).isVdcConnected 1 = true ∧
    (((Host.new {} .json).run acceptedHall).receiveBye (.byeOf (.ofUuid 1) (some 5))
      (some ⟨1, 0⟩)).1 = some (.ofCode .ok (some 5)) ∧
    (((Host.new {} .json).run acceptedHall).receiveBye (.byeOf (.ofUuid 1) (some 5))
      (some ⟨1, 0⟩)).2.session = none ∧
    (((Host.new {} .json).run acceptedHall).receiveBye (.byeOf (.ofUuid 1) (some 5))
      (some ⟨1, 0⟩)).2.isVdcConnected 1 = false ∧
    (((Host.new {} .json).run acceptedHall).receiveBye (.byeOf (.ofUuid 1) (some 5))
      (some ⟨1, 0⟩)).2.farewells.count
        (.device 2 (.ofUuid 3) "lamp", .byeOf (.ofUuid 1) (some 5)) = 1 := by
  obtain ⟨answered_iff, cascade, -⟩ := bye_cascade (path_run (Host.new {} .json) acceptedHall)
    (.byeOf (.ofUuid 1) (some 5)) ⟨1, 0⟩
  have held : ((Host.new {} .json).run acceptedHall).session = some ⟨.ofUuid 1, 1⟩ ∧
      ((Host.new {} .json).run acceptedHall).attached = some ⟨1, 0⟩ ∧
      ((Host.new {} .json).run acceptedHall).farewells = [] := by decide +kernel
  have names : (Message.byeOf (.ofUuid 1) (some 5)).bye.bind EntityRef.target? =
      some (.ofUuid 1) := by decide +kernel
  have hall : ⟨1, .ofUuid 2, "hall"⟩ ∈ ((Host.new {} .json).run acceptedHall).registry.vdcs := by
    decide +kernel
  have lamp : ((Host.new {} .json).run acceptedHall).registry.find? (.ofUuid 3) =
      some (.device 2 (.ofUuid 3) "lamp") := by decide +kernel
  obtain ⟨session, attached, silent⟩ := held
  have answered := answered_iff.2 ⟨⟨.ofUuid 1, 1⟩, ⟨1, 0⟩, session, attached, names, rfl⟩
  obtain ⟨answer, dismissed⟩ := cascade answered
  have disconnected := dismissed.disconnected _ hall
  dsimp only at disconnected
  refine ⟨by decide +kernel, answer, dismissed.session, disconnected, ?_⟩
  obtain ⟨entities, distinct, registered, told⟩ := dismissed.told
  rw [told, silent, List.nil_append]
  have injective : Function.Injective fun e : Entity => (e, Message.byeOf (.ofUuid 1) (some 5)) :=
    fun _ _ same => congrArg Prod.fst same
  have mem := (registered (.device 2 (.ofUuid 3) "lamp")).2 ⟨_, lamp⟩
  exact List.count_eq_one_of_mem (distinct.map injective) (List.mem_map_of_mem mem)

end DeviceConnector.Host
