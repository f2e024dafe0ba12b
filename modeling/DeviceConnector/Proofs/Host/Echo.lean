import DeviceConnector.Proofs.Host.Outbox
import DeviceConnector.Proofs.Host.Roster
import DeviceConnector.Proofs.Message.RoundTrip
import Mathlib.Algebra.BigOperators.Fin
/-!
# Hosts among themselves

No host replies to what a host puts out by itself. So hosts that are wired to each other, or a host
that hears its own output, fall silent after finitely many frames.
-/

namespace DeviceConnector

def MessageType.isReplied : MessageType → Bool
  | requestHello | ping | bye | remove => true
  | _ => false

def Message.isInert (body : Bytes) : Bool :=
  match decode body with
  | .ok m => !m.type.isReplied
  | .error _ => body.isEmpty

theorem Message.isInert_encode {m : Message} (known : m.type.isKnown = true)
    (unreplied : m.type.isReplied = false) : isInert m.encode = true := by
  rw [isInert, decode_encode_of_known known]
  simp [unreplied]

namespace Host

variable {h h' : Host} {body reply : Bytes} {link : Link} {m answer : Message} {op : Operation}
  {kind : Message → Prop} {queued : Queued}

theorem Replies.isReplied (replies : h.Replies m answer) : m.type.isReplied = true := by
  cases replies with
  | welcome type | refusal _ type | pong _ _ type | farewell _ type | missing type =>
    rw [type]
    rfl

theorem receive_unreplied (unreplied : m.type.isReplied = false) : (h.receive m link).1 = none := by
  cases replied : (h.receive m link).1 with
  | none => rfl
  | some answer =>
    have served := (replies_of_receive replied).isReplied
    rw [unreplied] at served
    cases served

theorem Reads.unreplied (reads : h.Reads body m) (json : h.codec = .json)
    (inert : Message.isInert body = true) : m.type.isReplied = false := by
  have decodes : Message.decode body = .ok m := by
    have decodes := reads.decodes
    rwa [json] at decodes
  rw [Message.isInert, decodes] at inert
  simpa using inert

theorem handleBody_inert (json : h.codec = .json) (inert : Message.isInert body = true)
    (fits : body.length ≤ h.config.maxMessageSize) : (h.handleBody body link).1 = none := by
  by_cases read : ∃ m, h.Reads body m
  · obtain ⟨m, reads⟩ := read
    rw [handleBody_eq reads]
    exact Option.map_eq_none_iff.2 (receive_unreplied (reads.unreplied json inert))
  · have empty : body = [] := by
      by_contra nonempty
      cases decodes : Message.decode body with
      | ok m => exact read ⟨m, nonempty, fits, by rw [json]; exact decodes⟩
      | error e =>
        rw [Message.isInert, decodes] at inert
        exact nonempty (List.isEmpty_iff.1 inert)
    rw [empty]
    rfl

/-- The only reply to an inert body is an empty one, where the body is too large. -/
theorem reply_of_inert (json : h.codec = .json) (inert : Message.isInert body = true)
    (replied : (h.handleBody body link).1 = some reply) : reply = [] ∧ body ≠ [] := by
  constructor
  · rcases reply_cases replied with empty | ⟨m, answer, reads, replies, -⟩
    · exact empty
    · have served := replies.isReplied
      rw [reads.unreplied json inert] at served
      cases served
  · rintro rfl
    cases replied

def OfApplication : Operation → Prop
  | .send .. | .notify _ => True
  | _ => False

/-- Bodies that a host puts out by itself: its replies, what it says in the course of an operation
that is not the sending of a message of the application, its announcements of any vDCs, and its
notices. -/
inductive Emits (h : Host) : Bytes → Prop where
  | reply {body reply : Bytes} {link : Link} (replied : (h.handleBody body link).1 = some reply) :
    Emits h reply
  | unprompted {op : Operation} {queued : Queued} (own : ¬ OfApplication op)
    (said : queued ∈ h.unprompted op) : Emits h queued.body
  | announced {vdcs : List Vdc} {queued : Queued}
    (said : queued ∈ (h.announceAll vdcs).2.outbox.drop h.outbox.length) : Emits h queued.body
  | vanished {vdc : Vdc} {dsuid : Dsuid} {queued : Queued}
    (said : queued ∈ (h.vanish vdc dsuid).2.outbox.drop h.outbox.length) : Emits h queued.body

theorem isInert_of_replies (replies : h.Replies m answer) :
    Message.isInert answer.encode = true := by
  cases replies with
  | welcome | refusal | pong | farewell | missing => exact Message.isInert_encode rfl rfl

theorem isInert_reply (json : h.codec = .json) (replied : (h.handleBody body link).1 = some reply) :
    Message.isInert reply = true := by
  rcases reply_cases replied with rfl | ⟨m, answer, -, replies, encoded⟩
  · rfl
  · rw [json] at encoded
    obtain rfl := Except.ok.inj encoded
    exact isInert_of_replies replies

/-- The messages that the host has of its own accord are announcements and notices. -/
theorem isInert_of_announces {vdc : Vdc} (announces : Announces vdc m) :
    Message.isInert m.encode = true := by
  obtain ⟨id, rfl⟩ := announces
  exact Message.isInert_encode rfl rfl

theorem isInert_vanishOf (dsuid : Dsuid) : Message.isInert (Message.vanishOf dsuid).encode = true :=
  Message.isInert_encode rfl rfl

theorem Spoken.isInert {bodies : List Queued} (spoken : h.Spoken kind bodies)
    (json : h.codec = .json) (inert : ∀ m, kind m → Message.isInert m.encode = true)
    (mem : queued ∈ bodies) :
    Message.isInert queued.body = true := by
  obtain ⟨-, m, own, encoded⟩ := spoken queued mem
  rw [json] at encoded
  rw [← Except.ok.inj encoded]
  exact inert m own

theorem isInert_of_utters (own : ¬ OfApplication op) (utters : h.Utters m op) :
    Message.isInert m.encode = true := by
  cases op with
  | frame link body =>
    obtain ⟨vdc, -, announces⟩ := utters
    exact isInert_of_announces announces
  | addVdc vdc => exact isInert_of_announces utters
  | removeDevice vdc dsuid =>
    obtain rfl : m = .vanishOf dsuid := utters
    exact isInert_vanishOf dsuid
  | send | notify => exact absurd trivial own
  | _ => exact utters.elim

theorem isInert_unprompted (json : h.codec = .json) (own : ¬ OfApplication op)
    (said : queued ∈ h.unprompted op) : Message.isInert queued.body = true :=
  (outbox_perform h op).2.isInert ((perform_setup h op).2.trans json)
    (fun _ utters => isInert_of_utters own utters) said

theorem SaidFrom.isInert (said : SaidFrom (h.Fitting kind) h h') (json : h.codec = .json)
    (inert : ∀ m, kind m → Message.isInert m.encode = true)
    (mem : queued ∈ h'.outbox.drop h.outbox.length) : Message.isInert queued.body = true := by
  obtain ⟨-, bodies, eq, spoken⟩ := said
  rw [eq, List.drop_left] at mem
  exact spoken.isInert json (fun m fitting => inert m fitting.own) mem

theorem Emits.isInert (emits : h.Emits body) (json : h.codec = .json) :
    Message.isInert body = true := by
  cases emits with
  | reply replied => exact isInert_reply json replied
  | unprompted own said => exact isInert_unprompted json own said
  | announced said =>
    refine (announceAll_saidFrom h _).isInert json ?_ said
    rintro m ⟨vdc, -, announces⟩
    exact isInert_of_announces announces
  | @vanished vdc dsuid queued said =>
    refine (vanish_saidFrom h vdc dsuid).isInert json ?_ said
    rintro m rfl
    exact isInert_vanishOf dsuid

def owed (h : Host) : Nat := if h.announcePending then h.registry.vdcs.length else 0

theorem owed_le (h : Host) : h.owed ≤ h.registry.vdcs.length := by
  unfold owed
  split
  · exact Nat.le_refl _
  · exact Nat.zero_le _

theorem length_outbox_announce_le (h : Host) (vdc : Vdc) :
    (h.announce vdc).2.outbox.length ≤ h.outbox.length + 1 := by
  unfold announce
  split
  · split
    · rename_i failed
      rw [← allocateId_outbox h, failed]
      exact Nat.le_succ _
    · rename_i id allocated eq
      have outbox := allocateId_outbox h
      rw [eq] at outbox
      rw [← outbox]
      rcases send_cases allocated (.announceOf vdc.dsuid id) (.announcement vdc.object) with
        ⟨_, _, _, -, -, -, -, -, sent⟩ | ⟨_, _, sent⟩
      · rw [sent, List.length_append, List.length_singleton]
      · rw [sent]
        exact Nat.le_succ _
  · exact Nat.le_succ _

theorem length_outbox_announceAll_le (h : Host) (vdcs : List Vdc) :
    (h.announceAll vdcs).2.outbox.length ≤ h.outbox.length + vdcs.length := by
  induction vdcs generalizing h with
  | nil => exact Nat.le_refl _
  | cons vdc vdcs ih =>
    have first := length_outbox_announce_le h vdc
    have later := ih (h.announce vdc).2
    rw [List.length_cons]
    exact Nat.le_trans later (by omega)

/-- Announcements that have been made are no longer due. -/
theorem owed_flushAnnouncements (h : Host) :
    h.flushAnnouncements.2.outbox.length + h.flushAnnouncements.2.owed ≤
      h.outbox.length + h.owed := by
  have settled : h.flushAnnouncements.2.owed = 0 := by
    have idle : h.flushAnnouncements.2.announcePending = false := by
      rw [(flushAnnouncements_sentFrom h).rest]
    rw [owed, idle]
    rfl
  rw [settled]
  unfold flushAnnouncements announceVdcs
  split
  · rename_i due
    rw [owed, if_pos due]
    exact length_outbox_announceAll_le _ _
  · exact Nat.le_add_right ..

/-- What a frame makes the host say is what was due once its body was handled, if it is not due
still. -/
theorem owed_perform (h : Host) (link : Link) (body : Bytes) :
    (h.unprompted (.frame link body)).length + (h.perform (.frame link body)).owed ≤
      (h.handleBody body link).2.owed := by
  have grown := congrArg List.length (outbox_perform h (.frame link body)).1
  rw [List.length_append, List.length_append] at grown
  cases queued : (h.handleBody body link).2.queueReply link (h.handleBody body link).1 with
  | error e =>
    have outbox : (h.handleBody body link).2.outbox = h.outbox := by
      rw [(handleBody_handling h body link).rest]
    have after : h.perform (.frame link body) = (h.handleBody body link).2 := by
      simp only [perform, processFrame, queued]
    rw [after] at grown ⊢
    rw [outbox] at grown
    omega
  | ok settled =>
    have outbox := congrArg List.length (settled_outbox queued)
    have flushed := owed_flushAnnouncements settled
    have after : h.perform (.frame link body) = settled.flushAnnouncements.2 := by
      simp only [perform, processFrame, queued]
    have due : settled.owed = (h.handleBody body link).2.owed := by
      rw [(queueReply_ok queued).1]
      rfl
    rw [after] at grown ⊢
    rw [List.length_append] at outbox
    omega

/-- Only a hello makes announcements due. -/
theorem owed_handleBody (json : h.codec = .json) (inert : Message.isInert body = true) :
    (h.handleBody body link).2.owed = h.owed := by
  have effect := handleBody_handling h body link
  generalize (h.handleBody body link).2 = after at effect
  cases effect with
  | silent | renewed => rfl
  | established m peer reads type =>
    have unreplied := reads.unreplied json inert
    rw [type] at unreplied
    cases unreplied
  | ended m =>
    obtain ⟨vdcStates, eq⟩ := dismissed_eq h m
    rw [eq]
    rfl
  | answered id request response =>
    obtain ⟨vdcStates, answers, eq⟩ := answered_eq h id request.callback response
    rw [eq]
    rfl

def putOut (h : Host) (link : Link) (body : Bytes) : List Queued :=
  (h.perform (.frame link body)).outbox.drop h.outbox.length

theorem putOut_eq (h : Host) (link : Link) (body : Bytes) :
    h.putOut link body = h.replyTo (.frame link body) ++ h.unprompted (.frame link body) := by
  rw [putOut, (outbox_perform h (.frame link body)).1, List.append_assoc, List.drop_left]

theorem replyTo_frame (h : Host) (link : Link) (body : Bytes) :
    h.replyTo (.frame link body) = [] ∨
    ∃ reply, (h.handleBody body link).1 = some reply ∧
      h.replyTo (.frame link body) = [⟨link, reply⟩] := by
  by_cases closed : h.isClosed link = true
  · left
    rw [replyTo, if_pos closed]
  · rw [replyTo, if_neg closed]
    cases (h.handleBody body link).1 with
    | none => exact Or.inl rfl
    | some reply => exact Or.inr ⟨reply, rfl, rfl⟩

theorem isInert_putOut (json : h.codec = .json) (mem : queued ∈ h.putOut link body) :
    Message.isInert queued.body = true := by
  rw [putOut_eq, List.mem_append] at mem
  rcases mem with replied | said
  · rcases replyTo_frame h link body with none | ⟨reply, replied', eq⟩
    · rw [none] at replied
      cases replied
    · rw [eq, List.mem_singleton] at replied
      rw [replied]
      exact isInert_reply json replied'
  · have own : ¬ OfApplication (.frame link body) := fun sent => sent
    exact isInert_unprompted json own said

/-- How many frames an inert body stands for: itself, and an empty body in return. -/
def toll (body : Bytes) : Nat := if body = [] then 1 else 2

theorem toll_le (body : Bytes) : toll body ≤ 2 := by
  unfold toll
  split
  · decide
  · decide

/-- How many frames a body stands for that is on its way to the host. One that is not inert can be
replied to, and the announcements of all vDCs can become due. -/
def cost (h : Host) (body : Bytes) : Nat :=
  if Message.isInert body then toll body else 3 + 2 * h.registry.vdcs.length

theorem tolls_replyTo (h : Host) (link : Link) (body : Bytes) :
    ((h.replyTo (.frame link body)).map (toll ·.body)).sum ≤ 2 := by
  rcases replyTo_frame h link body with none | ⟨reply, -, eq⟩
  · rw [none]
    exact Nat.zero_le 2
  · rw [eq, List.map_singleton, List.sum_singleton]
    exact toll_le reply

theorem tolls_replyTo_inert (json : h.codec = .json) (link : Link)
    (inert : Message.isInert body = true) :
    ((h.replyTo (.frame link body)).map (toll ·.body)).sum < toll body := by
  rcases replyTo_frame h link body with none | ⟨reply, replied, eq⟩
  · rw [none]
    unfold toll
    split <;> decide
  · obtain ⟨rfl, nonempty⟩ := reply_of_inert json inert replied
    rw [eq, List.map_singleton, List.sum_singleton, toll, toll, if_pos rfl, if_neg nonempty]
    decide

theorem tolls_le (bodies : List Queued) : (bodies.map (toll ·.body)).sum ≤ 2 * bodies.length := by
  induction bodies with
  | nil => exact Nat.le_refl _
  | cons queued bodies ih =>
    have first := toll_le queued.body
    rw [List.map_cons, List.sum_cons, List.length_cons]
    omega

/-- A body that arrives makes up for all that the host puts out in return. -/
theorem tolls_putOut (json : h.codec = .json) (link : Link) (body : Bytes) :
    ((h.putOut link body).map (toll ·.body)).sum + 2 * (h.perform (.frame link body)).owed <
      h.cost body + 2 * h.owed := by
  have owed := owed_perform h link body
  have said := tolls_le (h.unprompted (.frame link body))
  rw [putOut_eq, List.map_append, List.sum_append]
  unfold cost
  split
  -- an inert body leaves what is due as it is, and a reply to it is empty
  · rename_i inert
    have replied := tolls_replyTo_inert json link inert
    rw [owed_handleBody json inert] at owed
    omega
  · have replied := tolls_replyTo h link body
    have due := owed_le (h.handleBody body link).2
    rw [(handleBody_handling h body link).registry] at due
    omega

end Host

structure Parcel (n : Nat) where
  host : Fin n
  link : Link
  body : Bytes
  deriving DecidableEq

structure Exchange (n : Nat) where
  hosts : Fin n → Host
  underway : List (Parcel n)

namespace Exchange

variable {n : Nat} {s t : Exchange n} {count : Nat}
  -- Where the bodies arrive that a host puts out on a link, if anywhere.
  (wire : Fin n → Link → Option (Fin n × Link))

def posted (i : Fin n) (bodies : List Queued) : List (Parcel n) :=
  bodies.filterMap fun queued => (wire i queued.link).map fun (j, link) => ⟨j, link, queued.body⟩

def arrived (s : Exchange n) (p : Parcel n) (others : List (Parcel n)) : Exchange n where
  hosts := Function.update s.hosts p.host ((s.hosts p.host).perform (.frame p.link p.body))
  underway := others ++ posted wire p.host ((s.hosts p.host).putOut p.link p.body)

/-- Bodies arrive one after the other, in any order. -/
inductive Arrivals : Nat → Exchange n → Exchange n → Prop where
  | none (s : Exchange n) : Arrivals 0 s s
  | next {count : Nat} {s t : Exchange n} {p : Parcel n} {before later : List (Parcel n)}
      (path : Arrivals count s t) (underway : t.underway = before ++ p :: later) :
      Arrivals (count + 1) s (arrived wire t p (before ++ later))

def weight (s : Exchange n) : Nat :=
  ∑ i, 2 * (s.hosts i).owed + (s.underway.map fun p => (s.hosts p.host).cost p.body).sum

theorem costs_posted (hosts : Fin n → Host) (i : Fin n) {bodies : List Queued}
    (inert : ∀ queued ∈ bodies, Message.isInert queued.body = true) :
    ((posted wire i bodies).map fun p => (hosts p.host).cost p.body).sum ≤
      (bodies.map (Host.toll ·.body)).sum := by
  induction bodies with
  | nil => exact Nat.le_refl _
  | cons queued bodies ih =>
    have later := ih fun other mem => inert other (List.mem_cons_of_mem _ mem)
    have own := inert queued (List.mem_cons_self ..)
    rw [List.map_cons, List.sum_cons]
    cases wired : wire i queued.link with
    | none =>
      have lost : posted wire i (queued :: bodies) = posted wire i bodies := by
        simp [posted, wired]
      rw [lost]
      exact Nat.le_trans later (Nat.le_add_left ..)
    | some there =>
      have sent : posted wire i (queued :: bodies) =
          ⟨there.1, there.2, queued.body⟩ :: posted wire i bodies := by
        simp [posted, wired]
      rw [sent, List.map_cons, List.sum_cons, Host.cost, if_pos own]
      exact Nat.add_le_add_left later _

theorem hosts_arrived_self (s : Exchange n) (p : Parcel n) (others : List (Parcel n)) :
    (arrived wire s p others).hosts p.host = (s.hosts p.host).perform (.frame p.link p.body) :=
  Function.update_self ..

theorem hosts_arrived_of_ne (s : Exchange n) (p : Parcel n) (others : List (Parcel n)) {i : Fin n}
    (other : i ≠ p.host) : (arrived wire s p others).hosts i = s.hosts i :=
  Function.update_of_ne other ..

theorem arrived_codec (json : ∀ i, (s.hosts i).codec = .json) (p : Parcel n)
    (others : List (Parcel n)) (i : Fin n) : ((arrived wire s p others).hosts i).codec = .json := by
  by_cases here : i = p.host
  · subst here
    rw [hosts_arrived_self]
    exact (Host.perform_setup _ _).2.trans (json _)
  · rw [hosts_arrived_of_ne wire _ _ _ here]
    exact json i

theorem arrived_registry (s : Exchange n) (p : Parcel n) (others : List (Parcel n)) (i : Fin n) :
    ((arrived wire s p others).hosts i).registry = (s.hosts i).registry := by
  by_cases here : i = p.host
  · subst here
    rw [hosts_arrived_self]
    have other : ¬ Host.Enlists (.frame p.link p.body) := fun enlists => enlists
    exact (Host.perform_sameRoster (s.hosts p.host) other).registry
  · rw [hosts_arrived_of_ne wire _ _ _ here]

theorem owed_arrived (s : Exchange n) (p : Parcel n) (others : List (Parcel n)) :
    ∑ i, 2 * ((arrived wire s p others).hosts i).owed + 2 * (s.hosts p.host).owed =
      ∑ i, 2 * (s.hosts i).owed +
        2 * ((s.hosts p.host).perform (.frame p.link p.body)).owed := by
  -- only the host that the body arrives at has changed
  have there := Finset.add_sum_erase Finset.univ
    (fun i => 2 * ((arrived wire s p others).hosts i).owed) (Finset.mem_univ p.host)
  have here := Finset.add_sum_erase Finset.univ (fun i => 2 * (s.hosts i).owed)
    (Finset.mem_univ p.host)
  have elsewhere : ∑ i ∈ Finset.univ.erase p.host, 2 * ((arrived wire s p others).hosts i).owed =
      ∑ i ∈ Finset.univ.erase p.host, 2 * (s.hosts i).owed := by
    apply Finset.sum_congr rfl
    intro i mem
    rw [hosts_arrived_of_ne wire _ _ _ (Finset.ne_of_mem_erase mem)]
  rw [hosts_arrived_self] at there
  omega

/-- With every body that arrives less can still be put out. -/
theorem weight_arrived (json : ∀ i, (s.hosts i).codec = .json) {p : Parcel n}
    {before later : List (Parcel n)} (underway : s.underway = before ++ p :: later) :
    (arrived wire s p (before ++ later)).weight < s.weight := by
  have returned := Host.tolls_putOut (json p.host) p.link p.body
  have costs (q : Parcel n) : ((arrived wire s p (before ++ later)).hosts q.host).cost q.body =
      (s.hosts q.host).cost q.body := by
    rw [Host.cost, Host.cost, arrived_registry wire]
  have inert : ∀ queued ∈ (s.hosts p.host).putOut p.link p.body,
      Message.isInert queued.body = true := fun queued mem => Host.isInert_putOut (json p.host) mem
  have posted := costs_posted wire s.hosts p.host inert
  have owed := owed_arrived wire s p (before ++ later)
  unfold weight
  simp only [costs]
  rw [underway]
  simp only [arrived, List.map_append, List.sum_append, List.map_cons, List.sum_cons]
  simp only [arrived] at owed
  omega

variable {wire}

theorem Arrivals.codec (path : Arrivals wire count s t) (json : ∀ i, (s.hosts i).codec = .json) :
    ∀ i, (t.hosts i).codec = .json := by
  induction path with
  | none => exact json
  | next path _ ih => exact arrived_codec wire (ih json) _ _

theorem Arrivals.weight_le (path : Arrivals wire count s t)
    (json : ∀ i, (s.hosts i).codec = .json) : count + t.weight ≤ s.weight := by
  induction path with
  | none => exact Nat.le_of_eq (Nat.zero_add _)
  | next path underway ih =>
    have less := weight_arrived wire (path.codec json) underway
    have before := ih json
    omega

/-- No host replies to a body within its limit that a host has put out by itself, whatever the
states of the two. However hosts are wired to each other, or to themselves, the number of frames
that they can exchange is bounded. -/
theorem no_reply_loop :
    (∀ (h h' : Host) (body : Bytes) (link : Link), h.codec = .json → h'.codec = .json →
      h.Emits body → body.length ≤ h'.config.maxMessageSize → (h'.handleBody body link).1 = none) ∧
    ∀ (n : Nat) (wire : Fin n → Link → Option (Fin n × Link)) (s t : Exchange n) (count : Nat),
      (∀ i, (s.hosts i).codec = .json) → Arrivals wire count s t → count ≤ s.weight := by
  constructor
  · intro h h' body link json json' emits fits
    exact Host.handleBody_inert json' (emits.isInert json) fits
  · intro n wire s t count json path
    exact Nat.le_trans (Nat.le_add_right ..) (path.weight_le json)

def echo (i : Fin 1) (link : Link) : Option (Fin 1 × Link) := some (i, link)

def towards (body : Bytes) : Parcel 1 := ⟨0, ⟨1, 0⟩, body⟩

def echoing : Exchange 1 where
  hosts _ := (Host.new {} .json).run
    [.connect 1, .create .vdc (.ofUuid 2) "demo", .addVdc ⟨1, .ofUuid 2, "demo"⟩]
  underway := [towards (Message.helloOf (.ofUuid 1) 3 1).encode]

/-- The answer of the host and its announcement come back to it, and nothing is said to them. -/
theorem no_reply_loop_echo :
    ((echoing.hosts 0).handleBody (Message.welcome (echoing.hosts 0).dsuid (some 1)).encode
      ⟨1, 0⟩).1 = none ∧
    ∃ t, Arrivals echo 3 echoing t ∧ t.underway = [] ∧ 3 ≤ echoing.weight := by
  have emits : (echoing.hosts 0).Emits (Message.welcome (echoing.hosts 0).dsuid (some 1)).encode :=
    @Host.Emits.reply _ (Message.helloOf (.ofUuid 1) 3 1).encode _ ⟨1, 0⟩ (by decide +kernel)
  have fits : (Message.welcome (echoing.hosts 0).dsuid (some 1)).encode.length ≤
      (echoing.hosts 0).config.maxMessageSize := by decide +kernel
  have hello : Arrivals echo 1 echoing _ := @Arrivals.next _ echo _ _ _ _ [] [] (.none echoing) rfl
  have welcome := @Arrivals.next _ echo _ _ _
    (towards (Message.welcome (echoing.hosts 0).dsuid (some 1)).encode) []
    [towards (Message.announceOf (.ofUuid 2) 1).encode] hello (by decide +kernel)
  have announcement := @Arrivals.next _ echo _ _ _
    (towards (Message.announceOf (.ofUuid 2) 1).encode) [] [] welcome (by decide +kernel)
  have json : ∀ i, (echoing.hosts i).codec = .json := fun _ => rfl
  exact ⟨no_reply_loop.1 _ _ _ _ rfl rfl emits fits, _, announcement, by decide +kernel,
    no_reply_loop.2 _ _ _ _ _ json announcement⟩

end Exchange

end DeviceConnector
