import DeviceConnector.Request
import Mathlib.Data.List.Nodup
/-!
# Each callback once

A table of pending requests changes by sending, by replies and by eviction. What it holds at any
time is what has been sent with success and not been displaced since. So a callback that is handed
over once runs at most once, namely with the first response that finds its request still in the
table.
-/

namespace DeviceConnector.RequestTable

variable {κ : Type}

/-- What is done with a table. A request comes with its carrier, in the state that it then is in. -/
inductive Event (κ : Type) : Type 1 where
  | send {σ : Type} (via : Carrier σ) (state : σ) (m : Message) (callback : κ) (now : Nat)
  | reply (m : Message)
  | evict (maxAge now : Nat)

structure Admits {σ : Type} (via : Carrier σ) (state : σ) (m : Message) (id : MessageId) :
    Prop where
  connected : via.isConnected state = true
  complete : m.isComplete = true
  named : m.id = some id
  nonzero : id ≠ 0

structure Responds (m : Message) (id : MessageId) : Prop where
  named : m.id = some id
  nonzero : id ≠ 0
  coded : ∃ response, m.response = some response ∧ response.code.isSome = true

namespace Event

def callback? : Event κ → Option κ
  | send _ _ _ callback _ => some callback
  | _ => none

def Records (id : MessageId) (request : PendingRequest κ) : Event κ → Prop
  | send via state m callback now =>
    Admits via state m id ∧ (via.transmit m state).isOk = true ∧ request = ⟨callback, now⟩
  | _ => False

/-- The event takes out what has waited under the id since then. -/
def Displaces (id : MessageId) (since : Nat) : Event κ → Prop
  | send via state m _ _ => Admits via state m id
  | reply m => Responds m id
  | evict maxAge now => maxAge ≤ now - since

end Event

def apply (table : RequestTable κ) : Event κ → RequestTable κ
  | .send via state m callback now => (table.send via state m callback now).2.1
  | .reply m => (table.answer m).2
  | .evict maxAge now => (table.evict maxAge now).2

def ran (table : RequestTable κ) : Event κ → List κ
  | .reply m => (table.answer m).1.toList.map (·.callback)
  | _ => []

theorem requestId?_eq_some {m : Message} {id : MessageId} :
    m.requestId? = some id ↔ m.id = some id ∧ id ≠ 0 := by
  simp [Message.requestId?, Option.filter_eq_some_iff]

variable {table : RequestTable κ} {id other : MessageId} {request : PendingRequest κ} {m : Message}

theorem Admits.id_eq {σ : Type} {via : Carrier σ} {state : σ} (admits : Admits via state m id)
    (again : Admits via state m other) : id = other :=
  Option.some.inj (admits.named.symm.trans again.named)

theorem Responds.id_eq (responds : Responds m id) (again : Responds m other) : id = other :=
  Option.some.inj (responds.named.symm.trans again.named)

/-- Sending records the request, or drops what waited under its id, or does nothing; the last is the
case exactly if the carrier is not connected or the message is not complete. -/
theorem send_cases {σ : Type} (table : RequestTable κ) (via : Carrier σ) (state : σ) (m : Message)
    (callback : κ) (now : Nat) :
    (∃ id state', Admits via state m id ∧ via.transmit m state = .ok state' ∧
      table.send via state m callback now = (.ok id, table.insert id ⟨callback, now⟩, state')) ∨
    (∃ id e, Admits via state m id ∧ via.transmit m state = .error e ∧
      table.send via state m callback now =
        (.error e, (table.insert id ⟨callback, now⟩).erase id, state)) ∨
    ((∀ id, ¬ Admits via state m id) ∧ ∃ e,
      table.send via state m callback now = (.error e, table, state)) := by
  unfold send
  by_cases connected : via.isConnected state = true
  · rw [if_pos connected]
    cases named : m.requestId? with
    | none =>
      right; right
      refine ⟨fun id admits => ?_, .incompleteMessage m.type.tag, rfl⟩
      rw [requestId?_eq_some.2 ⟨admits.named, admits.nonzero⟩] at named
      cases named
    | some id =>
      obtain ⟨own, nonzero⟩ := requestId?_eq_some.1 named
      cases complete : m.isComplete with
      | false =>
        right; right
        refine ⟨fun id admits => ?_, .incompleteMessage m.type.tag, rfl⟩
        rw [admits.complete] at complete
        cases complete
      | true =>
        have admits : Admits via state m id := ⟨connected, complete, own, nonzero⟩
        cases sent : via.transmit m state with
        | ok state' => exact Or.inl ⟨id, state', admits, rfl, rfl⟩
        | error e => exact Or.inr (Or.inl ⟨id, e, admits, rfl, rfl⟩)
  · rw [if_neg connected]
    right; right
    exact ⟨fun id admits => connected admits.connected, .notConnected, rfl⟩

/-- A response runs the callback that waits under its id and takes its request out; otherwise
nothing happens. -/
theorem answer_cases (table : RequestTable κ) (m : Message) :
    (∃ id request response, Responds m id ∧ m.response = some response ∧
      table.find? id = some request ∧
      table.answer m = (some ⟨request.callback, response⟩, table.erase id)) ∨
    ((∀ id, Responds m id → table.find? id = none) ∧ table.answer m = (none, table)) := by
  unfold answer
  split
  · rename_i id response named carried
    obtain ⟨own, nonzero⟩ := requestId?_eq_some.1 named
    by_cases coded : response.code.isSome = true
    · rw [if_pos coded]
      have responds : Responds m id := ⟨own, nonzero, response, carried, coded⟩
      cases found : table.find? id with
      | some request => exact Or.inl ⟨id, request, response, responds, carried, found, rfl⟩
      | none =>
        right
        refine ⟨fun other again => ?_, rfl⟩
        obtain rfl := responds.id_eq again
        exact found
    · rw [if_neg coded]
      right
      refine ⟨fun other responds => ?_, rfl⟩
      obtain ⟨response', carried', coded'⟩ := responds.coded
      obtain rfl := Option.some.inj (carried.symm.trans carried')
      exact absurd coded' coded
  · rename_i malformed
    right
    refine ⟨fun id responds => ?_, rfl⟩
    obtain ⟨response, carried, -⟩ := responds.coded
    exact (malformed id response (requestId?_eq_some.2 ⟨responds.named, responds.nonzero⟩)
      carried).elim

theorem evict_fst (table : RequestTable κ) (maxAge now : Nat) :
    (table.evict maxAge now).1 =
      (table.entries.filter fun entry => maxAge ≤ now - entry.2.since).length := by
  have parted := List.length_eq_length_filter_add (l := table.entries)
    fun entry => decide (maxAge ≤ now - entry.2.since)
  have kept : (table.filter fun _ request => decide (now - request.since < maxAge)).entries =
      table.entries.filter fun entry => !decide (maxAge ≤ now - entry.2.since) := by
    simp only [Table.filter, ← Nat.not_le, decide_not]
  simp only [evict, Table.size, kept]
  omega

theorem find?_evict (table : RequestTable κ) (maxAge now : Nat) :
    (table.evict maxAge now).2.find? id = some request ↔
      table.find? id = some request ∧ ¬ maxAge ≤ now - request.since := by
  simp [evict, Table.find?_filter]

/-- After an event the table holds what the event has recorded, and what it held before and the
event has not displaced. -/
theorem find?_apply (table : RequestTable κ) (event : Event κ) :
    (table.apply event).find? id = some request ↔
      event.Records id request ∨
        table.find? id = some request ∧ ¬ event.Displaces id request.since := by
  cases event with
  | send via state m callback now =>
    simp only [apply, Event.Records, Event.Displaces]
    rcases send_cases table via state m callback now with
      ⟨own, state', admits, sent, eq⟩ | ⟨own, e, admits, failed, eq⟩ | ⟨refused, e, eq⟩
    · rw [eq]
      by_cases same : id = own
      · subst same
        simp [admits, sent, Except.isOk, Except.toBool, eq_comm]
      · have other : ¬ Admits via state m id := fun again => same (again.id_eq admits)
        simp [Table.find?_insert_of_ne _ same, other]
    · rw [eq]
      by_cases same : id = own
      · subst same
        simp [admits, failed, Except.isOk, Except.toBool]
      · have other : ¬ Admits via state m id := fun again => same (again.id_eq admits)
        simp [Table.find?_erase_of_ne _ same, Table.find?_insert_of_ne _ same, other]
    · rw [eq]
      simp [refused]
  | reply m =>
    simp only [apply, Event.Records, Event.Displaces, false_or]
    rcases answer_cases table m with ⟨own, taken, response, responds, -, -, eq⟩ | ⟨unmatched, eq⟩
    · rw [eq]
      by_cases same : id = own
      · subst same
        simp [responds]
      · have other : ¬ Responds m id := fun again => same (again.id_eq responds)
        simp [Table.find?_erase_of_ne _ same, other]
    · rw [eq]
      constructor
      · intro found
        refine ⟨found, fun responds => ?_⟩
        cases (unmatched id responds).symm.trans found
      · exact And.left
  | evict maxAge now =>
    simp only [apply, Event.Records, Event.Displaces, false_or]
    exact find?_evict table maxAge now

def after (events : List (Event κ)) (count : Nat) : RequestTable κ :=
  (events.take count).foldl apply ∅

def ranAt (events : List (Event κ)) (place : Nat) : List κ :=
  match events[place]? with
  | some event => (after events place).ran event
  | none => []

def ranThroughout (events : List (Event κ)) : List κ :=
  (List.range events.length).flatMap (ranAt events)

/-- The event in that place has recorded the request, and no event since has displaced it. -/
structure Waits (events : List (Event κ)) (place count : Nat) (id : MessageId)
    (request : PendingRequest κ) : Prop where
  before : place < count
  recorded : ∃ event, events[place]? = some event ∧ event.Records id request
  lasting : ∀ between event, place < between → between < count →
    events[between]? = some event → ¬ event.Displaces id request.since

variable {events : List (Event κ)} {place count : Nat} {event : Event κ}

theorem after_succ (here : events[count]? = some event) :
    after events (count + 1) = (after events count).apply event := by
  unfold after
  rw [List.take_add_one, here]
  exact List.foldl_append ..

theorem waits_succ (here : events[count]? = some event) :
    Waits events place (count + 1) id request ↔
      place = count ∧ event.Records id request ∨
        Waits events place count id request ∧ ¬ event.Displaces id request.since := by
  constructor
  · rintro ⟨before, ⟨event', there, records⟩, lasting⟩
    by_cases now : place = count
    · subst now
      obtain rfl := Option.some.inj (here.symm.trans there)
      exact Or.inl ⟨rfl, records⟩
    · have earlier : place < count := by omega
      refine Or.inr ⟨⟨earlier, ⟨event', there, records⟩, ?_⟩, ?_⟩
      · intro between e h₁ h₂
        exact lasting between e h₁ (by omega)
      · exact lasting count event earlier (by omega) here
  · rintro (⟨rfl, records⟩ | ⟨⟨before, recorded, lasting⟩, spared⟩)
    · exact ⟨by omega, ⟨event, here, records⟩, fun between e h₁ h₂ => by omega⟩
    · refine ⟨by omega, recorded, fun between e h₁ h₂ there => ?_⟩
      by_cases last : between = count
      · subst last
        obtain rfl := Option.some.inj (here.symm.trans there)
        exact spared
      · exact lasting between e h₁ (by omega) there

theorem after_beyond (beyond : events[count]? = none) :
    after events (count + 1) = after events count := by
  unfold after
  rw [List.take_add_one, beyond]
  simp

theorem waits_beyond (beyond : events[count]? = none) :
    Waits events place (count + 1) id request ↔ Waits events place count id request := by
  constructor
  · rintro ⟨before, ⟨event, there, records⟩, lasting⟩
    have earlier : place ≠ count := by
      rintro rfl
      cases there.symm.trans beyond
    exact ⟨by omega, ⟨event, there, records⟩,
      fun between e h₁ h₂ => lasting between e h₁ (by omega)⟩
  · rintro ⟨before, recorded, lasting⟩
    refine ⟨by omega, recorded, fun between e h₁ h₂ there => ?_⟩
    have earlier : between ≠ count := by
      rintro rfl
      cases there.symm.trans beyond
    exact lasting between e h₁ (by omega) there

theorem find?_after (events : List (Event κ)) (count : Nat) :
    (after events count).find? id = some request ↔
      ∃ place, Waits events place count id request := by
  induction count with
  | zero =>
    constructor
    · intro found
      cases found
    · rintro ⟨place, waits⟩
      exact absurd waits.before (Nat.not_lt_zero _)
  | succ count ih =>
    cases here : events[count]? with
    | some event =>
      -- what is there has been recorded just now, or it has waited and been spared
      rw [after_succ here, find?_apply, ih]
      simp only [waits_succ here]
      grind
    | none =>
      rw [after_beyond here, ih]
      simp only [waits_beyond here]

theorem mem_ran {callback : κ} {reply : Message} :
    callback ∈ table.ran (.reply reply) ↔
      ∃ id since, Responds reply id ∧ table.find? id = some ⟨callback, since⟩ := by
  simp only [ran]
  rcases answer_cases table reply with
    ⟨id, request, response, responds, -, found, eq⟩ | ⟨unmatched, eq⟩
  · rw [eq]
    constructor
    · intro mem
      obtain rfl : callback = request.callback := by simpa using mem
      exact ⟨id, request.since, responds, found⟩
    · rintro ⟨other, since, again, there⟩
      obtain rfl := responds.id_eq again
      cases found.symm.trans there
      simp
  · rw [eq]
    constructor
    · intro mem
      simp at mem
    · rintro ⟨id, since, responds, found⟩
      cases (unmatched id responds).symm.trans found

theorem mem_ranAt {callback : κ} : callback ∈ ranAt events place ↔
    ∃ reply id since, events[place]? = some (.reply reply) ∧ Responds reply id ∧
      (after events place).find? id = some ⟨callback, since⟩ := by
  unfold ranAt
  cases here : events[place]? with
  | none => simp
  | some event =>
    cases event with
    | reply reply => simp [mem_ran]
    | send | evict => simp [ran]

def Distinct (events : List (Event κ)) : Prop := (events.filterMap Event.callback?).Nodup

theorem Distinct.unique (distinct : Distinct events) {i j : Nat} {a b : Event κ} {callback : κ}
    (here : events[i]? = some a) (there : events[j]? = some b)
    (handed : a.callback? = some callback) (again : b.callback? = some callback) : i = j := by
  have apart := List.pairwise_iff_getElem.1 (List.pairwise_filterMap.1 distinct)
  obtain ⟨hi, rfl⟩ := List.getElem?_eq_some_iff.1 here
  obtain ⟨hj, rfl⟩ := List.getElem?_eq_some_iff.1 there
  rcases Nat.lt_trichotomy i j with less | same | more
  · exact (apart i j hi hj less callback handed callback again rfl).elim
  · exact same
  · exact (apart j i hj hi more callback again callback handed rfl).elim

theorem Event.callback?_of_records (records : event.Records id request) :
    event.callback? = some request.callback := by
  cases event with
  | send via state m callback now =>
    obtain ⟨-, -, rfl⟩ := records
    rfl
  | reply | evict => exact records.elim

/-- A callback that is handed over once waits under one id only, from one place on. -/
theorem Distinct.waits_inj (distinct : Distinct events) {i j m n : Nat} {callback : κ}
    {since since' : Nat} (first : Waits events i m id ⟨callback, since⟩)
    (second : Waits events j n other ⟨callback, since'⟩) : i = j ∧ id = other ∧ since = since' := by
  obtain ⟨a, here, records⟩ := first.recorded
  obtain ⟨b, there, records'⟩ := second.recorded
  have handed : a.callback? = some callback := Event.callback?_of_records records
  have again : b.callback? = some callback := Event.callback?_of_records records'
  obtain rfl := distinct.unique here there handed again
  obtain rfl := Option.some.inj (here.symm.trans there)
  cases a with
  | send via state m callback now =>
    obtain ⟨admits, -, same⟩ := records
    obtain ⟨again, -, same'⟩ := records'
    refine ⟨rfl, admits.id_eq again, ?_⟩
    exact congrArg PendingRequest.since (same.trans same'.symm)
  | reply | evict => exact records.elim

theorem Distinct.nodup_ranThroughout (distinct : Distinct events) :
    (ranThroughout events).Nodup := by
  unfold ranThroughout
  rw [List.nodup_flatMap]
  constructor
  · intro place _
    unfold ranAt
    split
    · rename_i event _
      cases event with
      | reply reply =>
        simp only [ran]
        cases (answer (after events place) reply).1 <;> simp
      | send | evict => exact List.nodup_nil
    · exact List.nodup_nil
  · refine List.pairwise_lt_range.imp fun {i j} less => ?_
    intro callback ranFirst ranAgain
    obtain ⟨reply, id, since, here, responds, found⟩ := mem_ranAt.1 ranFirst
    obtain ⟨-, other, since', -, -, found'⟩ := mem_ranAt.1 ranAgain
    obtain ⟨place, waits⟩ := (find?_after events i).1 found
    obtain ⟨place', waits'⟩ := (find?_after events j).1 found'
    -- both are the same request, and the first response has displaced it
    obtain ⟨rfl, rfl, rfl⟩ := distinct.waits_inj waits waits'
    exact waits'.lasting i (.reply reply) waits.before less here responds

section Handed

variable {σ : Type} {via : Carrier σ} {state : σ} {callback : κ} {now since : Nat}

theorem Waits.sent (handed : events[place]? = some (.send via state m callback now))
    (waits : Waits events place count id request) :
    Admits via state m id ∧ (via.transmit m state).isOk = true ∧ request = ⟨callback, now⟩ := by
  obtain ⟨event, here, records⟩ := waits.recorded
  obtain rfl := Option.some.inj (handed.symm.trans here)
  exact records

theorem Distinct.found_iff (distinct : Distinct events)
    (handed : events[place]? = some (.send via state m callback now)) :
    (after events count).find? id = some ⟨callback, since⟩ ↔
      since = now ∧ Waits events place count id ⟨callback, now⟩ := by
  rw [find?_after]
  constructor
  · rintro ⟨place', waits⟩
    obtain ⟨event, here, records⟩ := waits.recorded
    have again : event.callback? = some callback := Event.callback?_of_records records
    obtain rfl := distinct.unique handed here rfl again
    obtain ⟨-, -, same⟩ := waits.sent handed
    cases same
    exact ⟨rfl, waits⟩
  · rintro ⟨rfl, waits⟩
    exact ⟨place, waits⟩

theorem Distinct.waits_of_ran (distinct : Distinct events)
    (handed : events[place]? = some (.send via state m callback now))
    (ran : callback ∈ ranAt events count) :
    ∃ id, Admits via state m id ∧ (via.transmit m state).isOk = true ∧
      Waits events place count id ⟨callback, now⟩ := by
  obtain ⟨reply, id, since, -, -, found⟩ := mem_ranAt.1 ran
  obtain ⟨-, waits⟩ := (distinct.found_iff handed).1 found
  obtain ⟨admits, sent, -⟩ := waits.sent handed
  exact ⟨id, admits, sent, waits⟩

theorem Distinct.mem_ranAt_iff (distinct : Distinct events)
    (handed : events[place]? = some (.send via state m callback now)) (count : Nat) :
    callback ∈ ranAt events count ↔
      ∃ reply id, events[count]? = some (.reply reply) ∧ m.id = some id ∧ Responds reply id ∧
        (after events count).find? id = some ⟨callback, now⟩ := by
  rw [mem_ranAt]
  constructor
  · rintro ⟨reply, id, since, here, responds, found⟩
    obtain ⟨rfl, waits⟩ := (distinct.found_iff handed).1 found
    exact ⟨reply, id, here, (waits.sent handed).1.named, responds, found⟩
  · rintro ⟨reply, id, here, -, responds, found⟩
    exact ⟨reply, id, now, here, responds, found⟩

theorem Distinct.not_ran_of_failed (distinct : Distinct events)
    (handed : events[place]? = some (.send via state m callback now)) {e : HostError}
    (failed : (table.send via state m callback now).1 = .error e) (count : Nat) :
    callback ∉ ranAt events count := by
  intro ran
  obtain ⟨id, admits, sent, -⟩ := distinct.waits_of_ran handed ran
  rcases send_cases table via state m callback now with
    ⟨_, _, -, -, eq⟩ | ⟨_, _, -, unsent, -⟩ | ⟨refused, -⟩
  · rw [eq] at failed
    cases failed
  · rw [unsent] at sent
    cases sent
  · exact refused id admits

theorem Distinct.not_ran_of_displaced (distinct : Distinct events)
    (handed : events[place]? = some (.send via state m callback now)) {between : Nat}
    (here : events[between]? = some event) (later : place < between)
    (displaces : ∀ id, m.id = some id → event.Displaces id now) :
    ∀ count, between < count → callback ∉ ranAt events count := by
  intro count past ran
  obtain ⟨id, admits, -, waits⟩ := distinct.waits_of_ran handed ran
  exact waits.lasting between event later past here (displaces id admits.named)

end Handed

theorem answer_matched (table : RequestTable κ) (m : Message) :
    ((table.answer m).1.isSome = true ↔ ∃ callback, table.ran (.reply m) = [callback]) ∧
    ((table.answer m).1.isSome = true → ∃ id, m.id = some id ∧
      (table.apply (.reply m)).contains id = false ∧
      ∀ other, other ≠ id → (table.apply (.reply m)).find? other = table.find? other) := by
  simp only [ran, apply]
  rcases answer_cases table m with ⟨id, request, response, responds, -, -, eq⟩ | ⟨-, eq⟩
  · rw [eq]
    refine ⟨by simp, fun _ => ⟨id, responds.named, by simp [Table.contains], fun other ne => ?_⟩⟩
    exact Table.find?_erase_of_ne table ne
  · rw [eq]
    simp

/-- A callback that is handed over in one send only runs at most once: with a response under the id
of its request while its entry is in the table, and never if the send has failed, nor after a later
send under its id or an eviction that has found it too old. A reply matches exactly if it runs one
callback, whose entry alone it takes out, and an eviction takes out exactly what it counts. -/
theorem callback_runs_once (events : List (Event κ)) (distinct : Distinct events) :
    (ranThroughout events).Nodup ∧
    (∀ (place : Nat) (σ : Type) (via : Carrier σ) (state : σ) (m : Message) (callback : κ)
        (now : Nat), events[place]? = some (.send via state m callback now) →
      (∀ count, callback ∈ ranAt events count ↔
        ∃ reply id, events[count]? = some (.reply reply) ∧ m.id = some id ∧ Responds reply id ∧
          (after events count).find? id = some ⟨callback, now⟩) ∧
      (∀ e, ((after events place).send via state m callback now).1 = .error e →
        ∀ count, callback ∉ ranAt events count) ∧
      (∀ (between : Nat) (ρ : Type) (via' : Carrier ρ) (state' : ρ) (m' : Message) (callback' : κ)
          (now' : Nat) (id : MessageId), place < between →
        events[between]? = some (.send via' state' m' callback' now') →
        m.id = some id → Admits via' state' m' id →
        ∀ count, between < count → callback ∉ ranAt events count) ∧
      (∀ between maxAge now', place < between → events[between]? = some (.evict maxAge now') →
        maxAge ≤ now' - now → ∀ count, between < count → callback ∉ ranAt events count)) ∧
    (∀ place m, events[place]? = some (.reply m) →
      (((after events place).answer m).1.isSome = true ↔
        ∃ callback, ranAt events place = [callback]) ∧
      (((after events place).answer m).1.isSome = true → ∃ id, m.id = some id ∧
        (after events (place + 1)).contains id = false ∧
        ∀ other, other ≠ id →
          (after events (place + 1)).find? other = (after events place).find? other)) ∧
    (∀ place maxAge now, events[place]? = some (.evict maxAge now) →
      (∀ id request, (after events (place + 1)).find? id = some request ↔
        (after events place).find? id = some request ∧ ¬ maxAge ≤ now - request.since) ∧
      ((after events place).evict maxAge now).1 =
        ((after events place).entries.filter
          fun entry => maxAge ≤ now - entry.2.since).length) := by
  refine ⟨distinct.nodup_ranThroughout, ?_, ?_, ?_⟩
  · intro place σ via state m callback now handed
    refine ⟨distinct.mem_ranAt_iff handed, ?_, ?_, ?_⟩
    · intro e failed
      exact distinct.not_ran_of_failed handed failed
    · intro between ρ via' state' m' callback' now' id later here named admits
      refine distinct.not_ran_of_displaced handed here later fun other own => ?_
      obtain rfl : id = other := Option.some.inj (named.symm.trans own)
      exact admits
    · intro between maxAge now' later here old
      exact distinct.not_ran_of_displaced handed here later fun _ _ => old
  · intro place m here
    have ranHere : ranAt events place = (after events place).ran (.reply m) := by simp [ranAt, here]
    rw [ranHere, after_succ here]
    exact answer_matched (after events place) m
  · intro place maxAge now here
    rw [after_succ here]
    exact ⟨fun id request => find?_evict _ maxAge now, evict_fst _ maxAge now⟩

def openCarrier : Carrier Bool := ⟨fun connected => connected, fun _ connected => .ok connected⟩

def resent : List (Event String) :=
  [.send openCarrier true (.announceOf (.ofUuid 1) 7) "first" 0,
    .send openCarrier true (.announceOf (.ofUuid 1) 7) "second" 5,
    .reply (.ofCode .ok (some 7)), .reply (.ofCode .ok (some 7))]

theorem callback_runs_once_resent :
    Distinct resent ∧ (ranThroughout resent).Nodup ∧ "second" ∈ ranAt resent 2 ∧
    (∀ count, 1 < count → "first" ∉ ranAt resent count) ∧
    ((after resent 2).answer (.ofCode .ok (some 7))).1.isSome = true := by
  have distinct : (resent.filterMap Event.callback?).Nodup := by decide
  obtain ⟨once, fate, matched, -⟩ := callback_runs_once resent distinct
  have found : (after resent 2).find? 7 = some ⟨"second", 5⟩ := by rfl
  obtain ⟨runs, -⟩ := fate 1 Bool openCarrier true (.announceOf (.ofUuid 1) 7) "second" 5 rfl
  obtain ⟨-, -, superseded, -⟩ :=
    fate 0 Bool openCarrier true (.announceOf (.ofUuid 1) 7) "first" 0 rfl
  have responds : Responds (.ofCode .ok (some 7)) 7 := ⟨rfl, by decide, _, rfl, rfl⟩
  have ran : "second" ∈ ranAt resent 2 := (runs 2).2 ⟨_, 7, rfl, rfl, responds, found⟩
  refine ⟨distinct, once, ran, ?_, ?_⟩
  · exact superseded 1 Bool openCarrier true (.announceOf (.ofUuid 1) 7) "second" 5 7 (by decide)
      rfl rfl ⟨rfl, by decide, rfl, by decide⟩
  · obtain ⟨told, -⟩ := matched 2 (.ofCode .ok (some 7)) rfl
    exact told.2 ⟨"second", rfl⟩

end DeviceConnector.RequestTable
