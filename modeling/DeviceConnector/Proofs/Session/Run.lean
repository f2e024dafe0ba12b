import DeviceConnector.Proofs.Session
import Mathlib.Data.List.Infix
/-!
# The ids along a run

Hellos that renew a session or are turned away, byes of strangers and allocations leave a session to
its peer, and only the allocations count. So every session hands out the nonzero ids in order from
one on, whatever else is done meanwhile, and it begins again after the highest.
-/

namespace DeviceConnector.Session

inductive Action where
  | hello (id : Option MessageId) (request : Option HelloRequest)
  | bye (peer : Dsuid)
  | terminate
  | allocate
  deriving DecidableEq

def apply (session : Option Session) : Action → Option Session
  | .hello id request => (hello session id request).2
  | .bye peer => (bye session peer).2
  | .terminate => (terminate session).2
  | .allocate => (allocateId? session).2

def handedOut? (session : Option Session) : Action → Option MessageId
  | .allocate => (allocateId? session).1
  | _ => none

def after (session : Option Session) (actions : List Action) : Option Session :=
  actions.foldl apply session

def handedOut (session : Option Session) : List Action → List MessageId
  | [] => []
  | action :: actions =>
    (handedOut? session action).toList ++ handedOut (apply session action) actions

/-- The last of the actions is a hello that establishes a session of the peer. -/
def Begins (actions : List Action) (peer : Dsuid) : Prop :=
  ∃ earlier id request, actions = earlier ++ [.hello id request] ∧
    (hello (after none earlier) id request).1 = .established peer

def Lasts (session : Option Session) (actions : List Action) : Prop :=
  ∀ count, (after session (actions.take count)).isSome = true

variable {session : Option Session} {current : Session} {action : Action} {actions : List Action}
  {peer : Dsuid}

/-- A hello establishes a session exactly if there is none and it is not refused. -/
theorem hello_established_iff {id : Option MessageId} {request : Option HelloRequest} :
    (hello session id request).1 = .established peer ↔
      session = none ∧ checkHello id request = .ok peer := by
  cases check : checkHello id request with
  | error outcome =>
    rcases checkHello_error check with rfl | rfl | rfl <;> simp [hello, check]
  | ok named =>
    cases session with
    | none => simp [hello, check]
    | some current =>
      by_cases same : current.peer = named <;> simp [hello, check, same]

theorem apply_of_begins {id : Option MessageId} {request : Option HelloRequest}
    (established : (hello session id request).1 = .established peer) :
    apply session (.hello id request) = some { peer } := by
  obtain ⟨rfl, check⟩ := hello_established_iff.1 established
  simp [apply, hello, check]

/-- Only a hello that establishes a session makes one. -/
theorem exists_begins (made : (apply none action).isSome = true) :
    ∃ id request peer, action = .hello id request ∧
      (hello none id request).1 = .established peer := by
  cases action with
  | hello id request =>
    cases check : checkHello id request with
    | error outcome => simp [apply, hello, check] at made
    | ok peer => exact ⟨id, request, peer, rfl, hello_established_iff.2 ⟨rfl, check⟩⟩
  | bye | terminate | allocate => cases made

/-- A session that is not ended is as before, except that an allocation counts. -/
theorem apply_of_lasting (lasting : (apply (some current) action).isSome = true) :
    apply (some current) action =
      some (if action = .allocate then { current with lastId := nextId current.lastId }
        else current) := by
  cases action with
  | hello id request =>
    cases check : checkHello id request with
    | error outcome => simp [apply, hello, check]
    | ok peer => by_cases same : current.peer = peer <;> simp [apply, hello, check, same]
  | bye peer =>
    by_cases same : current.peer = peer
    · simp [apply, bye, same] at lasting
    · simp [apply, bye, same]
  | terminate => cases lasting
  | allocate => rfl

theorem handedOut?_ne_zero {id : MessageId} (out : handedOut? session action = some id) :
    id ≠ 0 := by
  cases action with
  | allocate =>
    cases session with
    | none => cases out
    | some current =>
      obtain rfl := Option.some.inj out
      exact nextId_ne_zero current.lastId
  | hello | bye | terminate => cases out

theorem allocateId?_eq_none_iff : (allocateId? session).1 = none ↔ session = none := by
  cases session <;> simp [allocateId?, allocateId]

theorem after_concat (session : Option Session) (actions : List Action) (action : Action) :
    after session (actions ++ [action]) = apply (after session actions) action :=
  List.foldl_concat ..

theorem after_append (session : Option Session) (first second : List Action) :
    after session (first ++ second) = after (after session first) second :=
  List.foldl_append ..

theorem Lasts.now (lasts : Lasts session actions) : session.isSome = true := lasts 0

theorem Lasts.tail (lasts : Lasts session (action :: actions)) :
    Lasts (apply session action) actions := fun count => lasts (count + 1)

theorem Lasts.concat (lasts : Lasts session actions)
    (further : (after session (actions ++ [action])).isSome = true) :
    Lasts session (actions ++ [action]) := by
  intro count
  by_cases short : count ≤ actions.length
  · rw [List.take_append_of_le_length short]
    exact lasts count
  · rw [List.take_of_length_le (by simp; omega)]
    exact further

theorem handedOut_ne_zero (session : Option Session) (actions : List Action) :
    ∀ id ∈ handedOut session actions, id ≠ 0 := by
  induction actions generalizing session with
  | nil =>
    intro id mem
    cases mem
  | cons action actions ih =>
    intro id mem
    rcases List.mem_append.1 mem with mem | mem
    · exact handedOut?_ne_zero (Option.mem_toList.1 mem)
    · exact ih _ id mem

/-- Every session there is has been established by a hello, and has lasted since. -/
theorem exists_begins_lasts (actions : List Action)
    (held : (after none actions).isSome = true) :
    ∃ before during peer, actions = before ++ during ∧ Begins before peer ∧
      Lasts (after none before) during := by
  induction actions using List.reverseRecOn with
  | nil => cases held
  | append_singleton actions action ih =>
    rw [after_concat] at held
    by_cases free : after none actions = none
    · rw [free] at held
      obtain ⟨id, request, peer, rfl, established⟩ := exists_begins held
      refine ⟨actions ++ [.hello id request], [], peer, by simp, ?_, fun count => ?_⟩
      · exact ⟨actions, id, request, rfl, by rw [free]; exact established⟩
      · rw [List.take_nil, after_concat, free]
        exact held
    · obtain ⟨before, during, peer, rfl, begins, lasts⟩ := ih (Option.isSome_iff_ne_none.2 free)
      refine ⟨before, during ++ [action], peer, (List.append_assoc ..), begins, lasts.concat ?_⟩
      rw [after_append] at held
      rw [after_concat]
      exact held

/-- As long as a session lasts it counts the allocations, and hands out the ids that follow. -/
theorem ids_of_lasts {count : Nat} (lasts : Lasts (some ⟨peer, idAt count⟩) actions) :
    after (some ⟨peer, idAt count⟩) actions =
      some ⟨peer, idAt (count + actions.count .allocate)⟩ ∧
    handedOut (some ⟨peer, idAt count⟩) actions =
      (List.range' count (actions.count .allocate)).map fun k => idAt (k + 1) := by
  induction actions generalizing count with
  | nil => exact ⟨rfl, rfl⟩
  | cons action actions ih =>
    have step := apply_of_lasting lasts.tail.now
    by_cases allocates : action = .allocate
    · subst allocates
      have rest : Lasts (some ⟨peer, idAt (count + 1)⟩) actions := lasts.tail
      rw [if_pos rfl] at step
      obtain ⟨state, ids⟩ := ih rest
      have more : (Action.allocate :: actions).count .allocate = actions.count .allocate + 1 :=
        List.count_cons_self
      rw [more]
      constructor
      · rw [after, List.foldl_cons, step]
        refine state.trans ?_
        rw [Nat.add_assoc, Nat.add_comm 1]
      · rw [List.range'_succ, List.map_cons, handedOut, step]
        exact congrArg (idAt (count + 1) :: ·) ids
    · have rest := lasts.tail
      rw [if_neg allocates] at step
      rw [step] at rest
      obtain ⟨state, ids⟩ := ih rest
      have same : (action :: actions).count .allocate = actions.count .allocate :=
        List.count_cons_of_ne allocates
      have silent : handedOut? (some ⟨peer, idAt count⟩) action = none := by
        cases action with
        | allocate => exact absurd rfl allocates
        | hello | bye | terminate => rfl
      rw [same]
      constructor
      · rw [after, List.foldl_cons, step]
        exact state
      · rw [handedOut, silent, step]
        exact ids

theorem toNat_ids (count : Nat) :
    ((List.range count).map fun k => idAt (k + 1)).map UInt32.toNat =
      (List.range count).map fun k => k % (2 ^ 32 - 1) + 1 := by
  rw [List.map_map]
  exact List.map_congr_left fun k _ => toNat_idAt_succ k

/-- Ids that follow one another are distinct unless there are more of them than nonzero ones. -/
theorem nodup_window {count : Nat} {window : List MessageId}
    (consecutive : window <:+: (List.range count).map fun k => idAt (k + 1))
    (few : window.length < 2 ^ 32) : window.Nodup := by
  obtain ⟨earlier, later, eq⟩ := consecutive
  have value (i : Nat) (bound : i < window.length) :
      window[i].toNat = (earlier.length + i) % (2 ^ 32 - 1) + 1 := by
    have place : ((List.range count).map fun k => idAt (k + 1))[earlier.length + i]? =
        some window[i] := by
      rw [← eq, List.append_assoc, List.getElem?_append_right (Nat.le_add_right ..),
        Nat.add_sub_cancel_left, List.getElem?_append_left bound, List.getElem?_eq_getElem bound]
    rw [List.getElem?_map] at place
    obtain ⟨k, here, same⟩ := Option.map_eq_some_iff.1 place
    obtain ⟨inside, rfl⟩ := List.getElem?_eq_some_iff.1 here
    rw [← same, toNat_idAt_succ, List.getElem_range]
  apply List.pairwise_iff_getElem.2
  intro i j hi hj before same
  have first := value i hi
  have second := value j hj
  rw [same] at first
  omega

/-- An id is handed out exactly if there is a session, and zero never is. Every session has been
established by a hello, and whatever is done while it lasts, its ids are those from one on in order,
which begin again after the highest; so 2^32 - 1 of them that follow one another are distinct. -/
theorem ids_along_run (actions : List Action) :
    ((allocateId? (after none actions)).1 = none ↔ after none actions = none) ∧
    (∀ id ∈ handedOut none actions, id ≠ 0) ∧
    ((after none actions).isSome = true → ∃ before during peer, actions = before ++ during ∧
      Begins before peer ∧ Lasts (after none before) during) ∧
    ∀ before during peer, actions = before ++ during → Begins before peer →
      Lasts (after none before) during →
      (handedOut (after none before) during).map UInt32.toNat =
        (List.range (during.count .allocate)).map (fun k => k % (2 ^ 32 - 1) + 1) ∧
      (allocateId? (after none actions)).1.map UInt32.toNat =
        some (during.count .allocate % (2 ^ 32 - 1) + 1) ∧
      ∀ window, window <:+: handedOut (after none before) during → window.length < 2 ^ 32 →
        window.Nodup := by
  refine ⟨allocateId?_eq_none_iff, handedOut_ne_zero none actions, exists_begins_lasts actions, ?_⟩
  rintro _ during peer rfl ⟨earlier, id, request, rfl, established⟩ lasts
  have fresh : after none (earlier ++ [.hello id request]) = some ⟨peer, idAt 0⟩ := by
    rw [after_concat]
    exact apply_of_begins established
  rw [fresh] at lasts
  obtain ⟨state, ids⟩ := ids_of_lasts lasts
  rw [after_append none _ during, fresh, ids, state, Nat.zero_add, ← List.range_eq_range']
  refine ⟨toNat_ids _, ?_, fun window => nodup_window⟩
  exact congrArg some (toNat_idAt_succ _)

/-- A session is renewed under another spelling of its peer, and after its end the next one counts
from one again. -/
example :
    let greeting := some ⟨some "000000000000000000000000000000AB", some 3⟩
    let again := some ⟨some " 000000000000000000000000000000ab", some 2⟩
    handedOut none [.allocate, .hello (some 1) greeting, .allocate, .hello (some 2) again,
      .bye (.ofUuid 0xCD), .allocate, .terminate, .allocate, .hello (some 1) greeting,
      .allocate] = [1, 2, 1] := by
  decide +kernel

end DeviceConnector.Session
