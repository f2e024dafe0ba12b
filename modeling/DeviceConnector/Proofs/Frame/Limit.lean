import DeviceConnector.Frame.Codec
import DeviceConnector.Proofs.Frame.Stream
import Mathlib.Data.List.TakeWhile
/-!
# Reading and writing within a limit

A codec reads what a reader without a limit reads, up to the first header that declares a body above
its limit. There it stops for good, without a byte taken off. It writes what a writer without a
limit writes, as long as the body is within its limit, so a reader never refuses what a writer with
no larger limit has written.
-/

namespace DeviceConnector

namespace Frame

variable {buffer body rest : Bytes} {length : Nat}

theorem two_le_of_declaredLength? (declared : declaredLength? buffer = some length) :
    2 ≤ buffer.length := by
  match buffer with
  | [] | [_] => cases declared
  | _ :: _ :: _ => simp

theorem le_of_declaredLength? (declared : declaredLength? buffer = some length) :
    length ≤ maxBody := by
  match buffer with
  | [] | [_] => cases declared
  | high :: low :: _ =>
    obtain rfl := Option.some.inj declared
    exact declared_le high low

theorem declaredLength?_append (declared : declaredLength? buffer = some length) (more : Bytes) :
    declaredLength? (buffer ++ more) = some length := by
  match buffer with
  | [] | [_] => cases declared
  | _ :: _ :: _ => exact declared

theorem declaredLength?_of_decode? (taken : decode? buffer = some (body, rest)) :
    declaredLength? buffer = some body.length := by
  match buffer with
  | [] | [_] => simp [decode?] at taken
  | _ :: _ :: _ =>
    simp only [decode?] at taken
    split at taken
    · rename_i whole
      simp only [Option.some.injEq, Prod.mk.injEq] at taken
      rw [← taken.1, whole, declaredLength?]
    · cases taken

theorem decode?_of_undeclared (undeclared : declaredLength? buffer = none) :
    decode? buffer = none := by
  cases taken : decode? buffer with
  | none => rfl
  | some frame => cases undeclared.symm.trans (declaredLength?_of_decode? taken)

/-- In front of whole frames stands the header of one of them. -/
theorem exists_of_declaredLength? {bodies : List Bytes}
    (declared : declaredLength? buffer = some length) (whole : decodeAll buffer = (bodies, [])) :
    ∃ body ∈ bodies, body.length = length := by
  cases taken : decode? buffer with
  | none =>
    rw [decodeAll_of_none taken, Prod.mk.injEq] at whole
    rw [whole.2] at declared
    cases declared
  | some frame =>
    obtain ⟨body, rest⟩ := frame
    rw [decodeAll_of_some taken, Prod.mk.injEq] at whole
    refine ⟨body, whole.1 ▸ List.mem_cons_self .., ?_⟩
    exact Option.some.inj ((declaredLength?_of_decode? taken).symm.trans declared)

end Frame

namespace FrameCodec

variable {codec : FrameCodec} {buffer body rest stream : Bytes} {e : FrameError}

theorem decode_eq_error_iff :
    codec.decode buffer = .error e ↔
      ∃ length, Frame.declaredLength? buffer = some length ∧ codec.maxBody < length ∧
        e = .bodyTooLarge length codec.maxBody := by
  unfold decode
  cases declared : Frame.declaredLength? buffer with
  | none => simp
  | some length =>
    by_cases within : length ≤ codec.maxBody
    · simp [within, Nat.not_lt.2 within]
    · simp [within, Nat.not_le.1 within, eq_comm]

theorem decode_of_not_refused (accepted : ∀ e, codec.decode buffer ≠ .error e) :
    codec.decode buffer = .ok (Frame.decode? buffer) := by
  unfold decode at accepted ⊢
  cases declared : Frame.declaredLength? buffer with
  | none => rw [Frame.decode?_of_undeclared declared]
  | some length =>
    by_cases within : length ≤ codec.maxBody
    · simp only [within, if_true]
    · simp only [declared, within, if_false] at accepted
      exact absurd rfl (accepted _)

theorem decode_append_of_refused (refused : codec.decode buffer = .error e) (more : Bytes) :
    codec.decode (buffer ++ more) = .error e := by
  obtain ⟨length, declared, above, rfl⟩ := decode_eq_error_iff.1 refused
  exact decode_eq_error_iff.2 ⟨length, Frame.declaredLength?_append declared more, above, rfl⟩

theorem decode?_of_decode {frame : Option (Bytes × Bytes)}
    (read : codec.decode buffer = .ok frame) : Frame.decode? buffer = frame := by
  have accepted : ∀ e, codec.decode buffer ≠ .error e := by
    intro e refused
    cases read.symm.trans refused
  exact Except.ok.inj ((decode_of_not_refused accepted).symm.trans read)

theorem within_of_decode (read : codec.decode buffer = .ok (some (body, rest))) :
    body.length ≤ codec.maxBody := by
  apply Nat.le_of_not_lt
  intro above
  have declared := Frame.declaredLength?_of_decode? (decode?_of_decode read)
  cases read.symm.trans (decode_eq_error_iff.2 ⟨_, declared, above, rfl⟩)

theorem go_of_refused (refused : codec.decode buffer = .error e) (bodies : List Bytes) :
    decodeAll.go codec bodies buffer = (bodies.reverse, buffer, some e) := by
  rw [decodeAll.go]
  grind

theorem go_of_unfinished (unfinished : codec.decode buffer = .ok none) (bodies : List Bytes) :
    decodeAll.go codec bodies buffer = (bodies.reverse, buffer, none) := by
  rw [decodeAll.go]
  grind

theorem go_of_taken (taken : codec.decode buffer = .ok (some (body, rest)))
    (bodies : List Bytes) :
    decodeAll.go codec bodies buffer = decodeAll.go codec (body :: bodies) rest := by
  rw [decodeAll.go]
  grind

theorem go_eq (codec : FrameCodec) (bodies : List Bytes) (buffer : Bytes) :
    decodeAll.go codec bodies buffer =
      (bodies.reverse ++ (codec.decodeAll buffer).1, (codec.decodeAll buffer).2) := by
  induction size : buffer.length using Nat.strongRecOn generalizing bodies buffer with
  | _ size ih =>
    cases read : codec.decode buffer with
    | error e => simp [decodeAll, go_of_refused read]
    | ok frame =>
      cases frame with
      | none => simp [decodeAll, go_of_unfinished read]
      | some frame =>
        obtain ⟨body, rest⟩ := frame
        have shorter := size ▸ Frame.length_lt_of_decode? (decode?_of_decode read)
        rw [decodeAll, go_of_taken read, go_of_taken read, ih _ shorter (body :: bodies) rest rfl,
          ih _ shorter [body] rest rfl]
        simp

theorem decodeAll_of_refused (refused : codec.decode buffer = .error e) :
    codec.decodeAll buffer = ([], buffer, some e) :=
  go_of_refused refused []

theorem decodeAll_of_unfinished (unfinished : codec.decode buffer = .ok none) :
    codec.decodeAll buffer = ([], buffer, none) :=
  go_of_unfinished unfinished []

theorem decodeAll_of_taken (taken : codec.decode buffer = .ok (some (body, rest))) :
    codec.decodeAll buffer =
      (body :: (codec.decodeAll rest).1, (codec.decodeAll rest).2) :=
  (go_of_taken taken []).trans (go_eq codec [body] rest)

/-- The bodies up to the first one that is too large are taken off. What is left begins with that
one, and the codec has refused it if its header is there. -/
theorem decodeAll_within (codec : FrameCodec) (buffer : Bytes) :
    (codec.decodeAll buffer).1 =
      (Frame.decodeAll buffer).1.takeWhile (·.length ≤ codec.maxBody) ∧
    Frame.decodeAll (codec.decodeAll buffer).2.1 =
      ((Frame.decodeAll buffer).1.dropWhile (·.length ≤ codec.maxBody),
        (Frame.decodeAll buffer).2) ∧
    ∀ e, (codec.decodeAll buffer).2.2 = some e ↔
      codec.decode (codec.decodeAll buffer).2.1 = .error e := by
  induction size : buffer.length using Nat.strongRecOn generalizing buffer with
  | _ size ih =>
    cases read : codec.decode buffer with
    | error e =>
      obtain ⟨length, declared, above, rfl⟩ := decode_eq_error_iff.1 read
      rw [decodeAll_of_refused read]
      cases taken : Frame.decode? buffer with
      | none =>
        rw [Frame.decodeAll_of_none taken]
        exact ⟨rfl, rfl, by simp [read]⟩
      | some frame =>
        obtain ⟨body, rest⟩ := frame
        obtain rfl : length = body.length :=
          Option.some.inj (declared.symm.trans (Frame.declaredLength?_of_decode? taken))
        rw [Frame.decodeAll_of_some taken]
        simp [Nat.not_le.2 above, read]
    | ok frame =>
      have plain := decode?_of_decode read
      cases frame with
      | none =>
        rw [decodeAll_of_unfinished read, Frame.decodeAll_of_none plain]
        exact ⟨rfl, rfl, by simp [read]⟩
      | some frame =>
        obtain ⟨body, rest⟩ := frame
        have within := within_of_decode read
        have shorter := size ▸ Frame.length_lt_of_decode? plain
        obtain ⟨taken, left, refused⟩ := ih _ shorter rest rfl
        rw [decodeAll_of_taken read, Frame.decodeAll_of_some plain]
        simp [within, taken, left, refused]

theorem encode_of_within {written : Bytes} (within : body.length ≤ codec.maxBody) :
    codec.encode body written = .ok (written ++ Frame.wire body) := by
  have fits := Nat.le_trans within codec.maxBody_le
  simp [encode, within, Frame.encode, fits, Frame.wire]

theorem encode_eq_error_iff {written : Bytes} :
    codec.encode body written = .error e ↔
      codec.maxBody < body.length ∧ e = .bodyTooLarge body.length codec.maxBody := by
  by_cases within : body.length ≤ codec.maxBody
  · simp [encode_of_within within, Nat.not_lt.2 within]
  · simp [encode, within, Nat.not_le.1 within, eq_comm]

def encodeAll (codec : FrameCodec) (bodies : List Bytes) (written : Bytes) :
    Except FrameError Bytes :=
  bodies.foldlM (fun written body => codec.encode body written) written

theorem encodeAll_eq_ok_iff {bodies : List Bytes} {written : Bytes} :
    codec.encodeAll bodies written = .ok stream ↔
      (∀ body ∈ bodies, body.length ≤ codec.maxBody) ∧ stream = written ++ Frame.wires bodies := by
  have all : codec.encodeAll bodies written = .ok stream ↔
      (∀ body ∈ bodies, (id body).length ≤ codec.maxBody) ∧
      stream = written ++ Frame.wires (bodies.map id) := by
    apply Frame.foldlM_eq_ok_iff
    · intro body written within
      exact encode_of_within within
    · intro body written above
      exact ⟨_, encode_eq_error_iff.2 ⟨above, rfl⟩⟩
  rwa [List.map_id] at all

theorem wires_decodeAll (codec : FrameCodec) (buffer : Bytes) :
    Frame.wires (codec.decodeAll buffer).1 ++ (codec.decodeAll buffer).2.1 = buffer := by
  obtain ⟨taken, left, -⟩ := decodeAll_within codec buffer
  have rest := (Frame.wires_decodeAll (codec.decodeAll buffer).2.1).2
  rw [left] at rest
  rw [← rest, taken, ← List.append_assoc, ← Frame.wires_append, List.takeWhile_append_dropWhile]
  exact (Frame.wires_decodeAll buffer).2

/-- Of a stream of bodies within the limit nothing is refused, however much of it has arrived. -/
theorem not_refused_of_part {bodies : List Bytes} {received : Bytes}
    (within : ∀ body ∈ bodies, body.length ≤ codec.maxBody)
    (arrived : received <+: Frame.wires bodies) : (codec.decodeAll received).2.2 = none := by
  cases refusal : (codec.decodeAll received).2.2 with
  | none => rfl
  | some e =>
    exfalso
    -- A header that is refused is there in full. Once the rest has arrived it heads one of the
    -- bodies that were written.
    obtain ⟨-, -, refused⟩ := decodeAll_within codec received
    obtain ⟨length, declared, above, -⟩ := decode_eq_error_iff.1 ((refused e).1 refusal)
    obtain ⟨outstanding, whole⟩ := arrived
    have fits : ∀ body ∈ bodies, body.length ≤ Frame.maxBody := by
      intro body mem
      exact Nat.le_trans (within body mem) codec.maxBody_le
    have all := Frame.decodeAll_wires_eq fits
    have taken : ∀ body ∈ (codec.decodeAll received).1, body.length ≤ Frame.maxBody := by
      intro body mem
      rw [(decodeAll_within codec received).1] at mem
      exact (Frame.wires_decodeAll received).1 body (List.takeWhile_subset _ mem)
    rw [← whole, ← wires_decodeAll codec received, List.append_assoc,
      Frame.decodeAll_wires taken, Prod.mk.injEq] at all
    obtain ⟨body, mem, own⟩ := Frame.exists_of_declaredLength?
      (Frame.declaredLength?_append declared outstanding) (Prod.ext rfl all.2)
    have bound := within body (all.1 ▸ List.mem_append_right _ mem)
    omega

theorem decodeAll_wires {bodies : List Bytes}
    (within : ∀ body ∈ bodies, body.length ≤ codec.maxBody) :
    codec.decodeAll (Frame.wires bodies) = (bodies, [], none) := by
  have fits : ∀ body ∈ bodies, body.length ≤ Frame.maxBody := by
    intro body mem
    exact Nat.le_trans (within body mem) codec.maxBody_le
  have taken : (codec.decodeAll (Frame.wires bodies)).1 = bodies := by
    rw [(decodeAll_within codec _).1, Frame.decodeAll_wires_eq fits, List.takeWhile_eq_self_iff]
    intro body mem
    exact decide_eq_true (within body mem)
  have left := wires_decodeAll codec (Frame.wires bodies)
  rw [taken, List.append_right_eq_self] at left
  exact Prod.ext taken (Prod.ext left (not_refused_of_part within (List.prefix_refl _)))

/-- How a codec with a limit compares with reading and writing without one. -/
structure Refines (codec : FrameCodec) (limit : Nat) : Prop where
  /-- A frame is refused as soon as its header is there. -/
  refuses : ∀ buffer e, codec.decode buffer = .error e ↔
    2 ≤ buffer.length ∧ ∃ length, Frame.declaredLength? buffer = some length ∧
      limit < length ∧ e = .bodyTooLarge length limit
  /-- A refusal takes nothing off the buffer and is for good. -/
  persists : ∀ buffer e, codec.decode buffer = .error e → ∀ more,
    codec.decode (buffer ++ more) = .error e ∧
    codec.decodeAll (buffer ++ more) = ([], buffer ++ more, some e)
  agrees : ∀ buffer, (∀ e, codec.decode buffer ≠ .error e) →
    codec.decode buffer = .ok (Frame.decode? buffer)
  /-- Of several frames those before the first one that is too large are taken off. -/
  takes : ∀ buffer, ∃ rest refusal,
    codec.decodeAll buffer =
      ((Frame.decodeAll buffer).1.takeWhile (·.length ≤ limit), rest, refusal) ∧
    Frame.decodeAll rest =
      ((Frame.decodeAll buffer).1.dropWhile (·.length ≤ limit), (Frame.decodeAll buffer).2) ∧
    ∀ e, refusal = some e ↔ codec.decode rest = .error e
  fails : ∀ body written e, codec.encode body written = .error e ↔
    limit < body.length ∧ e = .bodyTooLarge body.length limit
  appends : ∀ body written, body.length ≤ limit → ∃ frame,
    Frame.encode (some body) [] = .ok frame ∧ codec.encode body written = .ok (written ++ frame)
  /-- What a writer with no larger limit has written is read without a refusal. -/
  accepts : ∀ (writer : FrameCodec) bodies stream, writer.maxBody ≤ limit →
    writer.encodeAll bodies [] = .ok stream →
    codec.decodeAll stream = (bodies, [], none) ∧
    ∀ received, received <+: stream → (codec.decodeAll received).2.2 = none
  unlimited : limit = Frame.maxBody → ∀ buffer e, codec.decode buffer ≠ .error e

/-- A codec with a limit, as far as a header can declare it, reads and writes as one without, but
for the bodies above its limit. -/
theorem limited_refines (limit : Nat) : Refines (ofLimit limit) (min limit Frame.maxBody) where
  refuses buffer e := by
    rw [decode_eq_error_iff]
    constructor
    · rintro ⟨length, declared, above⟩
      exact ⟨Frame.two_le_of_declaredLength? declared, length, declared, above⟩
    · exact And.right
  persists buffer e refused more := by
    have again := decode_append_of_refused refused more
    exact ⟨again, decodeAll_of_refused again⟩
  agrees buffer accepted := decode_of_not_refused accepted
  takes buffer := by
    obtain ⟨taken, left, refused⟩ := decodeAll_within (ofLimit limit) buffer
    exact ⟨_, _, Prod.ext taken rfl, left, refused⟩
  fails body written e := encode_eq_error_iff
  appends body written within := by
    have fits := Nat.le_trans within (Nat.min_le_right ..)
    refine ⟨Frame.wire body, ?_, encode_of_within within⟩
    simp [Frame.encode, fits, Frame.wire]
  accepts writer bodies stream smaller encoded := by
    obtain ⟨bound, rfl⟩ := encodeAll_eq_ok_iff.1 encoded
    have within : ∀ body ∈ bodies, body.length ≤ (ofLimit limit).maxBody := by
      intro body mem
      exact Nat.le_trans (bound body mem) smaller
    refine ⟨decodeAll_wires within, ?_⟩
    intro received arrived
    exact not_refused_of_part within arrived
  unlimited largest buffer e := by
    intro refused
    obtain ⟨length, declared, above, -⟩ := decode_eq_error_iff.1 refused
    have bound := Frame.le_of_declaredLength? declared
    have own : (ofLimit limit).maxBody = Frame.maxBody := largest
    omega

/-- A declared length of nine bytes is refused before they are there. Three bodies that are written
with a smaller limit are read, as far as they have arrived. -/
theorem limited_refines_four_bytes :
    (ofLimit 4).decode [0, 9, 1] = .error (.bodyTooLarge 9 4) ∧
    (ofLimit 4).decodeAll [0, 9, 1, 2, 3] = ([], [0, 9, 1, 2, 3], some (.bodyTooLarge 9 4)) ∧
    (ofLimit 4).decodeAll [0, 1, 7, 0, 0, 0, 3, 1, 2, 3] = ([[7], [], [1, 2, 3]], [], none) ∧
    ((ofLimit 4).decodeAll [0, 1, 7, 0, 0, 0, 3, 1]).2.2 = none := by
  have refines := limited_refines 4
  have refused : (ofLimit 4).decode [0, 9, 1] = .error (.bodyTooLarge 9 4) :=
    (refines.refuses _ _).2 ⟨by decide, 9, rfl, by decide, rfl⟩
  obtain ⟨-, stopped⟩ := refines.persists _ _ refused [2, 3]
  obtain ⟨whole, part⟩ := refines.accepts (ofLimit 3) [[7], [], [1, 2, 3]]
    [0, 1, 7, 0, 0, 0, 3, 1, 2, 3] (by decide) rfl
  exact ⟨refused, stopped, whole, part _ ⟨[2, 3], rfl⟩⟩

end FrameCodec

end DeviceConnector
