import DeviceConnector.Proofs.Identifier.TimeBased
/-!
# What a time-based identifier shows

The fields of the identifiers that a new minter gives out, call by call. Time and host id can be
read off each identifier alone. The clock sequence depends on the calls before: it counts how many
there have been since the latest record, a reading past all earlier ones.
-/

namespace DeviceConnector

namespace Dsuid

def timeLow (d : Dsuid) : Nat := (d.uuid.extractLsb' 96 32).toNat

def timeMid (d : Dsuid) : Nat := (d.uuid.extractLsb' 80 16).toNat

def timeHigh (d : Dsuid) : Nat := (d.uuid.extractLsb' 64 12).toNat

def clockSequence (d : Dsuid) : Nat := (d.uuid.extractLsb' 48 16).toNat

def node (d : Dsuid) : Nat := (d.uuid.extractLsb' 0 48).toNat

end Dsuid

namespace Minter

variable {times : List (BitVec 64)} {place : Nat} {t : BitVec 64}

/-- The high word, with the parts of the time shifted into place and the version bit set. -/
def highWord (millis : BitVec 64) : BitVec 64 :=
  millis <<< 32 ||| (millis &&& 0xFFFF00000000#64) >>> 16 |||
    (0x1000#64 ||| (millis >>> 48 &&& 0x0FFF#64))

def lowWord (sequence : BitVec 16) (hostId : BitVec 48) : BitVec 64 :=
  sequence.setWidth 64 <<< 48 ||| hostId.setWidth 64

theorem highWord_eq (millis : BitVec 64) : highWord millis =
    millis.extractLsb' 0 32 ++ millis.extractLsb' 32 16 ++ 1#4 ++ millis.extractLsb' 48 12 := by
  -- each mask is a run of ones that has been shifted, so that every bit has a closed form
  have middle : 0xFFFF00000000#64 = (BitVec.allOnes 16).setWidth 64 <<< 32 := rfl
  have high : 0x0FFF#64 = (BitVec.allOnes 12).setWidth 64 := rfl
  have version : 0x1000#64 = (1#4).setWidth 64 <<< 12 := rfl
  rw [highWord, middle, high, version]
  apply BitVec.eq_of_getLsbD_eq
  intro i inside
  simp only [BitVec.getLsbD_or, BitVec.getLsbD_and, BitVec.getLsbD_shiftLeft,
    BitVec.getLsbD_ushiftRight, BitVec.getLsbD_setWidth, BitVec.getLsbD_allOnes,
    BitVec.getLsbD_append, BitVec.getLsbD_extractLsb']
  grind

theorem lowWord_eq (sequence : BitVec 16) (hostId : BitVec 48) :
    lowWord sequence hostId = sequence ++ hostId := by
  apply BitVec.eq_of_getLsbD_eq
  intro i inside
  simp only [lowWord, BitVec.getLsbD_or, BitVec.getLsbD_shiftLeft, BitVec.getLsbD_setWidth,
    BitVec.getLsbD_append]
  grind

theorem layout_eq_words (millis : BitVec 64) (sequence : BitVec 16) (hostId : BitVec 48) :
    layout millis sequence hostId = highWord millis ++ lowWord sequence hostId := by
  rw [highWord_eq, lowWord_eq]
  exact BitVec.append_assoc

/-- The fields lie side by side, so that each is what has been put there. -/
theorem fields_layout (millis : BitVec 64) (sequence : BitVec 16) (hostId : BitVec 48) :
    (layout millis sequence hostId).extractLsb' 96 32 = millis.extractLsb' 0 32 ∧
    (layout millis sequence hostId).extractLsb' 80 16 = millis.extractLsb' 32 16 ∧
    (layout millis sequence hostId).extractLsb' 76 4 = 1#4 ∧
    (layout millis sequence hostId).extractLsb' 64 12 = millis.extractLsb' 48 12 ∧
    (layout millis sequence hostId).extractLsb' 48 16 = sequence ∧
    (layout millis sequence hostId).extractLsb' 0 48 = hostId := by
  unfold layout
  refine ⟨?_, ?_, ?_, ?_, ?_, ?_⟩
  all_goals
    apply BitVec.eq_of_getLsbD_eq
    intro i inside
    simp only [BitVec.getLsbD_append, BitVec.getLsbD_extractLsb']
    grind

/-- The three parts of the time give back as much of it as there is room for. -/
theorem toNat_parts (millis : BitVec 64) :
    (millis.extractLsb' 48 12).toNat * 2 ^ 48 + (millis.extractLsb' 32 16).toNat * 2 ^ 32 +
      (millis.extractLsb' 0 32).toNat = millis.toNat % 2 ^ 60 := by
  simp only [BitVec.extractLsb'_toNat, Nat.shiftRight_eq_div_pow]
  omega

def isRecord (times : List (BitVec 64)) (place : Nat) : Bool :=
  times[place]?.any fun t => 0 < t && (times.take place).all (· < t)

/-- Number of calls after the latest record, up to the one in that place; all of them count where
there has been no record. -/
def sinceRecord (times : List (BitVec 64)) (place : Nat) : Nat :=
  match ((List.range (place + 1)).filter (isRecord times)).getLast? with
  | some latest => place - latest
  | none => place + 1

theorem sinceRecord_of_record (record : isRecord times place = true) :
    sinceRecord times place = 0 := by
  simp [sinceRecord, List.range_succ, record]

theorem sinceRecord_succ (plain : isRecord times (place + 1) = false) :
    sinceRecord times (place + 1) = sinceRecord times place + 1 := by
  have same : (List.range (place + 1 + 1)).filter (isRecord times) =
      (List.range (place + 1)).filter (isRecord times) := by
    rw [List.range_succ, List.filter_append]
    simp [plain]
  unfold sinceRecord
  rw [same]
  cases last : ((List.range (place + 1)).filter (isRecord times)).getLast? with
  | none => rfl
  | some latest =>
    have mem := List.mem_of_getLast? last
    have before : latest < place + 1 := List.mem_range.1 (List.mem_filter.1 mem).1
    exact Nat.succ_sub (Nat.le_of_lt_succ before)

/-- A new minter starts its clock at zero, so that it moves forward exactly at the records. -/
theorem sinceAdvance_ofHostId (hostId : BitVec 64) (times : List (BitVec 64)) (place : Nat) :
    sinceAdvance (ofHostId hostId) times place = sinceRecord times place := by
  have records (place : Nat) : advances (ofHostId hostId) times place = isRecord times place := rfl
  induction place with
  | zero =>
    rw [sinceAdvance, records]
    cases record : isRecord times 0 with
    | true => rw [sinceRecord_of_record record, if_pos rfl]
    | false => simp [sinceRecord, record, ofHostId]
  | succ place ih =>
    rw [sinceAdvance, records, ih]
    cases record : isRecord times (place + 1) with
    | true => rw [sinceRecord_of_record record, if_pos rfl]
    | false => rw [sinceRecord_succ record, if_neg Bool.false_ne_true]

theorem sequence_ofHostId (hostId : BitVec 64) (here : times[place]? = some t) :
    ((ofHostId hostId).after times (place + 1)).sequence =
      BitVec.ofNat 16 (sinceRecord times place) := by
  apply BitVec.eq_of_toNat_eq
  rw [sequence_after here, sinceAdvance_ofHostId, BitVec.toNat_ofNat]

/-- Every call gives an identifier of version one. It shows 60 bits of the reading, 48 bits of the
host id, and the number of calls since the latest record, modulo 2^16. -/
theorem fields_of_minted (hostId : BitVec 64) (times : List (BitVec 64)) :
    ((ofHostId hostId).mintAll times).1.length = times.length ∧
    ∀ place t d, times[place]? = some t →
      ((ofHostId hostId).mintAll times).1[place]? = some d →
        d.version = 1 ∧
        d.timeHigh * 2 ^ 48 + d.timeMid * 2 ^ 32 + d.timeLow = t.toNat % 2 ^ 60 ∧
        d.node = hostId.toNat % 2 ^ 48 ∧
        d.clockSequence = sinceRecord times place % 65536 ∧
        d = .ofUuid (highWord t ++
          lowWord (BitVec.ofNat 16 (sinceRecord times place)) (ofHostId hostId).hostId) := by
  refine ⟨length_mintAll _ times, ?_⟩
  intro place t d here minted
  rw [mintAll_getElem?, here, sequence_ofHostId hostId here] at minted
  obtain rfl : Dsuid.ofUuid (layout t (BitVec.ofNat 16 (sinceRecord times place))
      (ofHostId hostId).hostId) = d := Option.some.inj minted
  obtain ⟨low, mid, version, high, sequence, node⟩ :=
    fields_layout t (BitVec.ofNat 16 (sinceRecord times place)) (ofHostId hostId).hostId
  refine ⟨?_, ?_, ?_, ?_, congrArg Dsuid.ofUuid (layout_eq_words ..)⟩
  · rw [Dsuid.version, Dsuid.ofUuid, version]
    rfl
  · rw [Dsuid.timeHigh, Dsuid.timeMid, Dsuid.timeLow, Dsuid.ofUuid, high, mid, low, toNat_parts]
  · rw [Dsuid.node, Dsuid.ofUuid, node]
    exact BitVec.toNat_setWidth ..
  · rw [Dsuid.clockSequence, Dsuid.ofUuid, sequence, BitVec.toNat_ofNat]

def irregular : List (BitVec 64) := [0, 0, 7, 7, 3, 0x1000000000000009#64]

theorem fields_of_minted_irregular :
    irregular.map BitVec.toNat = [0, 0, 7, 7, 3, 2 ^ 60 + 9] ∧
    (List.range 6).map (sinceRecord irregular) = [1, 2, 0, 1, 2, 0] ∧
    ∃ d, ((ofHostId 0xABCD112233445566#64).mintAll irregular).1[4]? = some d ∧ d.version = 1 ∧
      d.timeHigh * 2 ^ 48 + d.timeMid * 2 ^ 32 + d.timeLow = 3 ∧ d.node = 0x112233445566 ∧
      d.clockSequence = 2 := by
  obtain ⟨length, fields⟩ := fields_of_minted 0xABCD112233445566#64 irregular
  obtain ⟨d, minted⟩ : ∃ d, ((ofHostId 0xABCD112233445566#64).mintAll irregular).1[4]? = some d :=
    ⟨_, List.getElem?_eq_getElem (by rw [length]; decide)⟩
  obtain ⟨version, time, node, sequence, -⟩ := fields 4 3 d rfl minted
  exact ⟨by decide, by decide, d, minted, version, time, node, sequence⟩

end Minter

end DeviceConnector
