import DeviceConnector.Identifier.TimeBased
import Mathlib.Algebra.Group.Nat.Defs
import Mathlib.Data.List.NodupEquivFin
import Mathlib.Order.Monotone.Basic
/-!
# When time-based identifiers repeat

An identifier carries the timestamp of its own call, and the number of calls since the clock last
moved forward, modulo 2^16. It says nothing of how far the clock had come. So two calls get the same
one exactly if they agree in both, which needs more than 2^16 calls in the same millisecond unless
the clock goes back.
-/

namespace DeviceConnector.Minter

variable {m : Minter} {times : List (BitVec 64)} {place : Nat} {t : BitVec 64}

def advances (m : Minter) (times : List (BitVec 64)) (place : Nat) : Bool :=
  times[place]?.any fun t => m.latest < t && (times.take place).all (· < t)

/-- Number of calls since the clock last moved forward, up to the one in that place. -/
def sinceAdvance (m : Minter) (times : List (BitVec 64)) : Nat → Nat
  | 0 => if advances m times 0 then 0 else m.sequence.toNat + 1
  | place + 1 => if advances m times (place + 1) then 0 else sinceAdvance m times place + 1

theorem toNat_layout (millis : BitVec 64) (sequence : BitVec 16) (hostId : BitVec 48) :
    (layout millis sequence hostId).toNat =
      millis.toNat % 2 ^ 32 * 2 ^ 96 + millis.toNat / 2 ^ 32 % 2 ^ 16 * 2 ^ 80 + 2 ^ 76 +
        millis.toNat / 2 ^ 48 % 2 ^ 12 * 2 ^ 64 + sequence.toNat * 2 ^ 48 + hostId.toNat := by
  have joined {v w : Nat} (x : BitVec v) (y : BitVec w) :
      (x ++ y).toNat = x.toNat * 2 ^ w + y.toNat := by
    rw [BitVec.toNat_append, ← Nat.shiftLeft_add_eq_or_of_lt y.isLt, Nat.shiftLeft_eq]
  simp only [layout, joined, BitVec.extractLsb'_toNat, Nat.shiftRight_eq_div_pow]
  simp only [BitVec.toNat_ofNat]
  omega

/-- An identifier shows 60 bits of the timestamp, and the sequence. -/
theorem layout_inj {millis millis' : BitVec 64} {sequence sequence' : BitVec 16}
    {hostId : BitVec 48} : layout millis sequence hostId = layout millis' sequence' hostId ↔
      millis.toNat % 2 ^ 60 = millis'.toNat % 2 ^ 60 ∧ sequence = sequence' := by
  have small := sequence.isLt
  have small' := sequence'.isLt
  have parts (n : Nat) : n % 2 ^ 60 =
      n / 2 ^ 48 % 2 ^ 12 * 2 ^ 48 + n / 2 ^ 32 % 2 ^ 16 * 2 ^ 32 + n % 2 ^ 32 := by omega
  rw [← BitVec.toNat_inj, ← BitVec.toNat_inj, toNat_layout, toNat_layout, parts millis.toNat,
    parts millis'.toNat]
  omega

def after (m : Minter) (times : List (BitVec 64)) (count : Nat) : Minter :=
  (times.take count).foldl tick m

theorem after_succ (here : times[place]? = some t) :
    m.after times (place + 1) = (m.after times place).tick t := by
  unfold after
  rw [List.take_add_one, here]
  exact List.foldl_append ..

theorem tick_hostId (m : Minter) (t : BitVec 64) : (m.tick t).hostId = m.hostId := by
  unfold tick
  split <;> rfl

theorem mintAll_getElem? (m : Minter) (times : List (BitVec 64)) (place : Nat) :
    (m.mintAll times).1[place]? = times[place]?.map fun t =>
      Dsuid.ofUuid (layout t (m.after times (place + 1)).sequence m.hostId) := by
  induction times generalizing m place with
  | nil => rfl
  | cons first times ih =>
    have minted : (m.mintAll (first :: times)).1 =
        Dsuid.ofUuid (layout first (m.tick first).sequence m.hostId) ::
          ((m.tick first).mintAll times).1 := by
      rw [mintAll, mint, tick_hostId]
    rw [minted]
    cases place with
    | zero => rfl
    | succ place =>
      rw [List.getElem?_cons_succ, List.getElem?_cons_succ, ih, tick_hostId]
      rfl

/-- A reading is past the clock exactly if it is past all readings so far. -/
theorem latest_foldl_lt (m : Minter) (times : List (BitVec 64)) (t : BitVec 64) :
    (times.foldl tick m).latest < t ↔ m.latest < t ∧ ∀ earlier ∈ times, earlier < t := by
  induction times generalizing m with
  | nil => simp
  | cons first times ih =>
    have ticked : (m.tick first).latest < t ↔ m.latest < t ∧ first < t := by
      unfold tick
      split
      · rename_i past
        constructor
        · intro later
          exact ⟨BitVec.lt_trans past later, later⟩
        · exact And.right
      · rename_i behind
        constructor
        · intro later
          exact ⟨later, by bv_omega⟩
        · exact And.left
    rw [List.foldl_cons, ih, ticked, and_assoc, List.forall_mem_cons]

theorem latest_after_lt (here : times[place]? = some t) :
    (m.after times place).latest < t ↔ advances m times place = true := by
  rw [after, latest_foldl_lt]
  simp [advances, here]

theorem sequence_after_succ (here : times[place]? = some t) :
    (m.after times (place + 1)).sequence =
      if advances m times place then 0 else (m.after times place).sequence + 1 := by
  rw [after_succ here, tick]
  simp only [latest_after_lt here]
  split <;> rfl

/-- The sequence counts the calls since the clock last moved forward. -/
theorem sequence_after (here : times[place]? = some t) :
    (m.after times (place + 1)).sequence.toNat = sinceAdvance m times place % 2 ^ 16 := by
  induction place generalizing t with
  | zero =>
    have start : m.after times 0 = m := rfl
    rw [sequence_after_succ here, start, sinceAdvance]
    split
    · rfl
    · exact BitVec.toNat_add ..
  | succ place ih =>
    have inside := (List.getElem?_eq_some_iff.1 here).1
    have there : times[place]? = some times[place] := List.getElem?_eq_getElem (by omega)
    rw [sequence_after_succ here, sinceAdvance]
    split
    · rfl
    · have one : (1 : BitVec 16).toNat = 1 := rfl
      rw [BitVec.toNat_add, ih there, one]
      omega

/-- Two calls give the same identifier exactly if they agree in the timestamp, as far as it is
shown, and in the number of calls since the clock last moved forward, as far as that is shown. -/
theorem mintAll_getElem?_inj {i j : Nat} {t t' : BitVec 64} (here : times[i]? = some t)
    (there : times[j]? = some t') : (m.mintAll times).1[i]? = (m.mintAll times).1[j]? ↔
      t.toNat % 2 ^ 60 = t'.toNat % 2 ^ 60 ∧
      sinceAdvance m times i % 2 ^ 16 = sinceAdvance m times j % 2 ^ 16 := by
  rw [mintAll_getElem?, mintAll_getElem?, here, there, Option.map_some, Option.map_some,
    Option.some_inj, Dsuid.ofUuid, Dsuid.ofUuid, Dsuid.mk.injEq, and_iff_left rfl, layout_inj,
    ← sequence_after here, ← sequence_after there, BitVec.toNat_inj]

theorem length_mintAll (m : Minter) (times : List (BitVec 64)) :
    (m.mintAll times).1.length = times.length := by
  induction times generalizing m with
  | nil => rfl
  | cons first times ih => exact congrArg (· + 1) (ih (m.mint first).2)

/-- No two calls of the same millisecond agree in what is shown of the calls since the clock last
moved forward. -/
def Apart (m : Minter) (times : List (BitVec 64)) : Prop :=
  ∀ i j t, i < j → times[i]? = some t → times[j]? = some t →
    sinceAdvance m times i % 2 ^ 16 ≠ sinceAdvance m times j % 2 ^ 16

theorem nodup_mintAll_iff_apart (below : ∀ t ∈ times, t.toNat < 2 ^ 60) :
    (m.mintAll times).1.Nodup ↔ Apart m times := by
  rw [List.nodup_iff_getElem?_ne_getElem?]
  constructor
  · intro distinct i j t less here there same
    have inside := (List.getElem?_eq_some_iff.1 there).1
    refine distinct i j less (by rwa [length_mintAll]) ?_
    exact (mintAll_getElem?_inj here there).2 ⟨rfl, same⟩
  · intro apart i j less inside equal
    rw [length_mintAll] at inside
    have here : times[i]? = some times[i] := List.getElem?_eq_getElem (by omega)
    have there : times[j]? = some times[j] := List.getElem?_eq_getElem inside
    obtain ⟨time, count⟩ := (mintAll_getElem?_inj here there).1 equal
    rw [Nat.mod_eq_of_lt (below _ (List.getElem_mem _)),
      Nat.mod_eq_of_lt (below _ (List.getElem_mem _)), BitVec.toNat_inj] at time
    exact apart i j _ less here (time ▸ there) count

theorem sinceAdvance_add {steps : Nat}
    (still : ∀ later, place < later → later ≤ place + steps → advances m times later = false) :
    sinceAdvance m times (place + steps) = sinceAdvance m times place + steps := by
  induction steps with
  | zero => rfl
  | succ steps ih =>
    have last : advances m times (place + steps + 1) = false := still _ (by omega) (by omega)
    have before := ih fun later past within => still later past (by omega)
    rw [← Nat.add_assoc, sinceAdvance, last, before]
    rfl

variable (ascending : times.Pairwise (· ≤ ·))
include ascending

/-- Between two calls of the same millisecond all are of that millisecond. -/
theorem constant_between {i j between : Nat} (here : times[i]? = some t)
    (there : times[j]? = some t) (past : i ≤ between) (within : between ≤ j) :
    times[between]? = some t := by
  obtain ⟨hi, first⟩ := List.getElem?_eq_some_iff.1 here
  obtain ⟨hj, last⟩ := List.getElem?_eq_some_iff.1 there
  have sorted := List.pairwise_iff_getElem.1 ascending
  have inside : between < times.length := by omega
  rw [List.getElem?_eq_getElem inside, Option.some_inj]
  rcases Nat.eq_or_lt_of_le past with rfl | less
  · exact first
  rcases Nat.eq_or_lt_of_le within with rfl | more
  · exact last
  have lower := sorted i between hi inside less
  have upper := sorted between j inside hj more
  rw [first] at lower
  rw [last] at upper
  exact BitVec.le_antisymm upper lower

theorem sinceAdvance_of_constant {i j : Nat} (here : times[i]? = some t)
    (there : times[j]? = some t) (order : i ≤ j) :
    sinceAdvance m times j = sinceAdvance m times i + (j - i) := by
  obtain ⟨steps, rfl⟩ := Nat.exists_eq_add_of_le order
  rw [Nat.add_sub_cancel_left]
  apply sinceAdvance_add
  intro later past within
  have same := constant_between ascending here there (Nat.le_of_lt past) within
  -- the reading is not past the equal one before it
  have earlier : t ∈ times.take later := by
    refine List.mem_iff_getElem?.2 ⟨i, ?_⟩
    rw [List.getElem?_take_of_lt past]
    exact here
  simp only [advances, same, Option.any_some, Bool.and_eq_false_imp]
  intro _
  rw [List.all_eq_false]
  exact ⟨t, earlier, by simp⟩

theorem replicate_sublist_of_constant {i j : Nat} (here : times[i]? = some t)
    (there : times[j]? = some t) : (List.replicate (j + 1 - i) t).Sublist times := by
  have inside := (List.getElem?_eq_some_iff.1 there).1
  have stretch : (times.drop i).take (j + 1 - i) = List.replicate (j + 1 - i) t := by
    apply List.eq_replicate_iff.2
    constructor
    · rw [List.length_take, List.length_drop]
      omega
    · intro other mem
      obtain ⟨k, within⟩ := List.mem_iff_getElem?.1 mem
      rw [List.getElem?_take, List.getElem?_drop] at within
      split at within
      · have same := constant_between ascending here there (Nat.le_add_right i k) (by omega)
        exact Option.some.inj (within.symm.trans same)
      · cases within
  rw [← stretch]
  exact (List.take_sublist ..).trans (List.drop_sublist ..)

theorem apart_iff_count_le : Apart m times ↔ ∀ t, times.count t ≤ 2 ^ 16 := by
  constructor
  · intro apart t
    by_contra many
    obtain ⟨f, places⟩ := List.sublist_iff_exists_orderEmbedding_getElem?_eq.1
      (List.replicate_sublist_iff.2 (Nat.succ_le_of_lt (Nat.not_le.1 many)))
    have place (k : Nat) (few : k < 2 ^ 16 + 1) : times[f k]? = some t := by
      rw [← places k, List.getElem?_replicate, if_pos few]
    -- so many calls later the time is still the same, and the sequence has come round
    have spread := f.strictMono.add_le_nat (2 ^ 16) 0
    have first := place 0 (by omega)
    have later := constant_between ascending first (place (2 ^ 16) (by omega))
      (Nat.le_add_left (f 0) (2 ^ 16)) spread
    have count := sinceAdvance_of_constant (m := m) ascending first later (by omega)
    refine apart (f 0) (2 ^ 16 + f 0) t (by omega) first later ?_
    rw [count]
    omega
  · intro few i j t less here there same
    have count := sinceAdvance_of_constant (m := m) ascending here there (Nat.le_of_lt less)
    have bound := List.replicate_sublist_iff.1
      (replicate_sublist_of_constant ascending here there)
    have limit := few t
    omega

omit ascending

/-- The identifiers of a minter, whatever its host id and its clock, are distinct exactly if no two
calls of the same millisecond agree, modulo 2^16, in the number of calls since the clock last moved
forward. If the clock never goes back this is to say that no millisecond is hit more than 2^16
times. -/
theorem mintAll_distinct_iff (m : Minter) (times : List (BitVec 64))
    (below : ∀ t ∈ times, t.toNat < 2 ^ 60) :
    ((m.mintAll times).1.Nodup ↔
      ∀ i j t, i < j → times[i]? = some t → times[j]? = some t →
        sinceAdvance m times i % 2 ^ 16 ≠ sinceAdvance m times j % 2 ^ 16) ∧
    (times.Pairwise (· ≤ ·) →
      ((m.mintAll times).1.Nodup ↔ ∀ t, times.count t ≤ 2 ^ 16)) := by
  refine ⟨nodup_mintAll_iff_apart below, fun ascending => ?_⟩
  rw [nodup_mintAll_iff_apart below, apart_iff_count_le ascending]

def setbacks : List (BitVec 64) := [10, 5, 20, 5]

/-- The calls in that millisecond give the same identifier. -/
theorem repeated_after_setbacks :
    (∀ t ∈ setbacks, t.toNat < 2 ^ 60) ∧ (∀ t, setbacks.count t ≤ 2 ^ 16) ∧
    ((ofHostId 7).mintAll setbacks).1[1]? = ((ofHostId 7).mintAll setbacks).1[3]? ∧
    ¬ ((ofHostId 7).mintAll setbacks).1.Nodup := by
  have rare (t : BitVec 64) : setbacks.count t ≤ 2 ^ 16 := by
    apply Nat.le_trans List.count_le_length
    decide
  have equal : ((ofHostId 7).mintAll setbacks).1[1]? = ((ofHostId 7).mintAll setbacks).1[3]? := by
    decide +kernel
  refine ⟨by simp [setbacks], rare, equal, ?_⟩
  intro distinct
  exact List.nodup_iff_getElem?_ne_getElem?.1 distinct 1 3 (by decide) (by decide +kernel) equal

def setback : List (BitVec 64) := [10, 5, 5, 20, 19]

theorem mintAll_distinct_iff_setback :
    (∀ t ∈ setback, t.toNat < 2 ^ 60) ∧ ((ofHostId 7).mintAll setback).1.Nodup ∧
    ([5, 5, 20] : List (BitVec 64)).Pairwise (· ≤ ·) ∧
    ((ofHostId 7).mintAll [5, 5, 20]).1.Nodup := by
  have below : ∀ t ∈ setback, t.toNat < 2 ^ 60 := by simp [setback]
  have below' : ∀ t ∈ ([5, 5, 20] : List (BitVec 64)), t.toNat < 2 ^ 60 := by simp
  have ascending : ([5, 5, 20] : List (BitVec 64)).Pairwise (· ≤ ·) := by decide
  have counts : ∀ j < 5, ∀ i < j, setback[i]? = setback[j]? →
      sinceAdvance (ofHostId 7) setback i % 2 ^ 16 ≠
        sinceAdvance (ofHostId 7) setback j % 2 ^ 16 := by
    decide +kernel
  refine ⟨below, (mintAll_distinct_iff (ofHostId 7) setback below).1.2 ?_, ascending,
    ((mintAll_distinct_iff (ofHostId 7) [5, 5, 20] below').2 ascending).2 ?_⟩
  · intro i j t less here there
    have inside : j < 5 := (List.getElem?_eq_some_iff.1 there).1
    exact counts j inside i less (here.trans there.symm)
  · intro t
    apply Nat.le_trans List.count_le_length
    decide

end DeviceConnector.Minter
