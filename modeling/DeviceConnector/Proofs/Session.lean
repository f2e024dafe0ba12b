import DeviceConnector.Session
import Mathlib.Algebra.Group.Nat.Defs
import Mathlib.Data.List.Nodup
/-!
# The ids of a session

A session hands out the nonzero ids in order and begins again after the highest.
-/

namespace DeviceConnector.Session

def idAt : Nat → MessageId
  | 0 => 0
  | count + 1 => nextId (idAt count)

theorem idAt_ne_zero (count : Nat) : idAt (count + 1) ≠ 0 := nextId_ne_zero _

theorem idAt_succ (count : Nat) :
    idAt (count + 1) = UInt32.ofNat (count % (2 ^ 32 - 1) + 1) := by
  induction count with
  | zero => rfl
  | succ count ih =>
    have bound : count % (2 ^ 32 - 1) < 2 ^ 32 - 1 := Nat.mod_lt _ (by decide)
    have sum : UInt32.ofNat (count % (2 ^ 32 - 1) + 1) + 1 =
        UInt32.ofNat (count % (2 ^ 32 - 1) + 2) := by
      rw [← UInt32.toNat_inj]
      simp
    rw [idAt, ih, nextId, sum]
    by_cases highest : count % (2 ^ 32 - 1) + 2 = 2 ^ 32
    · have again : (count + 1) % (2 ^ 32 - 1) = 0 := by omega
      rw [highest, again]
      rfl
    · have further : (count + 1) % (2 ^ 32 - 1) = count % (2 ^ 32 - 1) + 1 := by omega
      have nonzero : UInt32.ofNat (count % (2 ^ 32 - 1) + 2) ≠ 0 := by
        rw [ne_eq, ← UInt32.toNat_inj, UInt32.toNat_ofNat']
        simp
        omega
      rw [if_neg nonzero, further]

theorem toNat_idAt_succ (count : Nat) :
    (idAt (count + 1)).toNat = count % (2 ^ 32 - 1) + 1 := by
  have bound : count % (2 ^ 32 - 1) < 2 ^ 32 - 1 := Nat.mod_lt _ (by decide)
  rw [idAt_succ, UInt32.toNat_ofNat']
  omega

/-- Every id is handed out last after some number of them. -/
theorem exists_idAt (id : MessageId) : ∃ count, id = idAt count := by
  cases size : id.toNat with
  | zero => exact ⟨0, UInt32.toNat_inj.1 size⟩
  | succ count =>
    refine ⟨count + 1, ?_⟩
    have bound := id.toNat_lt
    rw [← UInt32.toNat_inj, toNat_idAt_succ, size]
    omega

end DeviceConnector.Session
