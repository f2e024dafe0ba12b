/-!
# Identifiers

A dSUID names a host, a vDC or a device: a 128-bit unique id followed by a tag byte that is always
zero. Identifiers are ordered by the unique id and then by how it was derived.
-/

namespace DeviceConnector

inductive DsuidKind where
  | undefined
  | sgtin
  | uuid
  deriving DecidableEq, Repr, Inhabited

namespace DsuidKind

def rank : DsuidKind → Nat
  | undefined => 0
  | sgtin => 1
  | uuid => 2

def name : DsuidKind → String
  | undefined => "undefined"
  | sgtin => "sgtin"
  | uuid => "uuid"

end DsuidKind

structure Dsuid where
  uuid : BitVec 128
  kind : DsuidKind := .uuid
  deriving DecidableEq, Repr, Inhabited

namespace Dsuid

def ofUuid (uuid : BitVec 128) : Dsuid := { uuid }

def version (d : Dsuid) : Nat := (d.uuid.extractLsb' 76 4).toNat

instance : Ord Dsuid where
  compare a b := (compare a.uuid.toNat b.uuid.toNat).then (compare a.kind.rank b.kind.rank)

def rank (d : Dsuid) : Nat := d.uuid.toNat * 3 + d.kind.rank

theorem rank_injective {a b : Dsuid} (h : a.rank = b.rank) : a = b := by
  have hk : ∀ k : DsuidKind, k.rank < 3 := by intro k; cases k <;> decide
  have ha := hk a.kind
  have hb := hk b.kind
  have hu : a.uuid.toNat = b.uuid.toNat := by simp only [rank] at h; omega
  have hr : a.kind.rank = b.kind.rank := by simp only [rank] at h; omega
  have hkind : a.kind = b.kind := by
    revert hr; cases a.kind <;> cases b.kind <;> simp [DsuidKind.rank]
  cases a; cases b
  simp only [Dsuid.mk.injEq]
  exact ⟨BitVec.eq_of_toNat_eq hu, hkind⟩

/-- Identifier used by a host whose configuration names none. -/
def defaultHost : Dsuid := ofUuid 0x6123A881016010000000F2CA0DEB3707#128

end Dsuid

end DeviceConnector
