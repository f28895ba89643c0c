import Mathlib.Algebra.Order.Ring.Nat
import RecordStore.Ident
/-!
# Numbering — identifiers in the order in which they are given out

Identifiers of every kind are given out from one on, and the one given out
after `n` others is the `nth`. Their numbers have 64 bits: as long as fewer
than 2^64 of a kind have been given out, they are positive and all different.
-/

namespace RecordStore

variable {n m : Nat}

/-- Numbers that fit 64 bits are told apart in them. -/
theorem succ_inj_of_lt (hn : n + 1 < 2 ^ 64) (hm : m + 1 < 2 ^ 64)
    (h : UInt64.ofNat (n + 1) = UInt64.ofNat (m + 1)) : n = m := by
  have hnumber : n + 1 = m + 1 := by
    rw [← UInt64.toNat_ofNat_of_lt' hn, ← UInt64.toNat_ofNat_of_lt' hm, h]
  omega

namespace RegionId

/-- The identifier of a region, by the number of those made before it. -/
def nth (n : Nat) : RegionId := ⟨UInt64.ofNat (n + 1)⟩

theorem next_nth (n : Nat) : (nth n).next = nth (n + 1) :=
  congrArg mk (UInt64.ofNat_add (n + 1) 1).symm

theorem toNat_nth (h : n + 1 < 2 ^ 64) : (nth n).raw.toNat = n + 1 :=
  UInt64.toNat_ofNat_of_lt' h

theorem nth_inj (hn : n + 1 < 2 ^ 64) (hm : m + 1 < 2 ^ 64) (h : nth n = nth m) : n = m :=
  succ_inj_of_lt hn hm (congrArg raw h)

end RegionId

namespace ConnectionId

/-- The identifier of a connection, by the number of those opened before it. -/
def nth (n : Nat) : ConnectionId := ⟨UInt64.ofNat (n + 1)⟩

theorem next_nth (n : Nat) : (nth n).next = nth (n + 1) :=
  congrArg mk (UInt64.ofNat_add (n + 1) 1).symm

theorem toNat_nth (h : n + 1 < 2 ^ 64) : (nth n).raw.toNat = n + 1 :=
  UInt64.toNat_ofNat_of_lt' h

theorem nth_inj (hn : n + 1 < 2 ^ 64) (hm : m + 1 < 2 ^ 64) (h : nth n = nth m) : n = m :=
  succ_inj_of_lt hn hm (congrArg raw h)

end ConnectionId

namespace LockId

/-- The identifier of a grant, by the number of those before it. -/
def nth (n : Nat) : LockId := ⟨UInt64.ofNat (n + 1)⟩

theorem next_nth (n : Nat) : (nth n).next = nth (n + 1) :=
  congrArg mk (UInt64.ofNat_add (n + 1) 1).symm

theorem toNat_nth (h : n + 1 < 2 ^ 64) : (nth n).raw.toNat = n + 1 :=
  UInt64.toNat_ofNat_of_lt' h

theorem nth_inj (hn : n + 1 < 2 ^ 64) (hm : m + 1 < 2 ^ 64) (h : nth n = nth m) : n = m :=
  succ_inj_of_lt hn hm (congrArg raw h)

end LockId

end RecordStore
