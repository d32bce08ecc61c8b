import DpdkSpi.Lib.FoldHash
import DpdkSpi.Tcp.Streams

/-!
# The hash of a stream key

Equal keys have the same hash exactly if the bytes of padding in their objects are the same.
-/

namespace DpdkSpi

open Lib

theorem isUnit_kPrime : IsUnit kPrime :=
  IsUnit.of_mul_eq_one 0xce965057aff6957b (by decide)

/-- Equal keys have the same hash when they have the same padding, and only then. -/
theorem streamKeyHash_eq_iff {o o' : StreamKeyObject} (h : o.key = o'.key) :
    streamKeyHash o = streamKeyHash o' ↔ o.padding = o'.padding := by
  have hbytes : ∀ o : StreamKeyObject, o.objectBytes =
      (o.key.first.objectBytes ++ o.key.second.objectBytes ++ [o.key.version.code]) ++
        o.padding :: [] := by
    intro o
    rw [StreamKeyObject.objectBytes, List.append_assoc _ [o.key.version.code]]
    rfl
  unfold streamKeyHash
  rw [hbytes, hbytes, h]
  exact (absorbing_fnvStep (by decide) isUnit_kPrime).foldl_append_cons_eq_iff

/-- The key of a client's segments, with some byte of padding. -/
def clientKey (padding : Byte) : StreamKeyObject :=
  { key := (makeKey (clientSegment 0)).1, padding }

theorem streamKeyHash_eq_iff_client :
    (clientKey 0).key = (clientKey 1).key ∧
      (streamKeyHash (clientKey 0) = streamKeyHash (clientKey 1) ↔
        (clientKey 0).padding = (clientKey 1).padding) :=
  ⟨rfl, streamKeyHash_eq_iff rfl⟩

/-- Equal keys with different hashes. -/
theorem streamKeyHash_clientKey_ne :
    (clientKey 0).key = (clientKey 1).key ∧
      streamKeyHash (clientKey 0) ≠ streamKeyHash (clientKey 1) := by
  decide +kernel

end DpdkSpi
