import Mathlib.Data.BitVec

/-!
# The data the classifier works on

Parsed packets, classification results and the byte-order conversions between
them, after `spi_rule_engine.hpp`.  Multi-byte header fields are kept as the
code keeps them: the word a little-endian host loads from the packet, so that a
field ending in `Be` has to be swapped before it can be compared with a
host-order number.
-/

namespace DpdkSpi

/-! ## Byte order -/

/-- The bytes of a 16-bit word in reverse order. -/
def bswap16 (x : BitVec 16) : BitVec 16 := x.extractLsb' 0 8 ++ x.extractLsb' 8 8

/-- The bytes of a 32-bit word in reverse order. -/
def bswap32 (x : BitVec 32) : BitVec 32 :=
  x.extractLsb' 0 8 ++ x.extractLsb' 8 8 ++ x.extractLsb' 16 8 ++ x.extractLsb' 24 8

/-- `rte_be_to_cpu_16` on a little-endian host. -/
def rteBeToCpu16 (x : BitVec 16) : BitVec 16 := bswap16 x

/-- `rte_be_to_cpu_32` on a little-endian host. -/
def rteBeToCpu32 (x : BitVec 32) : BitVec 32 := bswap32 x

/-- `rte_cpu_to_be_16` on a little-endian host. -/
def rteCpuToBe16 (x : BitVec 16) : BitVec 16 := bswap16 x

/-- `rte_cpu_to_be_32` on a little-endian host. -/
def rteCpuToBe32 (x : BitVec 32) : BitVec 32 := bswap32 x

theorem rteCpuToBe32_rteBeToCpu32 (x : BitVec 32) : rteCpuToBe32 (rteBeToCpu32 x) = x := by
  unfold rteCpuToBe32 rteBeToCpu32 bswap32
  ext i hi
  simp only [BitVec.getElem_append, BitVec.getElem_extractLsb', BitVec.getLsbD_append,
    BitVec.getLsbD_extractLsb']
  grind

theorem rteCpuToBe16_rteBeToCpu16 (x : BitVec 16) : rteCpuToBe16 (rteBeToCpu16 x) = x := by
  unfold rteCpuToBe16 rteBeToCpu16 bswap16
  ext i hi
  simp only [BitVec.getElem_append, BitVec.getElem_extractLsb', BitVec.getLsbD_append,
    BitVec.getLsbD_extractLsb']
  grind

/-- Words with the same bytes are the same. -/
theorem eq_of_bytes {w : Nat} {x y : BitVec w}
    (h : ∀ k, 8 * k < w → x.extractLsb' (8 * k) 8 = y.extractLsb' (8 * k) 8) : x = y := by
  ext i hi
  have hbit := congrArg (fun b : BitVec 8 ↦ b.getLsbD (i % 8)) (h (i / 8) (by omega))
  have hlt : i % 8 < 8 := Nat.mod_lt _ (by decide)
  simp only [BitVec.getLsbD_extractLsb', hlt, decide_true, Bool.true_and, Nat.div_add_mod] at hbit
  rwa [← BitVec.getLsbD_eq_getElem, ← BitVec.getLsbD_eq_getElem]

theorem eq_of_bytes32 {x y : BitVec 32} (h₀ : x.extractLsb' 0 8 = y.extractLsb' 0 8)
    (h₁ : x.extractLsb' 8 8 = y.extractLsb' 8 8) (h₂ : x.extractLsb' 16 8 = y.extractLsb' 16 8)
    (h₃ : x.extractLsb' 24 8 = y.extractLsb' 24 8) : x = y := by
  refine eq_of_bytes fun k hk ↦ ?_
  obtain rfl | rfl | rfl | rfl : k = 0 ∨ k = 1 ∨ k = 2 ∨ k = 3 := by omega
  · exact h₀
  · exact h₁
  · exact h₂
  · exact h₃

theorem eq_of_bytes16 {x y : BitVec 16} (h₀ : x.extractLsb' 0 8 = y.extractLsb' 0 8)
    (h₁ : x.extractLsb' 8 8 = y.extractLsb' 8 8) : x = y := by
  refine eq_of_bytes fun k hk ↦ ?_
  obtain rfl | rfl : k = 0 ∨ k = 1 := by omega
  · exact h₀
  · exact h₁

/-- An address as raw bytes, in the order they have in the packet. -/
abbrev Ip6Address := Vector (BitVec 8) 16

/-- `memcpy` of four address bytes, from `offset` on, into a 32-bit word of a
little-endian host. -/
def Ip6Address.loadWord (a : Ip6Address) (offset : Nat) : BitVec 32 :=
  a.getD (offset + 3) 0 ++ a.getD (offset + 2) 0 ++ a.getD (offset + 1) 0 ++ a.getD offset 0

/-! ## Packets -/

/-- L4 protocols supported by the SPI classifier. -/
inductive Protocol where
  | kTcp
  | kUdp
deriving DecidableEq, Repr, Inhabited

/-- Action to take when a filter group matches. -/
inductive Action where
  | kForward
  | kDrop
deriving DecidableEq, Repr, Inhabited

/-- IP network protocol version. -/
inductive IpVersion where
  | kIpv4
  | kIpv6
deriving DecidableEq, Repr, Inhabited

/-- Minimal parsed packet fields needed by the classifier.  `hostname` is the
pointer together with its length: `none` is the null pointer. -/
structure PacketMetadata where
  sourceIp6Address : Ip6Address := Vector.replicate 16 0
  destinationIp6Address : Ip6Address := Vector.replicate 16 0
  hostname : Option (List (BitVec 8)) := none
  sourceIpBe : BitVec 32 := 0
  destinationIpBe : BitVec 32 := 0
  sourcePortBe : BitVec 16 := 0
  destinationPortBe : BitVec 16 := 0
  tcpSequence : BitVec 32 := 0
  tcpPayloadOffset : BitVec 32 := 0
  tcpPayloadLength : BitVec 32 := 0
  tcpFlags : BitVec 8 := 0
  protocol : Protocol := .kTcp
  ipVersion : IpVersion := .kIpv4
deriving DecidableEq, Repr

/-! ## Classification results -/

/-- `kNoDpiLink`: a group without a static link to a DPI filter group. -/
def kNoDpiLink : BitVec 32 := BitVec.allOnes 32

/-- The result of classifying one packet; the default value is a miss. -/
structure ClassificationResult where
  groupName : String := ""
  label : String := ""
  groupPrecedence : BitVec 32 := 0
  boundDpiFilterIndex : BitVec 32 := kNoDpiLink
  action : Action := .kForward
  matched : Bool := false
  l7Required : Bool := false
deriving DecidableEq, Repr

end DpdkSpi
