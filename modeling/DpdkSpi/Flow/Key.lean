import DpdkSpi.Types

/-!
# Flow keys

The 5-tuple under which a verdict is cached, after `spi_flow_table.hpp`.  The two
directions of a connection share one key: endpoints are ordered before the key
is built.
-/

namespace DpdkSpi

/-- 5-tuple flow key, sixteen bytes without holes: comparing two keys field by
field is comparing their bytes. -/
structure FlowKey where
  srcIp : BitVec 32 := 0
  dstIp : BitVec 32 := 0
  srcPort : BitVec 16 := 0
  dstPort : BitVec 16 := 0
  protocol : Protocol := .kTcp
  /-- The three bytes after the protocol, zero in every key the code builds. -/
  pad : BitVec 24 := 0
deriving DecidableEq, Repr

/-- Build a canonical key, so that both directions of a connection get the same one. -/
def makeCanonical (sip dip : BitVec 32) (sp dp : BitVec 16) (proto : Protocol) : FlowKey :=
  if dip < sip ∨ (dip = sip ∧ dp < sp) then
    { srcIp := dip, dstIp := sip, srcPort := dp, dstPort := sp, protocol := proto }
  else
    { srcIp := sip, dstIp := dip, srcPort := sp, dstPort := dp, protocol := proto }

/-- Build a canonical key from packet metadata.  An IPv6 address is folded to the
exclusive or of its first and its last word. -/
def makeCanonicalFromMetadata (packet : PacketMetadata) : FlowKey :=
  match packet.ipVersion with
  | .kIpv4 => makeCanonical packet.sourceIpBe packet.destinationIpBe
      packet.sourcePortBe packet.destinationPortBe packet.protocol
  | .kIpv6 =>
      let s6 := packet.sourceIp6Address
      let d6 := packet.destinationIp6Address
      makeCanonical (s6.loadWord 0 ^^^ s6.loadWord 12) (d6.loadWord 0 ^^^ d6.loadWord 12)
        packet.sourcePortBe packet.destinationPortBe packet.protocol

end DpdkSpi
