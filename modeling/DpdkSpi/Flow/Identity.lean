import DpdkSpi.Flow.Verdict
import DpdkSpi.Tcp.Interleave

/-!
# Which packets share a flow key

A key holds the protocol and the two endpoints in order, an address as one 32-bit word.  For
IPv4 the word is the address, so that a key is the flow; for IPv6 it is a fold of the address,
and nothing in the key says which version it was built from.
-/

namespace DpdkSpi

open Lib

/-! ## Flows and their keys -/

/-- Two packets of one flow: same IP version, same protocol, same unordered pair of
(address, port) endpoints. -/
def SameFlow (p q : PacketMetadata) : Prop :=
  p.protocol = q.protocol ∧ connectionOf p = connectionOf q

instance (p q : PacketMetadata) : Decidable (SameFlow p q) := inferInstanceAs (Decidable (_ ∧ _))

/-- The exclusive or of the first and the last word of an IPv6 address. -/
def Ip6Address.fold (a : Ip6Address) : BitVec 32 := a.loadWord 0 ^^^ a.loadWord 12

/-- The endpoints of a packet as its key sees them: an IPv4 address as it is, an IPv6 address
folded. -/
def keyEnds (p : PacketMetadata) : (BitVec 32 × BitVec 16) × (BitVec 32 × BitVec 16) :=
  match p.ipVersion with
  | .kIpv4 => ((p.sourceIpBe, p.sourcePortBe), (p.destinationIpBe, p.destinationPortBe))
  | .kIpv6 => ((p.sourceIp6Address.fold, p.sourcePortBe),
      (p.destinationIp6Address.fold, p.destinationPortBe))

/-- What a flow key identifies: the protocol and the unordered pair of endpoints as the key
sees them. -/
def SameKeyEnds (p q : PacketMetadata) : Prop :=
  p.protocol = q.protocol ∧ s((keyEnds p).1, (keyEnds p).2) = s((keyEnds q).1, (keyEnds q).2)

instance (p q : PacketMetadata) : Decidable (SameKeyEnds p q) :=
  inferInstanceAs (Decidable (_ ∧ _))

theorem makeCanonicalFromMetadata_eq (p : PacketMetadata) :
    makeCanonicalFromMetadata p = makeCanonical (keyEnds p).1.1 (keyEnds p).2.1 (keyEnds p).1.2
      (keyEnds p).2.2 p.protocol := by
  unfold makeCanonicalFromMetadata keyEnds
  cases p.ipVersion <;> rfl

/-! ## Canonical keys -/

/-- Whichever way it orders them, a canonical key keeps the protocol and both endpoints. -/
theorem makeCanonical_ends (sip dip : BitVec 32) (sp dp : BitVec 16) (proto : Protocol) :
    (makeCanonical sip dip sp dp proto).protocol = proto ∧
      s(((makeCanonical sip dip sp dp proto).srcIp, (makeCanonical sip dip sp dp proto).srcPort),
        ((makeCanonical sip dip sp dp proto).dstIp, (makeCanonical sip dip sp dp proto).dstPort)) =
      s((sip, sp), (dip, dp)) := by
  unfold makeCanonical
  split_ifs
  · exact ⟨rfl, Sym2.eq_swap⟩
  · exact ⟨rfl, rfl⟩

/-- A canonical key does not say which of the endpoints is the source. -/
theorem makeCanonical_swap (sip dip : BitVec 32) (sp dp : BitVec 16) (proto : Protocol) :
    makeCanonical sip dip sp dp proto = makeCanonical dip sip dp sp proto := by
  unfold makeCanonical
  by_cases hless : dip < sip ∨ dip = sip ∧ dp < sp
  · have hnot : ¬(sip < dip ∨ sip = dip ∧ sp < dp) := by
      rcases hless with hip | ⟨hip, hport⟩
      · rintro (hip' | ⟨hip', -⟩)
        · exact BitVec.lt_asymm hip hip'
        · exact BitVec.lt_irrefl _ (hip' ▸ hip)
      · rintro (hip' | ⟨-, hport'⟩)
        · exact BitVec.lt_irrefl _ (hip ▸ hip')
        · exact BitVec.lt_asymm hport hport'
    rw [if_pos hless, if_neg hnot]
  · rw [if_neg hless]
    by_cases hless' : sip < dip ∨ sip = dip ∧ sp < dp
    · rw [if_pos hless']
    · rw [if_neg hless']
      simp only [not_or, not_and, BitVec.not_lt] at hless hless'
      obtain rfl : sip = dip := BitVec.le_antisymm hless.1 hless'.1
      obtain rfl : sp = dp := BitVec.le_antisymm (hless.2 rfl) (hless'.2 rfl)
      rfl

theorem makeCanonical_eq_iff {sip dip sip' dip' : BitVec 32} {sp dp sp' dp' : BitVec 16}
    {proto proto' : Protocol} :
    makeCanonical sip dip sp dp proto = makeCanonical sip' dip' sp' dp' proto' ↔
      proto = proto' ∧ s((sip, sp), (dip, dp)) = s((sip', sp'), (dip', dp')) := by
  constructor
  · intro h
    rw [← (makeCanonical_ends sip dip sp dp proto).1, ← (makeCanonical_ends sip dip sp dp proto).2,
      h]
    exact makeCanonical_ends sip' dip' sp' dp' proto'
  · rintro ⟨rfl, h⟩
    rcases Sym2.eq_iff.mp h with ⟨hs, hd⟩ | ⟨hs, hd⟩
    · cases hs
      cases hd
      rfl
    · cases hs
      cases hd
      exact makeCanonical_swap _ _ _ _ _

/-- Two packets have one key exactly when the key's view of them is the same. -/
theorem makeCanonicalFromMetadata_eq_iff {p q : PacketMetadata} :
    makeCanonicalFromMetadata p = makeCanonicalFromMetadata q ↔ SameKeyEnds p q := by
  rw [makeCanonicalFromMetadata_eq, makeCanonicalFromMetadata_eq, makeCanonical_eq_iff]
  exact Iff.rfl

/-! ## Keys and flows -/

/-- Packets of one flow look the same to the key. -/
theorem SameFlow.sameKeyEnds {p q : PacketMetadata} (h : SameFlow p q) : SameKeyEnds p q := by
  refine ⟨h.1, ?_⟩
  have hconnection := h.2
  unfold connectionOf at hconnection
  unfold keyEnds
  cases hp : p.ipVersion with
  | kIpv4 =>
      cases hq : q.ipVersion with
      | kIpv4 =>
          simp only [hp, hq] at hconnection
          exact Sum.inl_injective hconnection
      | kIpv6 =>
          simp only [hp, hq] at hconnection
          cases hconnection
  | kIpv6 =>
      cases hq : q.ipVersion with
      | kIpv4 =>
          simp only [hp, hq] at hconnection
          cases hconnection
      | kIpv6 =>
          simp only [hp, hq] at hconnection
          have hfold := congrArg (Sym2.map fun e : Ip6Address × BitVec 16 ↦ (e.1.fold, e.2))
            (Sum.inr_injective hconnection)
          exact hfold

/-- The key sees all of an IPv4 packet's flow. -/
theorem sameKeyEnds_iff_of_kIpv4 {p q : PacketMetadata} (hp : p.ipVersion = .kIpv4)
    (hq : q.ipVersion = .kIpv4) : SameKeyEnds p q ↔ SameFlow p q := by
  refine ⟨fun h ↦ ⟨h.1, ?_⟩, SameFlow.sameKeyEnds⟩
  have hends := h.2
  unfold keyEnds at hends
  unfold connectionOf
  simp only [hp, hq] at hends ⊢
  rw [hends]

/-- Two packets have equal keys exactly when they agree on the protocol and on the unordered
pair of endpoints as the key sees them.  Packets of one flow always do, for two IPv4 packets
nothing else does, and a verdict cached for one packet is the verdict of the packets with its
key and of no others. -/
theorem makeCanonicalFromMetadata_identifies (p q : PacketMetadata) :
    (makeCanonicalFromMetadata p = makeCanonicalFromMetadata q ↔ SameKeyEnds p q) ∧
      (SameFlow p q → makeCanonicalFromMetadata p = makeCanonicalFromMetadata q) ∧
      (p.ipVersion = .kIpv4 → q.ipVersion = .kIpv4 →
        (makeCanonicalFromMetadata p = makeCanonicalFromMetadata q ↔ SameFlow p q)) ∧
      ∀ (cap : Nat) (t t' : FlowTable cap) (action : Action) (now : BitVec 64)
        (slot : Option Nat), t.Apart →
        t.insert (makeCanonicalFromMetadata p) 1 action now slot = (.kOk, t') →
        ∀ tsc, (t'.lookup (makeCanonicalFromMetadata q) tsc).1 =
          if SameKeyEnds p q then some action
          else (t.lookup (makeCanonicalFromMetadata q) tsc).1 := by
  refine ⟨makeCanonicalFromMetadata_eq_iff,
    fun h ↦ makeCanonicalFromMetadata_eq_iff.mpr h.sameKeyEnds, fun hp hq ↦ ?_, ?_⟩
  · rw [makeCanonicalFromMetadata_eq_iff]
    exact sameKeyEnds_iff_of_kIpv4 hp hq
  · intro cap t t' action now slot hapart hinsert tsc
    have hanswer := FlowTable.answer_insert_of_ok hapart (congrArg Prod.fst hinsert)
      (makeCanonicalFromMetadata q)
    rw [hinsert] at hanswer
    rw [FlowTable.lookup_fst, FlowTable.lookup_fst, hanswer]
    congr 1
    exact propext (eq_comm.trans makeCanonicalFromMetadata_eq_iff)

/-- A request over IPv4. -/
def requestPacket : PacketMetadata :=
  { sourceIpBe := 0x0100000A, destinationIpBe := 0x0200000A, sourcePortBe := 0x3930,
    destinationPortBe := 0x5000 }

/-- The answer to `requestPacket`. -/
def responsePacket : PacketMetadata :=
  { sourceIpBe := 0x0200000A, destinationIpBe := 0x0100000A, sourcePortBe := 0x5000,
    destinationPortBe := 0x3930 }

/-- The response finds the verdict of the request. -/
theorem response_finds_request_verdict :
    SameFlow requestPacket responsePacket ∧ (FlowTable.new 4 true).Apart ∧
      ∀ tsc, (((FlowTable.new 4 true).insert (makeCanonicalFromMetadata requestPacket) 1 .kDrop 10
        (some 0)).2.lookup (makeCanonicalFromMetadata responsePacket) tsc).1 = some .kDrop := by
  have hapart : (FlowTable.new 4 true).Apart := FlowTable.apart_of_owned (FlowTable.new_owned 4)
  refine ⟨⟨rfl, congrArg Sum.inl Sym2.eq_swap⟩, hapart, fun tsc ↦ ?_⟩
  exact (makeCanonicalFromMetadata_identifies requestPacket responsePacket).2.2.2 4 _ _ .kDrop 10
    (some 0) hapart rfl tsc

/-- A packet from `2001:db8::1`. -/
def v6Packet : PacketMetadata :=
  { sourceIp6Address :=
      #v[0x20, 0x01, 0x0d, 0xb8, 0, 0, 0, 0, 0, 0, 0, 0, 0, 0, 0, 1]
    ipVersion := .kIpv6 }

/-- The same packet from `2001:db8:0:1::1`, an address with the same first and last words. -/
def v6OtherPacket : PacketMetadata :=
  { sourceIp6Address :=
      #v[0x20, 0x01, 0x0d, 0xb8, 0, 0, 0, 1, 0, 0, 0, 0, 0, 0, 0, 1]
    ipVersion := .kIpv6 }

/-- The IPv4 packet whose addresses are the folded ones of `v6Packet`. -/
def v4Packet : PacketMetadata := { sourceIpBe := 0xb90d0120 }

/-- Equal keys of different flows: two IPv6 addresses that differ in a middle word only, and an
IPv4 and an IPv6 packet. -/
theorem different_flows_one_key :
    (¬ SameFlow v6Packet v6OtherPacket ∧
      makeCanonicalFromMetadata v6Packet = makeCanonicalFromMetadata v6OtherPacket) ∧
    ¬ SameFlow v6Packet v4Packet ∧
      makeCanonicalFromMetadata v6Packet = makeCanonicalFromMetadata v4Packet := by
  decide +kernel

end DpdkSpi
