import DpdkSpi.Rule.Shortcut

/-!
# IPv6 packets and the rules

The addresses of filters are IPv4 addresses.  `Match` and `MatchBulk` classify an IPv6 packet by
the first four bytes of its addresses, which the rules take for IPv4 addresses.  So a filter with
an address can be reported for an IPv6 packet; whether one is, is a matter of the rules that match
these bytes (`reportsOpen_iff`).
-/

namespace DpdkSpi.RuleTable

open Lib

variable {t : RuleTable} {d : Dpdk} {lib : AclLib} {packet : PacketMetadata}

/-! ## The filter that is reported -/

/-- The filter that userdata stands for, with its group, if ports and protocol fit. -/
def decodeFilter (t : RuleTable) (packet : PacketMetadata) (userdata : BitVec 32) :
    Option (CompiledFilterGroup × CompiledFilter) :=
  if userdata = 0 then none
  else t.groups[(decodedGroup userdata).toNat]?.bind fun group ↦
    group.filters[(decodedFilter userdata).toNat]?.bind fun filter ↦
      if filterMatchesPortProtocol filter packet then some (group, filter) else none

/-- The result for a filter in its group. -/
def entryResult (e : CompiledFilterGroup × CompiledFilter) : ClassificationResult :=
  resultOf e.1 e.2

theorem decode_eq_map (t : RuleTable) (packet : PacketMetadata) (userdata : BitVec 32) :
    t.decode packet userdata = (t.decodeFilter packet userdata).map entryResult := by
  rw [decode_eq, decodeFilter]
  split
  · rfl
  · cases t.groups[(decodedGroup userdata).toNat]? with
    | none => rfl
    | some group =>
        dsimp only [Option.bind_some]
        cases group.filters[(decodedFilter userdata).toNat]? with
        | none => rfl
        | some filter =>
            dsimp only [Option.bind_some]
            split
            · rfl
            · rfl

/-- The filter that `Match` reports: the first that a chunk answers with. -/
def reportedFilter (t : RuleTable) (d : Dpdk) (packet : PacketMetadata) :
    Option (CompiledFilterGroup × CompiledFilter) :=
  t.aclChunks.findSome? fun chunk ↦ (chunk.ctx.bind d.aclClassify).bind fun classify ↦
    t.decodeFilter packet (classify (aclInput packet))

theorem matchPacket_eq_reported (t : RuleTable) (d : Dpdk) (packet : PacketMetadata) :
    t.matchPacket d packet = ((t.reportedFilter d packet).map entryResult).getD {} := by
  rw [matchPacket_eq_matchLoop, reportedFilter]
  induction t.aclChunks with
  | nil => rfl
  | cons chunk rest ih =>
      rw [matchLoop, List.findSome?_cons]
      cases chunk.ctx.bind d.aclClassify with
      | none => exact ih
      | some classify =>
          dsimp only [Option.bind_some]
          rw [decode_eq_map]
          cases t.decodeFilter packet (classify (aclInput packet)) with
          | none => exact ih
          | some e => rfl

/-- A match is that of the reported filter. -/
theorem exists_reported (h : (t.matchPacket d packet).matched = true) :
    ∃ e, t.reportedFilter d packet = some e ∧ t.matchPacket d packet = entryResult e := by
  rw [matchPacket_eq_reported] at h ⊢
  cases hreported : t.reportedFilter d packet with
  | none =>
      rw [hreported] at h
      cases h
  | some e => exact ⟨e, rfl, rfl⟩

/-! ## Groups for packets without an IPv4 address -/

/-- The filter matches the protocol and the ports of the packet, and has no address. -/
structure OpenFor (filter : CompiledFilter) (packet : PacketMetadata) : Prop where
  portProtocol : filterMatchesPortProtocol filter packet = true
  source : filter.matchSourceIp = false
  destination : filter.matchDestinationIp = false
  block : filter.matchDestinationCidr = false

/-- The group has such a filter. -/
def GroupOpenFor (group : CompiledFilterGroup) (packet : PacketMetadata) : Prop :=
  ∃ filter ∈ group.filters, OpenFor filter packet

/-- What `Match` and `MatchBulk` report for the packet, they report for a group that has such a
filter. -/
structure ReportsOpen (t : RuleTable) (d : Dpdk) (packet : PacketMetadata) : Prop where
  single : (t.matchPacket d packet).matched = true →
    ∃ e, t.reportedFilter d packet = some e ∧ t.matchPacket d packet = entryResult e ∧
      GroupOpenFor e.1 packet
  bulk : ∀ (packets : List PacketMetadata) (extra i : Nat), packets[i]? = some packet →
    ∀ result, (t.matchBulk d packets (List.replicate (packets.length + extra) {}))[i]? =
        some result → result.matched = true →
      ∃ e, t.reportedFilter d packet = some e ∧ result = entryResult e ∧ GroupOpenFor e.1 packet

/-- Both are about the filter that is reported. -/
theorem reportsOpen_iff_reported :
    t.ReportsOpen d packet ↔ ∀ e, t.reportedFilter d packet = some e → GroupOpenFor e.1 packet := by
  constructor
  · intro h e hreported
    have hmatched : (t.matchPacket d packet).matched = true := by
      rw [matchPacket_eq_reported, hreported]
      rfl
    obtain ⟨e', hreported', -, hopen⟩ := h.single hmatched
    obtain rfl := Option.some.inj (hreported.symm.trans hreported')
    exact hopen
  · intro h
    refine ⟨fun hmatched ↦ ?_, fun packets extra i hget result hresult hmatched ↦ ?_⟩
    · obtain ⟨e, hreported, heq⟩ := exists_reported hmatched
      exact ⟨e, hreported, heq, h e hreported⟩
    · rw [getElem?_matchBulk packets extra hget] at hresult
      obtain rfl := Option.some.inj hresult
      split at hmatched
      · obtain ⟨e, hreported, heq⟩ := exists_reported hmatched
        rename_i hlt
        exact ⟨e, hreported, by rw [if_pos hlt, heq], h e hreported⟩
      · cases hmatched

/-! ## Rules for the first four bytes -/

/-- The first four bytes of the addresses of an IPv6 packet in the place of IPv4 addresses, with
its ports and its protocol. -/
def headInput (packet : PacketMetadata) : AclInputData where
  srcIpBe := packet.sourceIp6Address.loadWord 0
  dstIpBe := packet.destinationIp6Address.loadWord 0
  srcPortBe := packet.sourcePortBe
  dstPortBe := packet.destinationPortBe
  protocol := protocolToIpProto packet.protocol

/-- A chunk may leave the packet to the next one: it has no rules for the input, or the library
may report one there that stands for no fitting filter. -/
def MayPass (t : RuleTable) (packet : PacketMetadata) (input : AclInputData) :
    Option (List AclRule) → Prop
  | none => True
  | some rules => (∀ r ∈ rules, ¬ r.Matches input) ∨
      ∃ r, Reportable rules input r ∧ t.decodeFilter packet r.userdata = none

/-- Every rule that the library may report for the input stands for a filter of an open group, in
the first chunk and in each further one that may be asked. -/
def OpenRules (t : RuleTable) (packet : PacketMetadata) (input : AclInputData) :
    List (Option (List AclRule)) → Prop
  | [] => True
  | built :: rest =>
      (∀ rules, built = some rules → ∀ r, Reportable rules input r →
        ∀ e, t.decodeFilter packet r.userdata = some e → GroupOpenFor e.1 packet) ∧
      (t.MayPass packet input built → t.OpenRules packet input rest)

theorem mayPass_iff {input : AclInputData} {built : Option (List AclRule)} :
    t.MayPass packet input built ↔ none ∈ reports (t.decodeFilter packet) input built := by
  cases built with
  | none => exact iff_of_true trivial rfl
  | some rules =>
      refine or_congr ⟨fun h ↦ ⟨rfl, h⟩, fun h ↦ h.2⟩ ?_
      exact exists_congr fun r ↦ and_congr_right fun _ ↦ eq_comm

theorem openRules_iff {input : AclInputData} {built : List (Option (List AclRule))} :
    t.OpenRules packet input built ↔
      AnswersWithin (reports (t.decodeFilter packet) input) (fun e ↦ GroupOpenFor e.1 packet)
        built := by
  induction built with
  | nil => exact Iff.rfl
  | cons rules? rest ih =>
      refine and_congr ⟨fun h e he ↦ ?_, fun h rules hrules r hr e he ↦ ?_⟩
        (imp_congr mayPass_iff ih)
      · cases rules? with
        | none => cases he
        | some rules =>
            rcases he with ⟨hnone, -⟩ | ⟨r, hr, hdecode⟩
            · cases hnone
            · exact h rules rfl r hr e hdecode.symm
      · subst hrules
        exact h e (.inr ⟨r, hr, he.symm⟩)

/-- **When an IPv6 packet is reported for open groups only**, whatever rule the library prefers
among those of the highest priority. -/
theorem reportsOpen_iff (hipv6 : packet.ipVersion = .kIpv6) (d : Dpdk) :
    (∀ algorithm, ClassifySpec algorithm →
        t.ReportsOpen { d with aclClassify := classifyIn algorithm lib } packet) ↔
      t.OpenRules packet (headInput packet) (t.aclChunks.map (builtRules lib)) := by
  have hinput : aclInput packet = headInput packet := by
    rw [aclInput, headInput, hipv6]
  have hreported (algorithm : List AclRule → AclInputData → BitVec 32) :
      t.reportedFilter { d with aclClassify := classifyIn algorithm lib } packet =
        (t.aclChunks.map (builtRules lib)).findSome?
          (report (t.decodeFilter packet) (headInput packet) algorithm) := by
    rw [reportedFilter, hinput, List.findSome?_map]
    congr 1
    funext chunk
    rw [classifyIn_eq, Function.comp_apply, report, Option.bind_map]
    rfl
  rw [openRules_iff, ← forall_findSome?_within_iff (reports_nonempty _ _)]
  constructor
  · intro h σ hσ e he
    obtain ⟨algorithm, halg, rfl⟩ := exists_algorithm_of rfl hσ
    refine reportsOpen_iff_reported.mp (h algorithm halg) e ?_
    rw [hreported, he]
  · intro h algorithm halg
    refine reportsOpen_iff_reported.mpr fun e he ↦ ?_
    rw [hreported] at he
    exact h _ (report_mem rfl halg) e he

/-! ### Two tables -/

/-- A TCP packet to 2001:db8::9. -/
def ipv6Packet : PacketMetadata where
  ipVersion := .kIpv6
  destinationIp6Address := #v[0x20, 0x01, 0x0D, 0xB8, 0, 0, 0, 0, 0, 0, 0, 0, 0, 0, 0, 9]

/-- A group for every TCP packet. -/
def anywhereGroups : List CompiledFilterGroup :=
  [{ name := "anywhere", filters := [{ protocol := .kTcp }] }]

/-- A group for TCP packets to 32.1.13.184. -/
def headGroups : List CompiledFilterGroup :=
  [{ name := "head"
     filters := [{ protocol := .kTcp, matchDestinationIp := true
                   destinationIpAddress := 0x20010DB8 }] }]

theorem reportsOpen_anywhere :
    ipv6Packet.ipVersion = .kIpv6 ∧ ∀ algorithm, ClassifySpec algorithm →
      (pairTable anywhereGroups).ReportsOpen
        { tcpDpdk with aclClassify := classifyIn algorithm (libOf anywhereGroups) }
        ipv6Packet := by
  refine ⟨rfl, (reportsOpen_iff rfl tcpDpdk).mpr ⟨fun rules hrules r hr e he ↦ ?_, fun _ ↦ trivial⟩⟩
  obtain rfl := Option.some.inj hrules
  obtain rfl := List.mem_singleton.mp hr.1
  obtain rfl := Option.some.inj he
  exact ⟨_, List.mem_singleton_self _, by decide, rfl, rfl, rfl⟩

/-- The first four bytes of 2001:db8::9 are those of 32.1.13.184. -/
theorem head_not_reportsOpen :
    ipv6Packet.ipVersion = .kIpv6 ∧ ClassifySpec linearClassify ∧
      ((pairTable headGroups).matchPacket
        { tcpDpdk with aclClassify := classifyIn linearClassify (libOf headGroups) }
        ipv6Packet).groupName = "head" ∧
      (∀ group ∈ headGroups, ¬ GroupOpenFor group ipv6Packet) ∧
      ¬ (pairTable headGroups).ReportsOpen
        { tcpDpdk with aclClassify := classifyIn linearClassify (libOf headGroups) }
        ipv6Packet := by
  have hclosed : ∀ group ∈ headGroups, ¬ GroupOpenFor group ipv6Packet := by
    rintro group hgroup ⟨filter, hfilter, hopen⟩
    obtain rfl := List.mem_singleton.mp hgroup
    obtain rfl := List.mem_singleton.mp hfilter
    cases hopen.destination
  have hname : ((pairTable headGroups).matchPacket
      { tcpDpdk with aclClassify := classifyIn linearClassify (libOf headGroups) }
      ipv6Packet).groupName = "head" := by decide +kernel
  have hreported : ((pairTable headGroups).reportedFilter
      { tcpDpdk with aclClassify := classifyIn linearClassify (libOf headGroups) }
      ipv6Packet).map Prod.fst = headGroups[0]? := by decide +kernel
  refine ⟨rfl, linearClassify_spec, hname, hclosed, fun h ↦ ?_⟩
  cases he : (pairTable headGroups).reportedFilter
      { tcpDpdk with aclClassify := classifyIn linearClassify (libOf headGroups) } ipv6Packet with
  | none =>
      rw [he] at hreported
      cases hreported
  | some e =>
      rw [he] at hreported
      exact hclosed e.1 (List.mem_of_getElem? hreported.symm) (reportsOpen_iff_reported.mp h e he)

end DpdkSpi.RuleTable
