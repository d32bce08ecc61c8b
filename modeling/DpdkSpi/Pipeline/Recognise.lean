import DpdkSpi.Packet.ClientHello
import DpdkSpi.Packet.HttpHost
import DpdkSpi.Pipeline.Hostname
import DpdkSpi.Pipeline.Mbufs
import DpdkSpi.Pipeline.Undecided

/-!
# Two recognisers of a request

With TCP reassembly `TryDpiClassify` looks for the hostname in the bytes that the reassembler has
put together, without it in the packet.  The reassembler starts a stream where `IsStreamStart`
recognises a request; the extractors have a notion of a request of their own.
-/

namespace DpdkSpi

open Lib TcpStreamReassembler

variable {cap : Nat} {φ ω : Type}

/-! ## The first segment of a direction -/

/-- A packet that `Insert` takes as the first segment of its direction, with room for its payload
at every limit. -/
structure TakesFirst (env : ReassemblerSetup) (r : TcpStreamReassembler)
    (metadata : PacketMetadata) (now : BitVec 64) (size : Nat) : Prop where
  inspects : Inspects env metadata
  fresh : working env r metadata now = {}
  streams : (r.purgeExpired env now).streamTableFull env (makeKey metadata).1 = false
  pending : 0 < env.config.maxOutOfOrderSegments.toNat
  direction : size ≤ env.config.maxBufferedBytesPerDirection.toNat
  memory : (r.purgeExpired env now).bufferedBytes + size ≤ env.memoryBudgetBytes

/-- The first segment of a direction is its contiguous part if it starts a stream, and waits
otherwise. -/
theorem Outcome.of_first {env : ReassemblerSetup} {b b' : Nat} {sequence : BitVec 32}
    {payload : List Byte} {status : TcpReassemblyStatus} {d' : DirectionState}
    (h : Outcome env b {} sequence payload status d' b') (hne : payload ≠ [])
    (hpending : 0 < env.config.maxOutOfOrderSegments.toNat)
    (hdirection : payload.length ≤ env.config.maxBufferedBytesPerDirection.toNat)
    (hmemory : b + payload.length ≤ env.memoryBudgetBytes) :
    status = (if isStreamStart payload then .kReady else .kWaiting) ∧
      d'.contiguous = if isStreamStart payload then payload else [] := by
  have hcapacity : hasCapacity env b payload.length = true := hasCapacity_of_le hmemory
  cases hstart : isStreamStart payload with
  | true =>
      have hdrains := h.drains_of_room (route_start hne rfl hstart) hcapacity
        (by rw [DirectionState.withBase, List.length_nil, Nat.zero_add]; exact hdirection)
      obtain ⟨rfl, rfl⟩ := hdrains.of_none fun p hp ↦ absurd hp List.not_mem_nil
      exact ⟨rfl, rfl⟩
  | false =>
      have hqueue : route env {} sequence payload = .queue :=
        route_queue_iff.mpr ⟨hne, fun _ ↦ hstart, fun hknown ↦ by cases hknown⟩
      rcases h.of_queue_of_room hqueue hpending hcapacity with
        ⟨p, hp, -⟩ | ⟨p, hp, -⟩ | ⟨-, rfl, rfl, -⟩
      · exact absurd hp List.not_mem_nil
      · exact absurd hp List.not_mem_nil
      · exact ⟨rfl, rfl⟩

/-- What `Insert` returns for the first segment of a direction. -/
theorem TakesFirst.insert {env : ReassemblerSetup} {r : TcpStreamReassembler}
    {metadata : PacketMetadata} {now : BitVec 64} {payload : List Byte}
    (h : TakesFirst env r metadata now payload.length) (hne : payload ≠ []) :
    (r.insert env metadata payload now).1 =
      { status := if isStreamStart payload then .kReady else .kWaiting
        contiguousPayload := if isStreamStart payload then payload else [] } := by
  have hfirst {b' : Nat} {status : TcpReassemblyStatus} {d' : DirectionState}
      (houtcome : Outcome env (r.purgeExpired env now).bufferedBytes (working env r metadata now)
        (dataSequence metadata) payload status d' b') :
      status = (if isStreamStart payload then .kReady else .kWaiting) ∧
        d'.contiguous = if isStreamStart payload then payload else [] := by
    rw [h.fresh] at houtcome
    exact houtcome.of_first hne h.pending h.direction h.memory
  obtain ⟨result, r', hinsert, hinsertion⟩ := exists_insertion env r metadata payload now
  rw [hinsert]
  cases hinsertion with
  | skipped hskip => exact absurd h.inspects hskip
  | refused _ hfull => cases h.streams.symm.trans hfull
  | failed _ _ houtcome herror =>
      rw [(hfirst houtcome).1] at herror
      cases hstart : isStreamStart payload with
      | true =>
          rw [hstart] at herror
          cases herror
      | false =>
          rw [hstart] at herror
          cases herror
  | kept _ _ houtcome _ =>
      obtain ⟨rfl, hcontiguous⟩ := hfirst houtcome
      rw [hcontiguous]

/-! ## Services with the extractors -/

/-- The text of a run; one with a fault finds nothing. -/
def foundText : Except Fault (Option (List Byte)) → Option (List Byte)
  | .ok text => text
  | .error _ => none

/-- Services with the extractors of the source. -/
def Services.withExtractors (beyond : Byte) (svc : Services Mbuf ω) : Services Mbuf ω :=
  { svc with
    pktmbufRead := rtePktmbufRead
    extractTlsSni := fun payload ↦ foundText (tlsSniText payload)
    extractHttpHost := fun payload ↦ foundText (httpHostText payload)
    extractHostname := fun packet metadata ↦
      foundText (DpdkSpi.extractHostname beyond packet metadata) }

/-- The hostname that the search of `TryDpiClassify` ends with. -/
def foundHostname : DpiVerdict ⊕ PacketMetadata → Option (List Byte)
  | .inl verdict => verdict.metadata.hostname
  | .inr metadata => metadata.hostname

/-- What the extractor for the destination port finds in a payload. -/
def payloadHostname (metadata : PacketMetadata) (payload : List Byte) : Option (List Byte) :=
  if rteBeToCpu16 metadata.destinationPortBe = kTlsPort then foundText (tlsSniText payload)
  else foundText (httpHostText payload)

theorem hostname_setHostname {metadata : PacketMetadata} (h : metadata.hostname = none)
    (hostname : Option (List Byte)) : (setHostname metadata hostname).hostname = hostname := by
  cases hostname with
  | none => exact h
  | some text => rfl

/-! ## Unpadded packets in one segment -/

/-- An IPv4 TCP packet in one mbuf segment without padding, as the parser leaves it. -/
structure PlainTcp (packet : Mbuf) (metadata : PacketMetadata) : Prop where
  parsed : ParsedTcp packet packet false metadata
  tcp : metadata.protocol = .kTcp
  ipv4 : metadata.ipVersion = .kIpv4
  single : packet.next = []
  unpadded : packet.dataLen = kEtherHdrSize + ipv4TotalLength packet

/-- The payload of a packet. -/
def tcpPayload (packet : Mbuf) (metadata : PacketMetadata) : List Byte :=
  packet.bytes.drop metadata.tcpPayloadOffset.toNat

namespace PlainTcp

variable {packet : Mbuf} {metadata : PacketMetadata} (h : PlainTcp packet metadata)

include h

theorem length_bytes : packet.bytes.length = packet.dataLen := by
  rw [Mbuf.bytes, Mbuf.segments, h.single, List.flatMap_cons, List.flatMap_nil, List.append_nil]
  rfl

/-- The payload stands behind the headers and goes on to the end of the packet. -/
theorem offset_add_length : kEtherHdrSize + kTcpHdrSize ≤ metadata.tcpPayloadOffset.toNat ∧
    metadata.tcpPayloadOffset.toNat + metadata.tcpPayloadLength.toNat = packet.dataLen := by
  obtain ⟨l4Length, hat, hlength⟩ := h.parsed.tcp
  have hparsed := parsedHeaderLen_le packet metadata.ipVersion
  have htcp := tcpHeaderLenAt_le packet (kEtherHdrSize + parsedHeaderLen packet metadata.ipVersion)
  have hfits := hat.fits
  have hheader := hat.header
  have htotal : ipv4TotalLength packet < 2 ^ 16 := BitVec.isLt _
  have hl4 := hlength rfl h.ipv4
  rw [← h.ipv4] at hl4
  rw [hat.offset, hat.length, BitVec.toNat_ofNat, BitVec.toNat_ofNat, h.unpadded]
  unfold kEtherHdrSize kTcpHdrSize at *
  omega

theorem length_tcpPayload :
    (tcpPayload packet metadata).length = metadata.tcpPayloadLength.toNat := by
  obtain ⟨hheaders, hsum⟩ := h.offset_add_length
  rw [tcpPayload, List.length_drop, h.length_bytes]
  omega

theorem dataLen_lt : packet.dataLen < 2 ^ 17 := by
  have htotal : ipv4TotalLength packet < 2 ^ 16 := BitVec.isLt _
  rw [h.unpadded, kEtherHdrSize]
  omega

/-- `TryDpiClassify` reads the whole payload. -/
theorem read_payload : rtePktmbufRead packet metadata.tcpPayloadOffset.toNat
    (min metadata.tcpPayloadLength.toNat kMaxTcpInspectionPayload) =
      some (tcpPayload packet metadata) := by
  obtain ⟨hheaders, hsum⟩ := h.offset_add_length
  have hlength := h.length_tcpPayload
  have htotal : ipv4TotalLength packet < 2 ^ 16 := BitVec.isLt _
  have hmin : min metadata.tcpPayloadLength.toNat kMaxTcpInspectionPayload =
      metadata.tcpPayloadLength.toNat := by
    have hunpadded := h.unpadded
    unfold kEtherHdrSize kTcpHdrSize kMaxTcpInspectionPayload at *
    omega
  rw [hmin, rtePktmbufRead, window_of_le (by rw [h.length_bytes]; exact Nat.le_of_eq hsum),
    ← hlength]
  exact congrArg some List.take_length

/-- `ExtractHostname` inspects the start of the payload. -/
theorem readPayload_eq (maxInspect : Nat) :
    readPayload packet metadata.tcpPayloadOffset maxInspect =
      some ((tcpPayload packet metadata).take maxInspect) := by
  obtain ⟨hheaders, hsum⟩ := h.offset_add_length
  have hlength := h.length_tcpPayload
  have hlt := h.dataLen_lt
  have havailable : (BitVec.ofNat 32 packet.dataLen - metadata.tcpPayloadOffset).toNat =
      (tcpPayload packet metadata).length := by
    rw [BitVec.toNat_sub, BitVec.toNat_ofNat]
    omega
  have hle : metadata.tcpPayloadOffset.toNat +
      min (tcpPayload packet metadata).length maxInspect ≤ packet.bytes.length := by
    rw [h.length_bytes]
    omega
  unfold readPayload
  dsimp only
  rw [havailable, rtePktmbufRead, window_of_le hle, ← List.take_take]
  refine congrArg some (List.take_of_length_le ?_)
  rw [List.length_take]
  exact Nat.min_le_right _ _

/-- `ExtractHostname` finds the payload. -/
theorem guessedPayloadOffset_eq (beyond : Byte) :
    guessedPayloadOffset beyond packet metadata = some metadata.tcpPayloadOffset := by
  obtain ⟨l4Length, hat, -⟩ := h.parsed.tcp
  have hlong : kEtherHdrSize < packet.dataLen := by
    have hbound := hat.bound
    rw [h.length_bytes] at hbound
    unfold kTcpHdrSize at hbound
    omega
  refine guessedPayloadOffset_of_eq h.tcp ?_ hat
  rw [guessedHeaderLen_eq hlong, h.ipv4]

/-- Without a reassembler the hostname is what the extractor finds in the payload. -/
theorem extractHostname_eq (hweb : WebPort metadata) (beyond : Byte) :
    foundText (extractHostname beyond packet metadata) =
      payloadHostname metadata (tcpPayload packet metadata) := by
  unfold extractHostname payloadHostname
  rw [h.guessedPayloadOffset_eq beyond]
  dsimp only
  by_cases htls : rteBeToCpu16 metadata.destinationPortBe = kTlsPort
  · rw [if_pos htls, if_pos htls, h.readPayload_eq]
    rfl
  · rw [if_neg htls, if_neg htls, if_pos (hweb.resolve_left htls), h.readPayload_eq]
    rfl

end PlainTcp

/-! ## Both sources -/

/-- There is a hostname for the destination port in the inspected part of a payload: a server name
in a ClientHello, or a Host header behind a known method. -/
def HoldsHostname (metadata : PacketMetadata) (payload : List Byte) : Prop :=
  if rteBeToCpu16 metadata.destinationPortBe = kTlsPort then
    ∃ place, NamedAt (payload.take kMaxTlsInspect) place
  else knownMethod payload = true ∧ ∃ i, HostAt (payload.take kMaxHttpInspect) i

/-- Extractors find a hostname where there is one. -/
theorem payloadHostname_eq_none_iff (metadata : PacketMetadata) {payload : List Byte}
    (h : 6 ≤ payload.length) :
    payloadHostname metadata payload = none ↔ ¬ HoldsHostname metadata payload := by
  unfold payloadHostname HoldsHostname
  by_cases htls : rteBeToCpu16 metadata.destinationPortBe = kTlsPort
  · have hlength : 6 ≤ (payload.take kMaxTlsInspect).length := by
      rw [List.length_take]
      exact Nat.le_min.mpr ⟨by decide, h⟩
    obtain ⟨found, hrun, hanswer⟩ := findTlsSni_answer hlength
    rw [if_pos htls, if_pos htls, ← answer_eq_none_iff hanswer, tlsSniText, extractTlsSni, hrun]
    exact Option.map_eq_none_iff
  · obtain ⟨found, hrun, hanswer⟩ := findHttpHost_answer (payload.take kMaxHttpInspect)
    have hmethod : knownMethod (payload.take kMaxHttpInspect) = knownMethod payload :=
      knownMethod_take (by decide)
    rw [if_neg htls, if_neg htls, httpHostText, extractHttpHost, hrun, ← exists_and_left,
      ← hmethod, ← answer_eq_none_iff hanswer]
    exact Option.map_eq_none_iff

section Sources

variable {env : ReassemblerSetup} {ctx : WorkerContext} {svc : Services Mbuf ω} {beyond : Byte}
  {packet : Mbuf} {metadata : PacketMetadata}

/-- The hostname from the packet. -/
theorem foundHostname_packet (hsvc : svc.tcpReassembler = none) (h : PlainTcp packet metadata)
    (hweb : WebPort metadata) (st : BurstState cap Mbuf ω) :
    foundHostname (findHostname ctx (svc.withExtractors beyond) packet metadata st).1 =
      payloadHostname metadata (tcpPayload packet metadata) := by
  obtain ⟨l4Length, hat, -⟩ := h.parsed.tcp
  have hnone : (svc.withExtractors beyond).tcpReassembler = none := hsvc
  unfold findHostname
  rw [hnone]
  exact (hostname_setHostname hat.hostname _).trans (h.extractHostname_eq hweb beyond)

/-- The hostname from the stream. -/
theorem foundHostname_stream (h : PlainTcp packet metadata)
    (st : BurstState cap Mbuf (ω × TcpStreamReassembler))
    (hfirst : TakesFirst env st.world.2 metadata ctx.currentBurstTsc
      metadata.tcpPayloadLength.toNat) (hne : tcpPayload packet metadata ≠ []) :
    foundHostname (findHostname ctx ((svc.withExtractors beyond).withReassembler env) packet
        metadata st).1 =
      payloadHostname metadata
        (if isStreamStart (tcpPayload packet metadata) then tcpPayload packet metadata
          else []) := by
  obtain ⟨l4Length, hat, -⟩ := h.parsed.tcp
  rw [← h.length_tcpPayload] at hfirst
  have hinsert := hfirst.insert hne
  have hread : ((svc.withExtractors beyond).withReassembler env).pktmbufRead packet
      metadata.tcpPayloadOffset.toNat
      (min metadata.tcpPayloadLength.toNat kMaxTcpInspectionPayload) =
        some (tcpPayload packet metadata) := h.read_payload
  have hreassembler : ((svc.withExtractors beyond).withReassembler env).tcpReassembler =
      some fun metadata payload tsc w ↦
        ((w.2.insert env metadata payload tsc).1, w.1, (w.2.insert env metadata payload tsc).2) :=
    rfl
  have hend (m : PacketMetadata) (s : BurstState cap Mbuf (ω × TcpStreamReassembler)) :
      foundHostname (if m.hostname = none then
        ((.inl { metadata := m, deferSpiCache := true } : DpiVerdict ⊕ PacketMetadata), s)
        else (.inr m, s)).1 = m.hostname := by
    split
    · rfl
    · rfl
  unfold findHostname
  rw [hreassembler]
  dsimp only
  rw [hread]
  dsimp only
  rw [hinsert]
  cases isStreamStart (tcpPayload packet metadata) with
  | true => exact (hend _ _).trans (hostname_setHostname hat.hostname _)
  | false => exact (hend _ _).trans (hostname_setHostname hat.hostname _)

/-- The reassembler finds the hostname that the packet has if it takes the payload for the start
of a stream, or if there is no hostname. -/
theorem sources_agree_iff (hsvc : svc.tcpReassembler = none) {fragTbl : Option (FragLibrary φ)}
    {tsc : BitVec 64} {fragments : φ}
    (hparse : (parsePacketOwned fragTbl packet tsc fragments).1 = .parsed metadata packet false)
    (htcp : metadata.protocol = .kTcp) (hipv4 : metadata.ipVersion = .kIpv4)
    (hsingle : packet.next = [])
    (hunpadded : packet.dataLen = kEtherHdrSize + ipv4TotalLength packet)
    (hweb : WebPort metadata) (hsix : 6 ≤ metadata.tcpPayloadLength.toNat)
    (st : BurstState cap Mbuf ω) (st' : BurstState cap Mbuf (ω × TcpStreamReassembler))
    (hfirst : TakesFirst env st'.world.2 metadata ctx.currentBurstTsc
      metadata.tcpPayloadLength.toNat) :
    foundHostname (findHostname ctx ((svc.withExtractors beyond).withReassembler env) packet
          metadata st').1 =
        foundHostname (findHostname ctx (svc.withExtractors beyond) packet metadata st).1 ↔
      isStreamStart (tcpPayload packet metadata) = true ∨
        ¬ HoldsHostname metadata (tcpPayload packet metadata) := by
  have hplain : PlainTcp packet metadata :=
    ⟨parsedTcp_of_parsed hparse htcp, htcp, hipv4, hsingle, hunpadded⟩
  have hlength := hplain.length_tcpPayload
  have hne : tcpPayload packet metadata ≠ [] := by
    intro hnil
    rw [hnil, List.length_nil] at hlength
    omega
  rw [foundHostname_packet hsvc hplain hweb, foundHostname_stream hplain st' hfirst hne,
    ← payloadHostname_eq_none_iff metadata (by omega)]
  cases hstart : isStreamStart (tcpPayload packet metadata) with
  | true => exact iff_of_true rfl (.inl rfl)
  | false =>
      have hempty : payloadHostname metadata [] = none := by
        unfold payloadHostname
        split
        · rfl
        · rfl
      rw [if_neg Bool.false_ne_true, hempty]
      exact ⟨fun h ↦ .inr h.symm, fun h ↦ (h.resolve_left Bool.false_ne_true).symm⟩

end Sources

/-! ## Two requests -/

/-- A TCP segment from 10.0.0.1:1000 to 10.0.0.2:80 with a text. -/
def webPacket (text : String) : Ipv4Packet where
  macs := List.replicate 12 0
  protocol := kIpprotoTcp
  source := 0x0A000001
  destination := 0x0A000002
  payload := be16 1000 ++ be16 80 ++ be32 0 ++ be32 0 ++ [0x50, 0x18] ++ be16 0 ++ be16 0 ++
    be16 0 ++ asciiBytes text

/-- The segment in an mbuf. -/
def webMbuf (text : String) : Mbuf := ⟨⟨0, (webPacket text).bytes⟩, []⟩

/-- A request with a space behind the method. -/
def rootRequest : String := "GET / HTTP/1.1\r\nHost: a.b\r\n\r\n"

/-- A request with a tab behind the method. -/
def tabRequest : String := "POST\t/ HTTP/1.1\r\nHost: a.b\r\n\r\n"

/-- A burst without flows, and a reassembler without streams. -/
def freshStreams : BurstState 8 Mbuf (Unit × TcpStreamReassembler) where
  flowTable := .new 8 true
  world := ((), {})

/-- A burst without flows. -/
def freshFlows : BurstState 8 Mbuf Unit where
  flowTable := .new 8 true
  world := ()

theorem takesFirst_fresh {metadata : PacketMetadata} {now : BitVec 64} {size : Nat}
    (htcp : metadata.protocol = .kTcp) (hsize : size ≤ 64) :
    TakesFirst defaultSetup {} metadata now size where
  inspects := ⟨rfl, htcp⟩
  fresh := rfl
  streams := rfl
  pending := by decide
  direction := hsize.trans (by decide)
  memory := (Nat.zero_add size).trans_le (hsize.trans (by decide))

theorem sources_agree_rootRequest :
    foundHostname (findHostname dropTcp
          ((bareServices.withExtractors 0).withReassembler defaultSetup) (webMbuf rootRequest)
          ((webPacket rootRequest).tcpMetadata 0) freshStreams).1 =
      foundHostname (findHostname dropTcp (bareServices.withExtractors 0) (webMbuf rootRequest)
        ((webPacket rootRequest).tcpMetadata 0) freshFlows).1 := by
  have hparse : (parsePacketOwned (none : Option (FragLibrary Unit)) (webMbuf rootRequest)
      0 ()).1 = .parsed ((webPacket rootRequest).tcpMetadata 0) (webMbuf rootRequest) false := rfl
  refine (sources_agree_iff rfl hparse rfl rfl rfl (by decide) (.inr (by decide)) (by decide)
    freshFlows freshStreams (takesFirst_fresh rfl (by decide))).mpr (.inl (by decide))

/-- The stream of `POST` and a tab does not start, and the Host header behind it waits. -/
theorem sources_differ_tabRequest :
    (parsePacketOwned (none : Option (FragLibrary Unit)) (webMbuf tabRequest) 0 ()).1 =
        .parsed ((webPacket tabRequest).tcpMetadata 0) (webMbuf tabRequest) false ∧
      TakesFirst defaultSetup freshStreams.world.2 ((webPacket tabRequest).tcpMetadata 0) 0
        ((webPacket tabRequest).tcpMetadata 0).tcpPayloadLength.toNat ∧
      foundHostname (findHostname dropTcp
        ((bareServices.withExtractors 0).withReassembler defaultSetup) (webMbuf tabRequest)
        ((webPacket tabRequest).tcpMetadata 0) freshStreams).1 = none ∧
      foundHostname (findHostname dropTcp (bareServices.withExtractors 0) (webMbuf tabRequest)
        ((webPacket tabRequest).tcpMetadata 0) freshFlows).1 = some (asciiBytes "a.b") := by
  have hparse : (parsePacketOwned (none : Option (FragLibrary Unit)) (webMbuf tabRequest)
      0 ()).1 = .parsed ((webPacket tabRequest).tcpMetadata 0) (webMbuf tabRequest) false := rfl
  have hplain : PlainTcp (webMbuf tabRequest) ((webPacket tabRequest).tcpMetadata 0) :=
    ⟨parsedTcp_of_parsed hparse rfl, rfl, rfl, rfl, by decide⟩
  have hfirst : TakesFirst defaultSetup freshStreams.world.2
      ((webPacket tabRequest).tcpMetadata 0) 0
      ((webPacket tabRequest).tcpMetadata 0).tcpPayloadLength.toNat :=
    takesFirst_fresh rfl (by decide)
  refine ⟨hparse, hfirst, ?_, ?_⟩
  · rw [foundHostname_stream hplain freshStreams hfirst (by decide)]
    decide
  · rw [foundHostname_packet rfl hplain (.inr (by decide))]
    decide

end DpdkSpi
