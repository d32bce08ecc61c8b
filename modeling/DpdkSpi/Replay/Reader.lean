import Mathlib.Data.BitVec

/-!
# Reading PCAP files

`PcapReader`, after `pcap_replay.cpp`.  libpcap and the mempool are parameters: the packets of the
file, and how each of their calls comes out.  The handle is the number of packets that were read
through it.
-/

namespace DpdkSpi

/-! ## libpcap and the mempool -/

/-- The fields of `pcap_pkthdr` that are read. -/
structure PcapPktHdr where
  caplen : BitVec 32
  len : BitVec 32
deriving DecidableEq, Repr

/-- The lengths of an mbuf that a packet is copied into. -/
structure PcapMbuf where
  pktLen : BitVec 32
  dataLen : BitVec 16
deriving DecidableEq, Repr

/-- How a call of `pcap_next_ex` comes out: it takes the next packet, if there is one, or not. -/
inductive NextEx where
  | next
  | timeout
  | error (message : String)

/-- A PCAP file and the libraries to read it with.  Calls are numbered. -/
structure PcapEnv where
  packets : List PcapPktHdr
  nextEx : Nat → NextEx
  /-- What `pcap_open_offline` complains about. -/
  openError : Nat → Option String
  /-- `rte_pktmbuf_alloc` has no mbuf. -/
  allocFails : Nat → Bool
  /-- `rte_pktmbuf_tailroom` of a new mbuf. -/
  tailroom : Nat

/-- No read or reopen fails. -/
structure PcapEnv.Works (env : PcapEnv) : Prop where
  next : ∀ call, env.nextEx call = .next
  opens : ∀ call, env.openError call = none
  alloc : ∀ call, env.allocFails call = false
  fits : ∀ hdr ∈ env.packets, hdr.caplen.toNat ≤ env.tailroom

/-- `PcapReader`, with the number of library calls so far. -/
structure PcapReader where
  pcapHandle : Option Nat
  eof : Bool := false
  filename : String
  calls : Nat := 0
deriving DecidableEq, Repr

/-- A packet as it is copied. -/
def PcapPktHdr.toMbuf (hdr : PcapPktHdr) : PcapMbuf := ⟨hdr.len, hdr.caplen.setWidth 16⟩

/-! ## Reading -/

/-- `ReadNextRawPacket`, through a handle: no packet means the end of the file or a timeout. -/
def readNextRawPacket (env : PcapEnv) (position : Nat) (reader : PcapReader) :
    Except String (Option PcapPktHdr) × PcapReader :=
  let reader' := { reader with calls := reader.calls + 1 }
  match env.nextEx reader.calls with
  | .timeout => (.ok none, reader')
  | .error message => (.error s!"PcapReader: read error: {message}", reader')
  | .next =>
      match env.packets[position]? with
      | none => (.ok none, { reader' with eof := true })
      | some hdr => (.ok (some hdr), { reader' with pcapHandle := some (position + 1) })

/-- `CopyPacketToMbuf`.  There is always room to append what fits into the tailroom. -/
def copyPacketToMbuf (env : PcapEnv) (hdr : PcapPktHdr) (reader : PcapReader) :
    Except String PcapMbuf × PcapReader :=
  let reader' := { reader with calls := reader.calls + 1 }
  if env.allocFails reader.calls then (.error "PcapReader: rte_pktmbuf_alloc failed", reader')
  else if env.tailroom < hdr.caplen.toNat then
    (.error "PcapReader: packet too large for mbuf", reader')
  else (.ok hdr.toMbuf, reader')

/-- `ReadPacket`. -/
def readPacket (env : PcapEnv) (reader : PcapReader) :
    Except String (Option PcapMbuf) × PcapReader :=
  match reader.pcapHandle with
  | none => (.ok none, reader)
  | some position =>
      if reader.eof then (.ok none, reader)
      else
        match readNextRawPacket env position reader with
        | (.error message, reader) => (.error message, reader)
        | (.ok none, reader) => (.ok none, reader)
        | (.ok (some hdr), reader) =>
            match copyPacketToMbuf env hdr reader with
            | (.error message, reader) => (.error message, reader)
            | (.ok mbuf, reader) => (.ok (some mbuf), reader)

/-- `ReadBurst`.  On an error the mbufs of the burst are freed. -/
def readBurst (env : PcapEnv) : (burstSize : Nat) → PcapReader →
    Except String (List PcapMbuf) × PcapReader
  | 0, reader => (.ok [], reader)
  | burstSize + 1, reader =>
      match readPacket env reader with
      | (.error message, reader) => (.error message, reader)
      | (.ok none, reader) => (.ok [], reader)
      | (.ok (some mbuf), reader) =>
          match readBurst env burstSize reader with
          | (.error message, reader) => (.error message, reader)
          | (.ok burst, reader) => (.ok (mbuf :: burst), reader)

/-- `Reset`, which closes the file and opens it again. -/
def PcapReader.reset (env : PcapEnv) (reader : PcapReader) : Except String Unit × PcapReader :=
  if reader.filename = "" then
    (.error "PcapReader: Reset requires filename (call Open first)", reader)
  else
    match env.openError reader.calls with
    | some errbuf =>
        (.error s!"PcapReader: pcap_open_offline failed: {errbuf}",
          { reader with pcapHandle := none, eof := true, calls := reader.calls + 1 })
    | none =>
        (.ok (), { reader with pcapHandle := some 0, eof := false, calls := reader.calls + 1 })

/-! ## What is read -/

/-- The reader has read some packets of the file through its handle; at the end of the file it has
read all of them. -/
structure PcapReader.At (env : PcapEnv) (position : Nat) (reader : PcapReader) : Prop where
  handle : reader.pcapHandle = some position
  le : position ≤ env.packets.length
  all_of_eof : reader.eof = true → position = env.packets.length
  named : reader.filename ≠ ""

section Read

variable {env : PcapEnv} (hworks : env.Works) {position : Nat} {reader : PcapReader}

include hworks

/-- At the end of the file there is no packet. -/
theorem readPacket_end (h : reader.At env env.packets.length) :
    ∃ reader', readPacket env reader = (.ok none, reader') ∧
      reader'.At env env.packets.length := by
  unfold readPacket
  rw [h.handle]
  dsimp only
  by_cases heof : reader.eof = true
  · rw [if_pos heof]
    exact ⟨reader, rfl, h⟩
  · rw [if_neg heof, readNextRawPacket, hworks.next]
    dsimp only
    rw [List.getElem?_eq_none le_rfl]
    exact ⟨_, rfl, h.handle, le_rfl, fun _ ↦ rfl, h.named⟩

/-- Before it there is the next one. -/
theorem readPacket_next (h : reader.At env position) (hlt : position < env.packets.length) :
    ∃ reader', readPacket env reader = (.ok (some env.packets[position].toMbuf), reader') ∧
      reader'.At env (position + 1) := by
  have heof : ¬ reader.eof = true := fun heof ↦ hlt.ne (h.all_of_eof heof)
  have hfits := hworks.fits _ (List.getElem_mem hlt)
  unfold readPacket
  rw [h.handle]
  dsimp only
  rw [if_neg heof, readNextRawPacket, hworks.next]
  dsimp only
  rw [List.getElem?_eq_getElem hlt]
  dsimp only
  rw [copyPacketToMbuf, hworks.alloc, if_neg nofun, if_neg (Nat.not_lt.mpr hfits)]
  exact ⟨_, rfl, rfl, hlt, fun heof' ↦ absurd heof' heof, h.named⟩

/-- A burst has the next packets, as many as there are and as asked for. -/
theorem readBurst_spec (burstSize : Nat) (h : reader.At env position) :
    ∃ reader', readBurst env burstSize reader =
        (.ok (((env.packets.drop position).take burstSize).map PcapPktHdr.toMbuf), reader') ∧
      reader'.At env (min (position + burstSize) env.packets.length) := by
  induction burstSize generalizing position reader with
  | zero =>
      rw [Nat.add_zero, Nat.min_eq_left h.le, List.take_zero]
      exact ⟨reader, rfl, h⟩
  | succ burstSize ih =>
      rw [readBurst]
      rcases Nat.lt_or_eq_of_le h.le with hlt | rfl
      · obtain ⟨reader', hread, hnext⟩ := readPacket_next hworks h hlt
        obtain ⟨reader'', hburst, hend⟩ := ih hnext
        rw [hread]
        dsimp only
        rw [hburst, List.drop_eq_getElem_cons hlt, List.take_succ_cons, List.map_cons]
        refine ⟨reader'', rfl, ?_⟩
        rwa [Nat.add_assoc, Nat.add_comm 1] at hend
      · obtain ⟨reader', hread, hend⟩ := readPacket_end hworks h
        rw [hread, List.drop_length, List.take_nil, List.map_nil,
          Nat.min_eq_right (Nat.le_add_right _ _)]
        exact ⟨reader', rfl, hend⟩

/-- `Reset` starts the file again. -/
theorem reset_spec (h : reader.At env position) :
    ∃ reader', reader.reset env = (.ok (), reader') ∧ reader'.At env 0 := by
  rw [PcapReader.reset, if_neg h.named, hworks.opens]
  exact ⟨_, rfl, rfl, Nat.zero_le _, nofun, h.named⟩

end Read

end DpdkSpi
