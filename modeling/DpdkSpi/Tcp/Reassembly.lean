import DpdkSpi.Lib.FinMap
import DpdkSpi.Lib.Serial
import DpdkSpi.Tcp.StreamKey

/-!
# TCP stream reassembly

`TcpStreamReassembler`, after `spi_tcp_reassembly.hpp` and `spi_tcp_reassembly.cpp`: the
payload of TCP segments is put together, per connection and direction, as far as L7
inspection needs it.  A direction has a contiguous part, which starts at the first segment
that looks like the start of a request, and a list of segments that came too early.

What the constructor sets and nothing changes later is `ReassemblerSetup`; the rest of the
members are the state.  The table of streams is a finite map, so that the order in which
`PurgeExpired` visits it is any order.

`streams_` compares a key only with the keys in the bucket of its hash, and the hash reads the
byte of padding of the key object.  So a stream is known by its key and its bucket
(`StreamPlace`), and a connection may have several.
-/

namespace DpdkSpi

open Lib

/-! ## Results -/

/-- `TcpReassemblyStatus`. -/
inductive TcpReassemblyStatus where
  | kDisabled
  | kWaiting
  | kReady
  | kConflictingOverlap
  | kResourceLimit
deriving DecidableEq, Repr

/-- The two statuses for which `Insert` gives the stream up. -/
def TcpReassemblyStatus.isError : TcpReassemblyStatus → Bool
  | .kConflictingOverlap | .kResourceLimit => true
  | _ => false

/-- `TcpReassemblyResult`. -/
structure TcpReassemblyResult where
  status : TcpReassemblyStatus := .kDisabled
  contiguousPayload : List (BitVec 8) := []
deriving DecidableEq, Repr

/-! ## State -/

/-- `PendingSegment`. -/
structure PendingSegment where
  sequence : BitVec 32 := 0
  payload : List Byte := []
deriving DecidableEq, Repr

/-- `DirectionState`. -/
structure DirectionState where
  baseKnown : Bool := false
  baseSequence : BitVec 32 := 0
  nextSequence : BitVec 32 := 0
  contiguous : List Byte := []
  pending : List PendingSegment := []
deriving DecidableEq, Repr

/-- `StreamState`. -/
structure StreamState where
  directions : Fin 2 → DirectionState := fun _ ↦ {}
  lastSeenTsc : BitVec 64 := 0

/-- What the source leaves to the compiler and to `std::unordered_map`: the padding of the keys in
memory, and the buckets. -/
structure KeyMemory where
  /-- The bucket of a hash.  `reserve` sets the number of buckets, which the table does not
  outgrow. -/
  bucket : BitVec 64 → Nat := BitVec.toNat
  /-- The padding of the key that the `n`-th call of `Insert` makes. -/
  keyPadding : Nat → Byte := fun _ ↦ 0
  /-- The padding of the copy that `emplace` makes of it. -/
  nodePadding : Nat → Byte := fun _ ↦ 0

/-- The members that the constructor sets. -/
structure ReassemblerSetup where
  /-- `config_`. -/
  config : TcpReassemblyConfig
  /-- `timeout_cycles`. -/
  timeoutCycles : BitVec 64
  /-- `memory_budget_bytes_`. -/
  memoryBudgetBytes : Nat
  keyMemory : KeyMemory := {}

/-- `kBytesPerMiB`. -/
def kBytesPerMiB : Nat := 1024 * 1024

/-- The constructor. -/
def ReassemblerSetup.new (config : TcpReassemblyConfig) (tscHz : BitVec 64) :
    ReassemblerSetup where
  config := config
  timeoutCycles := config.idleTimeoutSec.setWidth 64 * tscHz
  memoryBudgetBytes := config.memoryBudgetMb.toNat * kBytesPerMiB

/-- Where a stream is in `streams_`. -/
structure StreamPlace where
  key : StreamKey
  bucket : Nat
deriving DecidableEq, Repr

/-- The place of a key object. -/
def KeyMemory.place (memory : KeyMemory) (padding : Byte) (key : StreamKey) : StreamPlace where
  key := key
  bucket := memory.bucket (streamKeyHash { key, padding })

/-- The members that change, and the number of keys that `Insert` has made. -/
structure TcpStreamReassembler where
  /-- `buffered_bytes_`. -/
  bufferedBytes : Nat := 0
  /-- `streams_`. -/
  streams : FinMap StreamPlace StreamState := ∅
  calls : Nat := 0

/-- The bytes a direction holds. -/
def DirectionState.bytes (d : DirectionState) : Nat :=
  d.contiguous.length + (d.pending.map fun p ↦ p.payload.length).sum

/-- `StateBytes`. -/
def stateBytes (state : StreamState) : Nat :=
  (state.directions 0).bytes + (state.directions 1).bytes

/-! ## The key of a packet -/

/-- `EndpointLess`: the addresses as `memcmp` orders them, then the ports. -/
def endpointLess (lhs rhs : Endpoint) : Bool :=
  lhs.address.toList < rhs.address.toList ∨ (lhs.address = rhs.address ∧ lhs.port < rhs.port)

/-- `memcpy` of a 32-bit word of a little-endian host into the first bytes of an address
that is zero otherwise. -/
def Ip6Address.ofWord (word : BitVec 32) : Ip6Address :=
  #v[word.extractLsb' 0 8, word.extractLsb' 8 8, word.extractLsb' 16 8, word.extractLsb' 24 8,
    0, 0, 0, 0, 0, 0, 0, 0, 0, 0, 0, 0]

/-- The source of a packet. -/
def sourceEndpoint (metadata : PacketMetadata) : Endpoint where
  address := match metadata.ipVersion with
    | .kIpv4 => .ofWord metadata.sourceIpBe
    | .kIpv6 => metadata.sourceIp6Address
  port := metadata.sourcePortBe

/-- The destination of a packet. -/
def destinationEndpoint (metadata : PacketMetadata) : Endpoint where
  address := match metadata.ipVersion with
    | .kIpv4 => .ofWord metadata.destinationIpBe
    | .kIpv6 => metadata.destinationIp6Address
  port := metadata.destinationPortBe

/-- `MakeKey`: the connection of a packet and its direction in it. -/
def makeKey (metadata : PacketMetadata) : StreamKey × Fin 2 :=
  let source := sourceEndpoint metadata
  let destination := destinationEndpoint metadata
  if endpointLess source destination then
    ({ first := source, second := destination, version := metadata.ipVersion }, 0)
  else ({ first := destination, second := source, version := metadata.ipVersion }, 1)

/-! ## One direction -/

/-- The bytes of an ASCII text. -/
def asciiBytes (text : String) : List Byte := text.toList.map fun c ↦ BitVec.ofNat 8 c.toNat

/-- The methods `IsStreamStart` knows. -/
def httpMethods : List String := ["GET ", "POST ", "PUT ", "HEAD ", "DELETE ", "OPTIONS ", "PATCH "]

/-- `IsStreamStart`: a TLS handshake record with a ClientHello, or an HTTP method. -/
def isStreamStart (payload : List Byte) : Bool :=
  (6 ≤ payload.length && payload.getD 0 0 = 0x16 && payload.getD 1 0 = 0x03 &&
      payload.getD 5 0 = 0x01) ||
    httpMethods.any fun method ↦ (asciiBytes method).isPrefixOf payload

/-- `SequenceDistance`. -/
def sequenceDistance (lhs rhs : BitVec 32) : Int := Serial.distance lhs rhs

/-- `HasCapacity`. -/
def hasCapacity (env : ReassemblerSetup) (bufferedBytes additional : Nat) : Bool :=
  additional ≤ env.memoryBudgetBytes - min env.memoryBudgetBytes bufferedBytes

/-- What `VerifyOverlap` answers to bytes it does not accept. -/
def conflictStatus (env : ReassemblerSetup) : TcpReassemblyStatus :=
  if env.config.dropConflictingOverlap then .kConflictingOverlap else .kWaiting

/-- `VerifyOverlap`. -/
def verifyOverlap (env : ReassemblerSetup) (direction : DirectionState) (sequence : BitVec 32)
    (payload : List Byte) : TcpReassemblyStatus :=
  let offset := sequenceDistance sequence direction.baseSequence
  if offset < 0 then conflictStatus env
  else
    let begin := offset.toNat
    if direction.contiguous.length ≤ begin then .kWaiting
    else
      let overlap := min payload.length (direction.contiguous.length - begin)
      if payload.take overlap = (direction.contiguous.drop begin).take overlap then .kWaiting
      else conflictStatus env

/-- `QueuePending`: the status, the direction and `buffered_bytes_` after the call. -/
def queuePending (env : ReassemblerSetup) (bufferedBytes : Nat) (direction : DirectionState)
    (sequence : BitVec 32) (payload : List Byte) :
    TcpReassemblyStatus × DirectionState × Nat :=
  if env.config.maxOutOfOrderSegments.toNat ≤ direction.pending.length ∨
      !hasCapacity env bufferedBytes payload.length then
    (.kResourceLimit, direction, bufferedBytes)
  else
    match direction.pending.find? fun pending ↦ pending.sequence = sequence with
    | some pending =>
        (if pending.payload = payload then .kWaiting else .kConflictingOverlap, direction,
          bufferedBytes)
    | none =>
        (.kWaiting, { direction with pending := direction.pending ++ [⟨sequence, payload⟩] },
          bufferedBytes + payload.length)

/-- The loop of `AppendAndDrain`.  Every round takes one pending segment, the first one that
starts at `next_sequence`; `fuel` is the number of pending segments. -/
def drain (env : ReassemblerSetup) : (fuel : Nat) → DirectionState →
    TcpReassemblyStatus × DirectionState
  | 0, direction => (.kReady, direction)
  | fuel + 1, direction =>
      match direction.pending.find? fun p ↦ p.sequence = direction.nextSequence with
      | none => (.kReady, direction)
      | some p =>
          if env.config.maxBufferedBytesPerDirection.toNat <
              direction.contiguous.length + p.payload.length then
            (.kResourceLimit, direction)
          else
            drain env fuel
              { direction with
                contiguous := direction.contiguous ++ p.payload
                nextSequence := direction.nextSequence + BitVec.ofNat 32 p.payload.length
                pending := direction.pending.eraseP fun p ↦ p.sequence = direction.nextSequence }

/-- `AppendAndDrain`. -/
def appendAndDrain (env : ReassemblerSetup) (bufferedBytes : Nat) (direction : DirectionState)
    (sequence : BitVec 32) (payload : List Byte) :
    TcpReassemblyStatus × DirectionState × Nat :=
  if !hasCapacity env bufferedBytes payload.length ∨
      env.config.maxBufferedBytesPerDirection.toNat <
        direction.contiguous.length + payload.length then
    (.kResourceLimit, direction, bufferedBytes)
  else
    let drained := drain env direction.pending.length
      { direction with
        contiguous := direction.contiguous ++ payload
        nextSequence := sequence + BitVec.ofNat 32 payload.length }
    (drained.1, drained.2, bufferedBytes + payload.length)

/-- The direction with its base at a segment that starts a stream. -/
def DirectionState.withBase (direction : DirectionState) (sequence : BitVec 32) : DirectionState :=
  { direction with baseKnown := true, baseSequence := sequence, nextSequence := sequence }

/-- `AddSegment`. -/
def addSegment (env : ReassemblerSetup) (bufferedBytes : Nat) (direction : DirectionState)
    (sequence : BitVec 32) (payload : List Byte) :
    TcpReassemblyStatus × DirectionState × Nat :=
  if payload.isEmpty then (.kWaiting, direction, bufferedBytes)
  else if !direction.baseKnown && !isStreamStart payload then
    queuePending env bufferedBytes direction sequence payload
  else
    let direction := if direction.baseKnown then direction else direction.withBase sequence
    let distance := sequenceDistance sequence direction.nextSequence
    if distance = 0 then appendAndDrain env bufferedBytes direction sequence payload
    else if 0 < distance then queuePending env bufferedBytes direction sequence payload
    else if verifyOverlap env direction sequence payload = .kConflictingOverlap then
      (.kConflictingOverlap, direction, bufferedBytes)
    else if sequenceDistance (sequence + BitVec.ofNat 32 payload.length)
        direction.nextSequence ≤ 0 then
      (.kWaiting, direction, bufferedBytes)
    else
      appendAndDrain env bufferedBytes direction direction.nextSequence
        (payload.drop (-distance).toNat)

/-! ## The table of streams -/

/-- A stream that has been idle for too long. -/
def expired (env : ReassemblerSetup) (now : BitVec 64) (state : StreamState) : Bool :=
  env.timeoutCycles < now - state.lastSeenTsc

namespace TcpStreamReassembler

/-- Erase a stream, with `AccountRemove`. -/
def eraseStream (r : TcpStreamReassembler) (place : StreamPlace) (state : StreamState) :
    TcpStreamReassembler :=
  { r with
    bufferedBytes := r.bufferedBytes - min r.bufferedBytes (stateBytes state)
    streams := r.streams.erase place }

/-- The body of the loop of `PurgeExpired`. -/
def purgeStream (env : ReassemblerSetup) (now : BitVec 64) (r : TcpStreamReassembler)
    (entry : (_ : StreamPlace) × StreamState) : TcpStreamReassembler :=
  if expired env now entry.2 then r.eraseStream entry.1 entry.2 else r

/-- `PurgeExpired`. -/
def purgeExpired (env : ReassemblerSetup) (r : TcpStreamReassembler) (now : BitVec 64) :
    TcpStreamReassembler :=
  if env.timeoutCycles = 0 then r else r.streams.entries.foldl (purgeStream env now) r

/-- `RTE_TCP_SYN_FLAG`. -/
def rteTcpSynFlag : BitVec 8 := 0x02

/-- The sequence number of the first payload byte of a segment. -/
def dataSequence (metadata : PacketMetadata) : BitVec 32 :=
  metadata.tcpSequence + if metadata.tcpFlags &&& rteTcpSynFlag ≠ 0 then 1 else 0

/-- Where `streams_.find(key)` looks. -/
def soughtPlace (env : ReassemblerSetup) (r : TcpStreamReassembler) (key : StreamKey) :
    StreamPlace :=
  env.keyMemory.place (env.keyMemory.keyPadding r.calls) key

/-- Where `streams_.emplace(key, ...)` puts a stream, or finds one. -/
def emplacedPlace (env : ReassemblerSetup) (r : TcpStreamReassembler) (key : StreamKey) :
    StreamPlace :=
  env.keyMemory.place (env.keyMemory.nodePadding r.calls) key

/-- The place of the stream that `Insert` works on. -/
def place (env : ReassemblerSetup) (r : TcpStreamReassembler) (key : StreamKey) : StreamPlace :=
  if (r.streams.lookup (r.soughtPlace env key)).isSome then r.soughtPlace env key
  else r.emplacedPlace env key

/-- The stream at a place, a new one if there is none. -/
def streamAt (r : TcpStreamReassembler) (place : StreamPlace) : StreamState :=
  (r.streams.lookup place).getD {}

/-- `Insert` behind `PurgeExpired`, for a stream that exists or is created. -/
def insertSegment (env : ReassemblerSetup) (r : TcpStreamReassembler)
    (metadata : PacketMetadata) (payload : List Byte) (now : BitVec 64) :
    TcpReassemblyResult × TcpStreamReassembler :=
  let place := r.place env (makeKey metadata).1
  let directionIndex := (makeKey metadata).2
  let state := r.streamAt place
  let added := addSegment env r.bufferedBytes (state.directions directionIndex)
    (dataSequence metadata) payload
  let state : StreamState :=
    { directions := Function.update state.directions directionIndex added.2.1, lastSeenTsc := now }
  let r := { r with bufferedBytes := added.2.2, calls := r.calls + 1 }
  if added.1.isError then ({ status := added.1 }, r.eraseStream place state)
  else
    ({ status := added.1, contiguousPayload := added.2.1.contiguous },
      { r with streams := r.streams.insert place state })

/-- `find` finds no stream of the connection, and there is no room for a new one. -/
def streamTableFull (env : ReassemblerSetup) (r : TcpStreamReassembler) (key : StreamKey) : Bool :=
  (r.streams.lookup (r.soughtPlace env key)).isNone &&
    env.config.maxConcurrentStreams.toNat ≤ r.streams.keys.length

/-- `Insert`. -/
def insert (env : ReassemblerSetup) (r : TcpStreamReassembler) (metadata : PacketMetadata)
    (payload : List Byte) (now : BitVec 64) : TcpReassemblyResult × TcpStreamReassembler :=
  if !env.config.enabled || metadata.protocol ≠ .kTcp then ({}, r)
  else
    let r := r.purgeExpired env now
    if r.streamTableFull env (makeKey metadata).1 then
      ({ status := .kResourceLimit }, { r with calls := r.calls + 1 })
    else r.insertSegment env metadata payload now

end TcpStreamReassembler

end DpdkSpi
