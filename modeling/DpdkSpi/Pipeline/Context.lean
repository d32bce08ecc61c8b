import DpdkSpi.Flow.Table
import DpdkSpi.Rule.Table
import DpdkSpi.Tcp.Reassembly

/-!
# What a worker works with

The worker context, the per-burst counters and the staging buffers, after
`spi_pipeline.hpp`.  What a worker only reads during a burst is in `WorkerContext`; what
it changes is in `BurstState` and is passed along.

Packet buffers are of an arbitrary type `μ`.  Everything the pipeline asks of them, and
of the libraries and components behind it (parsing and fragment reassembly, hostname
extraction, TCP reassembly, the DPI table with its cache, header rewriting), is a field
of `Services`; their own state is a world `σ` that every call may change.
-/

namespace DpdkSpi

/-! ## Counters -/

/-- `BurstCounters`. -/
structure BurstCounters where
  received : Nat := 0
  transmitted : Nat := 0
  parsed : Nat := 0
  matched : Nat := 0
  unknown : Nat := 0
  malformed : Nat := 0
  dropped : Nat := 0
  droppedByRule : Nat := 0
  flowCacheHits : Nat := 0
  dpiCacheHits : Nat := 0
  dpiCacheMisses : Nat := 0
  dpiSkippedBySpi : Nat := 0
  dpiSkippedByLink : Nat := 0
  flowTableFull : Nat := 0
  pressureEvictions : Nat := 0
  flowTableResizes : Nat := 0
deriving DecidableEq, Repr

/-! ## The context -/

/-- An Ethernet address. -/
abbrev EtherAddr := BitVec 48

/-- IPv4 route of the L3 forwarding path, in host byte order. -/
structure L3RouteEntry where
  networkAddress : BitVec 32 := 0
  prefixMask : BitVec 32 := 0
  prefixLength : BitVec 16 := 0
  outputPort : BitVec 16 := 0
deriving DecidableEq, Repr

/-- Destination address of an output port. -/
structure EthernetDestinationEntry where
  portId : BitVec 16 := 0
  macAddress : EtherAddr := 0
deriving DecidableEq, Repr

/-- What a worker reads during a burst.  The tables are those the managers return;
`none` is a null pointer. -/
structure WorkerContext where
  rules : RuleTable
  /-- The DPI table is there and has a filter (`IsEnabled`). -/
  dpiEnabled : Bool := false
  l3Routes : Option (List L3RouteEntry) := none
  ethernetDestinations : Option (List EthernetDestinationEntry) := none
  /-- `flow_hash_rings.size()`, zero in queue mode. -/
  flowHashRings : Nat := 0
  workerId : Nat := 0
  macUpdating : Bool := true
  l3Forwarding : Bool := false
  dropUnmatched : Bool := false
  flowOverflowDrop : Bool := true
  currentBurstTsc : BitVec 64 := 0
  /-- `GetActivePorts`. -/
  activePorts : List (BitVec 16) := []
  /-- `GetPortCount`, the number of staging buffers. -/
  portCount : Nat := 0
  /-- `GetPortMacAddress`. -/
  portMacAddress : BitVec 16 → Option EtherAddr := fun _ ↦ none

/-! ## What the pipeline asks of others -/

/-- What comes out of `ParsePacketOwned`.  A packet with metadata is the one that was
given or the one it completes; an incomplete fragment is in the hands of the fragment
table, and the caller's pointer is null. -/
inductive ParseResult (μ : Type) where
  | parsed (metadata : PacketMetadata) (packet : μ) (wasReassembled : Bool)
  | waitingForFragments
  | malformed (packet : μ)

/-- `DpiMatch`. -/
structure DpiMatch where
  filterGroup : String
  label : String
  priority : BitVec 32 := 0
deriving DecidableEq, Repr

/-- How the DPI table and its cache answer for a hostname. -/
structure DpiAnswer where
  cacheHit : Bool
  result : Option DpiMatch

/-- The components behind the pipeline. -/
structure Services (μ σ : Type) where
  /-- The libraries behind the rule table. -/
  dpdk : Dpdk
  parsePacketOwned : μ → BitVec 64 → σ → ParseResult μ × σ
  hashPacketFlow : μ → BitVec 16 → BitVec 32
  /-- What `Insert` reads from the clock and the slot `rte_hash` has for the key. -/
  insertChoice : FlowKey → σ → (BitVec 64 × Option Nat) × σ
  /-- `rte_pktmbuf_read` of some bytes at an offset. -/
  pktmbufRead : μ → (offset length : Nat) → Option (List (BitVec 8))
  /-- `tcp_reassembler->Insert`; `none` when reassembly is disabled. -/
  tcpReassembler :
    Option (PacketMetadata → List (BitVec 8) → BitVec 64 → σ → TcpReassemblyResult × σ)
  /-- `ExtractTlsSni` and `ExtractHttpHost` on reassembled bytes. -/
  extractTlsSni : List (BitVec 8) → Option (List (BitVec 8))
  extractHttpHost : List (BitVec 8) → Option (List (BitVec 8))
  /-- `ExtractHostname`: the hostname found in a single packet, if any. -/
  extractHostname : μ → PacketMetadata → Option (List (BitVec 8))
  /-- The lookup of a hostname in the active DPI table through the hostname cache. -/
  dpiLookup : List (BitVec 8) → σ → DpiAnswer × σ
  /-- `UpdateL3ForwardHeaders`, with the addresses of source and destination. -/
  updateL3ForwardHeaders : μ → EtherAddr → EtherAddr → Bool × μ
  /-- `UpdateL2ForwardMacs`. -/
  updateL2ForwardMacs : μ → EtherAddr → BitVec 16 → μ
  /-- `rte_ring_enqueue` to the ring of a worker, which may be full. -/
  ringEnqueue : Nat → μ → σ → Bool × σ

/-! ## What a burst changes -/

/-- `PacketClassification`. -/
structure PacketClassification where
  metadata : PacketMetadata := {}
  action : Action := .kForward
  parsed : Bool := false
  matched : Bool := false
  redispatch : Bool := false
deriving DecidableEq, Repr

/-- What a worker changes while it works on a burst.  The staging buffer of a port is the
list of packets in it, so that `transmit_counts` is its length. -/
structure BurstState (cap : Nat) (μ σ : Type) where
  flowTable : FlowTable cap
  counters : BurstCounters := {}
  transmitBuffers : BitVec 16 → List μ := fun _ ↦ []
  /-- The packets given to `rte_pktmbuf_free`, in order. -/
  freed : List μ := []
  world : σ

namespace BurstState

variable {cap : Nat} {μ σ : Type}

/-- Change the counters. -/
def count (st : BurstState cap μ σ) (f : BurstCounters → BurstCounters) : BurstState cap μ σ :=
  { st with counters := f st.counters }

@[simp] theorem count_flowTable (st : BurstState cap μ σ) (f : BurstCounters → BurstCounters) :
    (st.count f).flowTable = st.flowTable := rfl

@[simp] theorem count_transmitBuffers (st : BurstState cap μ σ)
    (f : BurstCounters → BurstCounters) :
    (st.count f).transmitBuffers = st.transmitBuffers := rfl

/-- `context.flow_table->Insert(key, 1, action)`. -/
def insertFlow (svc : Services μ σ) (key : FlowKey) (action : Action) (st : BurstState cap μ σ) :
    FlowInsertResult × BurstState cap μ σ :=
  let choice := svc.insertChoice key st.world
  let inserted := st.flowTable.insert key 1 action choice.1.1 choice.1.2
  (inserted.1, { st with flowTable := inserted.2, world := choice.2 })

@[simp] theorem insertFlow_transmitBuffers (svc : Services μ σ) (key : FlowKey) (action : Action)
    (st : BurstState cap μ σ) :
    (st.insertFlow svc key action).2.transmitBuffers = st.transmitBuffers := rfl

/-- `DropPacket`. -/
def dropPacket (packet : μ) (st : BurstState cap μ σ) : BurstState cap μ σ :=
  { st.count fun c ↦ { c with dropped := c.dropped + 1 } with freed := st.freed ++ [packet] }

/-- `EnqueuePacket`. -/
def enqueuePacket (packet : μ) (transmitPort : BitVec 16) (st : BurstState cap μ σ) :
    BurstState cap μ σ :=
  { st with
    transmitBuffers := Function.update st.transmitBuffers transmitPort
      (st.transmitBuffers transmitPort ++ [packet]) }

theorem enqueuePacket_self (packet : μ) (transmitPort : BitVec 16) (st : BurstState cap μ σ) :
    (st.enqueuePacket packet transmitPort).transmitBuffers transmitPort =
      st.transmitBuffers transmitPort ++ [packet] := Function.update_self ..

theorem enqueuePacket_of_ne (packet : μ) {transmitPort q : BitVec 16} (h : q ≠ transmitPort)
    (st : BurstState cap μ σ) :
    (st.enqueuePacket packet transmitPort).transmitBuffers q = st.transmitBuffers q :=
  Function.update_of_ne h ..

/-- Enqueueing is seen in the staging buffers. -/
theorem enqueuePacket_transmitBuffers_ne (packet : μ) (transmitPort : BitVec 16)
    (st : BurstState cap μ σ) :
    (st.enqueuePacket packet transmitPort).transmitBuffers ≠ st.transmitBuffers := by
  intro h
  have hport := congrFun h transmitPort
  rw [enqueuePacket_self] at hport
  exact List.cons_ne_nil _ _ (List.append_right_eq_self.mp hport)

end BurstState

end DpdkSpi
