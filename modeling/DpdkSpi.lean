import DpdkSpi.Lib.System
import DpdkSpi.Lib.SlotMap
import DpdkSpi.Types
import DpdkSpi.Flow.Key
import DpdkSpi.Flow.Table
import DpdkSpi.Flow.Purge
import DpdkSpi.Flow.Ownership
import DpdkSpi.Flow.Expiry
import DpdkSpi.Flow.Resize
import DpdkSpi.Lib.OpenAddressing
import DpdkSpi.Rule.Acl
import DpdkSpi.Rule.Table
import DpdkSpi.Rule.Bulk
import DpdkSpi.Rule.Move
import DpdkSpi.Config
import DpdkSpi.IpAddress
import DpdkSpi.Lib.Registry
import DpdkSpi.Rule.Parse
import DpdkSpi.Rule.Compile
import DpdkSpi.Rule.Contexts
import DpdkSpi.Rule.Precedence
import DpdkSpi.Rule.Names
import DpdkSpi.Reload.Isolation
import DpdkSpi.Reload.Barrier
import DpdkSpi.Pipeline.Context
import DpdkSpi.Pipeline.Forward
import DpdkSpi.Pipeline.Classify
import DpdkSpi.Pipeline.Burst
import DpdkSpi.Pipeline.Drop
import DpdkSpi.Tcp.Segment
import DpdkSpi.Tcp.Streams
import DpdkSpi.Tcp.Bounds
import DpdkSpi.Lib.Slice
import DpdkSpi.Tcp.Slices
import DpdkSpi.Tcp.Overlap
import DpdkSpi.Tcp.Rejection
import DpdkSpi.Lib.Pieces
import DpdkSpi.Tcp.Single
import DpdkSpi.Tcp.Order
import DpdkSpi.Tcp.Segmentation
import DpdkSpi.Tcp.Progress
import DpdkSpi.Tcp.Interleave
import DpdkSpi.Reload.Publish
import DpdkSpi.Flow.Identity
import DpdkSpi.Flow.Concurrent
import DpdkSpi.Pipeline.Counters
import DpdkSpi.Pipeline.Environment
import DpdkSpi.Pipeline.Lookup
import DpdkSpi.Pipeline.Pairing
import DpdkSpi.Pipeline.Staging
import DpdkSpi.Pipeline.Flush
import DpdkSpi.Pipeline.Coupling
import DpdkSpi.Pipeline.Spi
import DpdkSpi.Pipeline.Modes
import DpdkSpi.Pipeline.Batching
import DpdkSpi.Packet.Mbuf
import DpdkSpi.Packet.Parser
import DpdkSpi.Packet.Rewrite
import DpdkSpi.Pipeline.Mbufs
import DpdkSpi.Packet.Fragments
import DpdkSpi.Pipeline.Undecided
import DpdkSpi.Dpi.Pattern
import DpdkSpi.Lib.Sorting
import DpdkSpi.Dpi.Match
import DpdkSpi.Dpi.Fallback
import DpdkSpi.Dpi.Reload
import DpdkSpi.Dpi.Generations
import DpdkSpi.Dpi.Cached
import DpdkSpi.Lib.Choice
import DpdkSpi.Rule.Shortcut
import DpdkSpi.Packet.FlowHash
import DpdkSpi.Pipeline.Affinity
import DpdkSpi.Lib.Reader
import DpdkSpi.Packet.Extract
import DpdkSpi.Packet.ClientHello
import DpdkSpi.Packet.ServerName
import DpdkSpi.Packet.HttpHost
import DpdkSpi.Packet.HttpRequest
import DpdkSpi.Pipeline.Hostname
import DpdkSpi.Pipeline.Recognise
import DpdkSpi.Rule.Encoding
import DpdkSpi.Rule.Exact
import DpdkSpi.Rule.Report
import DpdkSpi.Rule.Ipv6
import DpdkSpi.Dpi.Negative
import DpdkSpi.Lib.Loop
import DpdkSpi.Pipeline.Chunks
import DpdkSpi.Pipeline.Routes
import DpdkSpi.Lib.Prefix
import DpdkSpi.Packet.Layer4
import DpdkSpi.Rule.Meaning
import DpdkSpi.Lib.Quote
import DpdkSpi.Confd.Yaml
import DpdkSpi.Lib.Memory
import DpdkSpi.Packet.Forwarded
import DpdkSpi.Pipeline.Hop
import DpdkSpi.Lib.Iterate
import DpdkSpi.Replay.Reader
import DpdkSpi.Replay.Loop
import DpdkSpi.Replay.Budget
import DpdkSpi.Replay.Rate
import DpdkSpi.Dpi.Literal
import DpdkSpi.Dpi.Indexes
import DpdkSpi.Rule.Probe
import DpdkSpi.Tcp.Direction
import DpdkSpi.Lib.FoldHash
import DpdkSpi.Tcp.StreamHash
import DpdkSpi.Lib.Calls
import DpdkSpi.Lib.Files
import DpdkSpi.Lib.Text
import DpdkSpi.Confd.Calls
import DpdkSpi.Confd.Document
import DpdkSpi.Confd.Emit
import DpdkSpi.Confd.Publish
import DpdkSpi.Confd.Reload
import DpdkSpi.Pipeline.Dispatch
import DpdkSpi.Process.Calls
import DpdkSpi.Process.Ports
import DpdkSpi.Process.Setup
import DpdkSpi.Process.Workers
import DpdkSpi.Process.Life
import DpdkSpi.Process.Orphans
