import DpdkSpi.Config
import DpdkSpi.Lib.FoldHash

/-!
# Stream keys

The key under which `TcpStreamReassembler` keeps the stream of a connection, and its hash, after
`spi_tcp_reassembly.cpp`.  `StreamKeyHash` hashes the object bytes of a key.  Two endpoints of
eighteen bytes and the byte of the version make thirty-seven, and an object is aligned to two
bytes: there is a byte of padding behind the version, which the comparison of keys leaves out.
-/

namespace DpdkSpi

open Lib

/-- A byte of a payload. -/
abbrev Byte := BitVec 8

/-! ## Keys -/

/-- `Endpoint`. -/
structure Endpoint where
  address : Ip6Address := Vector.replicate 16 0
  port : BitVec 16 := 0
deriving DecidableEq, Repr

/-- `StreamKey`. -/
structure StreamKey where
  first : Endpoint := {}
  second : Endpoint := {}
  version : IpVersion := .kIpv4
deriving DecidableEq, Repr

/-! ## Object bytes -/

/-- The byte of an enumerator. -/
def IpVersion.code : IpVersion → Byte
  | .kIpv4 => 4
  | .kIpv6 => 6

/-- The object bytes of an endpoint on a little-endian host. -/
def Endpoint.objectBytes (e : Endpoint) : List Byte :=
  e.address.toList ++ [e.port.extractLsb' 0 8, e.port.extractLsb' 8 8]

/-- A `StreamKey` in memory: its members, which the defaulted `operator==` compares, and the byte
of padding behind them, which it does not compare. -/
structure StreamKeyObject where
  key : StreamKey
  padding : Byte
deriving DecidableEq, Repr

namespace StreamKeyObject

/-- The object bytes of a key. -/
def objectBytes (o : StreamKeyObject) : List Byte :=
  o.key.first.objectBytes ++ o.key.second.objectBytes ++ [o.key.version.code, o.padding]

/-- `sizeof(StreamKey)`. -/
theorem length_objectBytes (o : StreamKeyObject) : o.objectBytes.length = 38 := by
  simp [objectBytes, Endpoint.objectBytes]

end StreamKeyObject

/-! ## The hash -/

/-- `kOffset`. -/
def kOffset : BitVec 64 := 1469598103934665603

/-- `kPrime`. -/
def kPrime : BitVec 64 := 1099511628211

/-- `StreamKeyHash`. -/
def streamKeyHash (o : StreamKeyObject) : BitVec 64 :=
  o.objectBytes.foldl (fnvStep kPrime) kOffset

end DpdkSpi
