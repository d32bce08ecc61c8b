import DpdkSpi.Lib.Reader
import DpdkSpi.Packet.Mbuf
import DpdkSpi.Tcp.Reassembly

/-!
# Hostname extraction

`ExtractTlsSni` and `ExtractHttpHost` with their helpers, after `spi_packet_parser.cpp`.  Both
inspect a window of the payload, a span that they read by index; every index is checked here, so
that a run without a fault stays in the window.  Offsets stay below the size of a window and a
few 16-bit lengths, so that they are natural numbers.
-/

namespace DpdkSpi

open Lib

/-! ## Results -/

/-- A hostname in a span: where it starts and how long it is. -/
structure HostnameRange where
  first : Nat
  second : BitVec 16
deriving DecidableEq, Repr

/-- The characters of a hostname. -/
def HostnameRange.bytes (r : HostnameRange) (data : List Byte) : List Byte :=
  (data.drop r.first).take r.second.toNat

/-- A hostname inside a span. -/
def HostnameRange.Within (r : HostnameRange) (data : List Byte) : Prop :=
  r.first + r.second.toNat ≤ data.length

/-- `ReadUint16Be`. -/
def readUint16Be (data : List Byte) (offset : Nat) : Except Fault (BitVec 16) := do
  let high ← readAt data offset
  let low ← readAt data (offset + 1)
  pure (high ++ low)

/-! ## TLS ClientHello -/

/-- `kTlsContentTypeHandshake`. -/
def kTlsContentTypeHandshake : Byte := 0x16

/-- `kTlsVersionMajor`. -/
def kTlsVersionMajor : Byte := 0x03

/-- `kTlsVersionMinorMin`. -/
def kTlsVersionMinorMin : Byte := 0x01

/-- `kHandshakeClientHello`. -/
def kHandshakeClientHello : Byte := 0x01

/-- `kHandshakeTypeOffset`. -/
def kHandshakeTypeOffset : Nat := 5

/-- `ValidateTlsRecordHeader`. -/
def validateTlsRecordHeader (data : List Byte) : Except Fault Bool := do
  let contentType ← readAt data 0
  if contentType ≠ kTlsContentTypeHandshake then pure false
  else
    let major ← readAt data 1
    let tooOld ←
      if major < kTlsVersionMajor then pure true
      else if major = kTlsVersionMajor then do
        let minor ← readAt data 2
        pure (decide (minor < kTlsVersionMinorMin))
      else pure false
    if tooOld then pure false
    else
      let handshakeType ← readAt data kHandshakeTypeOffset
      pure (decide (handshakeType = kHandshakeClientHello))

/-- `kClientHelloFixedLen`: the record and handshake headers, the version and the random. -/
def kClientHelloFixedLen : Nat := 9 + 2 + 32

/-- `WalkClientHelloPreamble`. -/
def walkClientHelloPreamble (data : List Byte) : Except Fault (Option Nat) :=
  let off := kClientHelloFixedLen
  if data.length ≤ off then pure none
  else do
    let sessionIdLen ← readAt data off
    let off := off + (1 + sessionIdLen.toNat)
    if data.length < off + 2 then pure none
    else
      let cipherLen ← readUint16Be data off
      let off := off + (2 + cipherLen.toNat)
      if data.length < off + 1 then pure none
      else
        let compLen ← readAt data off
        let off := off + (1 + compLen.toNat)
        if data.length < off + 2 then pure none else pure (some off)

/-- `kSniExtensionType`. -/
def kSniExtensionType : BitVec 16 := 0x0000

/-- `kSniHeaderLen`. -/
def kSniHeaderLen : Nat := 9

/-- The hostname of an extension, if it is a server name and fits. -/
def sniHostname (data : List Byte) (extEnd extOffset : Nat) (extType : BitVec 16) :
    Except Fault (Option HostnameRange) :=
  if extType = kSniExtensionType ∧ extOffset + kSniHeaderLen ≤ extEnd then do
    let nameLen ← readUint16Be data (extOffset + 7)
    if extOffset + kSniHeaderLen + nameLen.toNat ≤ extEnd ∧ 0 < nameLen then
      pure (some ⟨extOffset + kSniHeaderLen, nameLen⟩)
    else pure none
  else pure none

/-- The loop of `FindSniExtension`. -/
def findSniLoop (data : List Byte) (extEnd : Nat) : (fuel extOffset : Nat) →
    Except Fault (Option HostnameRange)
  | 0, _ => .error .outOfFuel
  | fuel + 1, extOffset =>
      if extOffset + 4 ≤ extEnd then do
        let extType ← readUint16Be data extOffset
        let extDataLen ← readUint16Be data (extOffset + 2)
        match ← sniHostname data extEnd extOffset extType with
        | some hostname => pure (some hostname)
        | none => findSniLoop data extEnd fuel (extOffset + (4 + extDataLen.toNat))
      else pure none

/-- `FindSniExtension`.  A round of the loop goes on by four bytes at least, so that the size of
the span is fuel enough. -/
def findSniExtension (data : List Byte) (extOffset : Nat) :
    Except Fault (Option HostnameRange) := do
  let extLen ← readUint16Be data extOffset
  let extOffset := extOffset + 2
  findSniLoop data (min (extOffset + extLen.toNat) data.length) (data.length + 1) extOffset

/-! ## HTTP Host -/

/-- The first four bytes of the methods that `IsHttpMethodValid` knows. -/
def httpMethodPrefixes : List (List Byte) :=
  ["GET ", "POST", "HEAD", "PUT ", "DELE", "PATC", "OPTI"].map asciiBytes

/-- `IsHttpMethodValid`. -/
def isHttpMethodValid (data : List Byte) : Except Fault Bool :=
  httpMethodPrefixes.anyM (matchesAt data 0)

/-- `kMinScanStart`. -/
def kMinScanStart : Nat := 4

/-- `kHostPatternLen`. -/
def kHostPatternLen : Nat := 7

/-- The carriage return. -/
def carriageReturn : Byte := 0x0D

/-- The line feed. -/
def lineFeed : Byte := 0x0A

/-- The space. -/
def space : Byte := 0x20

/-- The end of a line. -/
def crlf : List Byte := [carriageReturn, lineFeed]

/-- The name of the header, with its colon. -/
def hostField : List Byte := asciiBytes "Host:"

/-- The end of a line and the start of a Host header. -/
def hostPattern : List Byte := crlf ++ hostField

/-- The body of the loop of `FindHostHeaderValue`. -/
def hostHeaderValueAt (data : List Byte) (i : Nat) : Except Fault (Option HostnameRange) := do
  if ← matchesAt data i hostPattern then
    let hostStart ← skipWhile (· = space) data (data.length + 1) (i + kHostPatternLen)
    let hostOff ← skipWhile (· ≠ carriageReturn) data (data.length + 1) hostStart
    if hostStart < hostOff then pure (some ⟨hostStart, BitVec.ofNat 16 (hostOff - hostStart)⟩)
    else pure none
  else pure none

/-- `FindHostHeaderValue`. -/
def findHostHeaderValue (data : List Byte) : Except Fault (Option HostnameRange) :=
  scanFrom (hostHeaderValueAt data) (data.length - kHostPatternLen) (data.length + 1) kMinScanStart

/-! ## Both, on a span and on a packet -/

/-- `kMaxTlsInspect`. -/
def kMaxTlsInspect : Nat := 512

/-- `kMinTlsRecord`. -/
def kMinTlsRecord : Nat := 5

/-- `kMaxHttpInspect`. -/
def kMaxHttpInspect : Nat := 256

/-- `kMinHttpLen`. -/
def kMinHttpLen : Nat := 4

/-- The text of a hostname that was found in a span. -/
def hostnameText (data : List Byte) (found : Except Fault (Option HostnameRange)) :
    Except Fault (Option (List Byte)) :=
  found.map (Option.map fun hostname ↦ hostname.bytes data)

/-- What both `ExtractTlsSni` do with the bytes they inspect. -/
def findTlsSni (data : List Byte) : Except Fault (Option HostnameRange) :=
  if data.length < kMinTlsRecord then pure none
  else do
    if ← validateTlsRecordHeader data then
      match ← walkClientHelloPreamble data with
      | none => pure none
      | some extOffset => findSniExtension data extOffset
    else pure none

/-- What both `ExtractHttpHost` do with the bytes they inspect. -/
def findHttpHost (data : List Byte) : Except Fault (Option HostnameRange) :=
  if data.length < kMinHttpLen then pure none
  else do
    if ← isHttpMethodValid data then findHostHeaderValue data else pure none

/-- `ExtractTlsSni` of a span. -/
def extractTlsSni (payload : List Byte) : Except Fault (Option HostnameRange) :=
  findTlsSni (payload.take kMaxTlsInspect)

/-- `ExtractHttpHost` of a span. -/
def extractHttpHost (payload : List Byte) : Except Fault (Option HostnameRange) :=
  findHttpHost (payload.take kMaxHttpInspect)

/-- The text that `ExtractTlsSni` of a span returns. -/
def tlsSniText (payload : List Byte) : Except Fault (Option (List Byte)) :=
  hostnameText (payload.take kMaxTlsInspect) (extractTlsSni payload)

/-- The text that `ExtractHttpHost` of a span returns. -/
def httpHostText (payload : List Byte) : Except Fault (Option (List Byte)) :=
  hostnameText (payload.take kMaxHttpInspect) (extractHttpHost payload)

/-- The bytes that an extractor inspects in a packet.  The difference of `data_len` and the offset
is taken in 32 bits. -/
def readPayload (packet : Mbuf) (tcpPayloadOffset : BitVec 32) (maxInspect : Nat) :
    Option (List Byte) :=
  let available := BitVec.ofNat 32 packet.dataLen - tcpPayloadOffset
  rtePktmbufRead packet tcpPayloadOffset.toNat (min available.toNat maxInspect)

end DpdkSpi
