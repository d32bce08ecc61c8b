import DpdkSpi.Packet.ClientHello

/-!
# The encoding of a ClientHello

A ClientHello record with a server name among its extensions, as a client writes it, and what
`ExtractTlsSni` makes of the record and of its prefixes.
-/

namespace DpdkSpi

open Lib

/-! ## Records -/

/-- Bytes whose number fits in a length field of so many bits. -/
structure Opaque (width : Nat) where
  bytes : List Byte
  fits : bytes.length < 2 ^ width

/-- A length in one byte, and the bytes. -/
def Opaque.prefixed8 (o : Opaque 8) : List Byte := BitVec.ofNat 8 o.bytes.length :: o.bytes

/-- A length in two bytes, and the bytes. -/
def Opaque.prefixed16 (o : Opaque 16) : List Byte :=
  be16 (BitVec.ofNat 16 o.bytes.length) ++ o.bytes

/-- An extension of a ClientHello. -/
structure TlsExtension where
  type : BitVec 16
  data : Opaque 16

/-- The bytes of an extension. -/
def TlsExtension.bytes (e : TlsExtension) : List Byte := be16 e.type ++ e.data.prefixed16

/-- The list of one host name in a server name extension. -/
def serverNameList (host : List Byte) : List Byte :=
  be16 (BitVec.ofNat 16 (3 + host.length)) ++
    ([0] ++ (be16 (BitVec.ofNat 16 host.length) ++ host))

/-- The bytes of a server name extension. -/
def serverNameBytes (host : List Byte) : List Byte :=
  be16 kSniExtensionType ++
    (be16 (BitVec.ofNat 16 (5 + host.length)) ++ serverNameList host)

/-- A ClientHello with a server name extension, and the version of the record around it. -/
structure ClientHello where
  recordMinor : Byte
  minor_pos : kTlsVersionMinorMin ≤ recordMinor
  version : BitVec 16
  random : Vector Byte 32
  sessionId : Opaque 8
  cipherSuites : Opaque 16
  compressionMethods : Opaque 8
  before : List TlsExtension
  before_type : ∀ e ∈ before, e.type ≠ kSniExtensionType
  host : List Byte
  host_ne : host ≠ []
  after : List TlsExtension
  fits : (before.flatMap TlsExtension.bytes ++
    (serverNameBytes host ++ after.flatMap TlsExtension.bytes)).length < 2 ^ 16

namespace ClientHello

variable (c : ClientHello)

/-- The extensions. -/
def extensions : Opaque 16 := ⟨_, c.fits⟩

/-- What stands behind the random. -/
def lists : List Byte :=
  c.sessionId.prefixed8 ++
    (c.cipherSuites.prefixed16 ++ (c.compressionMethods.prefixed8 ++ c.extensions.prefixed16))

/-- The body of the handshake message. -/
def body : List Byte := be16 c.version ++ (c.random.toList ++ c.lists)

/-- The handshake message, with its length in three bytes. -/
def handshake : List Byte :=
  kHandshakeClientHello :: ((be32 (BitVec.ofNat 32 c.body.length)).tail ++ c.body)

/-- The record. -/
def bytes : List Byte :=
  [kTlsContentTypeHandshake, kTlsVersionMajor, c.recordMinor] ++
    (be16 (BitVec.ofNat 16 c.handshake.length) ++ c.handshake)

/-- The place of the length of the extensions. -/
def extensionsPlace : Nat :=
  kClientHelloFixedLen + (1 + c.sessionId.bytes.length) + (2 + c.cipherSuites.bytes.length) +
    (1 + c.compressionMethods.bytes.length)

/-- The place of the server name extension. -/
def sniPlace : Nat := c.extensionsPlace + 2 + (c.before.flatMap TlsExtension.bytes).length

/-- The end of the host name. -/
def hostEnd : Nat := c.sniPlace + kSniHeaderLen + c.host.length

end ClientHello

/-! ## Reading what was written -/

theorem extractLsb'_append (x : BitVec 16) : x.extractLsb' 8 8 ++ x.extractLsb' 0 8 = x := by
  ext i hi
  simp only [BitVec.getElem_append, BitVec.getElem_extractLsb']
  grind

section Reading

variable {data rest : List Byte} {i w : Nat}

theorem byteAt_of_drop {b : Byte} (h : data.drop i = b :: rest) : byteAt data i = b := by
  have hget : data[i]? = some b := by
    rw [← Nat.add_zero i, ← List.getElem?_drop, h, List.getElem?_cons_zero]
  rw [byteAt, List.getD_eq_getElem?_getD, hget, Option.getD_some]

theorem wordAt_of_drop {x : BitVec 16} (h : data.drop i = be16 x ++ rest) : wordAt data i = x := by
  have hlow : data.drop (i + 1) = x.extractLsb' 0 8 :: rest :=
    drop_of_drop_append (show data.drop i = [x.extractLsb' 8 8] ++ _ from h)
  rw [wordAt, byteAt_of_drop h, byteAt_of_drop hlow]
  exact extractLsb'_append x

theorem byteAt_take (h : i < w) : byteAt (data.take w) i = byteAt data i :=
  Ipv4Packet.getD_take h

theorem wordAt_take (h : i + 2 ≤ w) : wordAt (data.take w) i = wordAt data i := by
  rw [wordAt, byteAt_take (by omega), byteAt_take (by omega), wordAt]

/-- A list with its length in one byte. -/
theorem drop_prefixed8 {o : Opaque 8} (h : data.drop i = o.prefixed8 ++ rest) :
    (byteAt data i).toNat = o.bytes.length ∧ data.drop (i + (1 + o.bytes.length)) = rest := by
  constructor
  · rw [byteAt_of_drop h, BitVec.toNat_ofNat, Nat.mod_eq_of_lt o.fits]
  · rw [Nat.add_comm 1]
    exact drop_of_drop_append h

/-- A list with its length in two bytes. -/
theorem drop_prefixed16 {o : Opaque 16} (h : data.drop i = o.prefixed16 ++ rest) :
    (wordAt data i).toNat = o.bytes.length ∧ data.drop (i + (2 + o.bytes.length)) = rest := by
  constructor
  · rw [Opaque.prefixed16, List.append_assoc] at h
    rw [wordAt_of_drop h, BitVec.toNat_ofNat, Nat.mod_eq_of_lt o.fits]
  · rw [Nat.add_comm 2]
    exact drop_of_drop_append h

end Reading

/-! ## The preamble -/

/-- Spans that agree as far as the preamble goes have the same one. -/
theorem preambleEnd_congr {data data' : List Byte} {w : Nat}
    (h : ∀ i < w, byteAt data' i = byteAt data i) (hle : preambleEnd data + 2 ≤ w) :
    preambleEnd data' = preambleEnd data := by
  have hfixed := lt_sessionIdEnd data
  have hciphers := sessionIdEnd_lt data
  have hcompression := ciphersEnd_lt data
  have hsession : sessionIdEnd data' = sessionIdEnd data := by
    rw [sessionIdEnd, h _ (by omega), sessionIdEnd]
  have hends : ciphersEnd data' = ciphersEnd data := by
    rw [ciphersEnd, hsession, wordAt, h _ (by omega), h _ (by omega), ciphersEnd, wordAt]
  rw [preambleEnd, hends, h _ (by omega), preambleEnd]

namespace ClientHello

variable (c : ClientHello)

theorem drop_lists : c.bytes.drop kClientHelloFixedLen = c.lists := by
  have hrandom : (c.random.toList ++ c.lists).drop 32 = c.lists :=
    List.drop_left' c.random.length_toList
  exact hrandom

/-- The preamble of the record, and what stands behind it. -/
theorem preamble_bytes :
    preambleEnd c.bytes = c.extensionsPlace ∧
      c.bytes.drop c.extensionsPlace = c.extensions.prefixed16 := by
  obtain ⟨hsession, hdrop⟩ := drop_prefixed8 c.drop_lists
  have hsessionEnd : sessionIdEnd c.bytes =
      kClientHelloFixedLen + (1 + c.sessionId.bytes.length) := by
    rw [sessionIdEnd, hsession]
  obtain ⟨hciphers, hdrop⟩ := drop_prefixed16 hdrop
  have hciphersEnd : ciphersEnd c.bytes = kClientHelloFixedLen + (1 + c.sessionId.bytes.length) +
      (2 + c.cipherSuites.bytes.length) := by
    rw [ciphersEnd, hsessionEnd, hciphers]
  obtain ⟨hcompression, hdrop⟩ := drop_prefixed8 hdrop
  refine ⟨?_, hdrop⟩
  rw [preambleEnd, hciphersEnd, hcompression, extensionsPlace]

/-- The extensions stand behind their length. -/
theorem drop_extensions :
    (wordAt c.bytes c.extensionsPlace).toNat = c.extensions.bytes.length ∧
      c.bytes.drop (c.extensionsPlace + 2) = c.extensions.bytes := by
  have hdrop : c.bytes.drop c.extensionsPlace = c.extensions.prefixed16 ++ [] := by
    rw [c.preamble_bytes.2, List.append_nil]
  exact ⟨(drop_prefixed16 hdrop).1, drop_of_drop_append c.preamble_bytes.2⟩

end ClientHello

/-! ## Extensions -/

section Extensions

variable {record rest : List Byte} {off w extEnd : Nat} {host : List Byte}

/-- What is read of an extension that is in the inspected part. -/
theorem extension_read {e : TlsExtension} (h : record.drop off = e.bytes ++ rest)
    (hw : off + 4 ≤ w) :
    wordAt (record.take w) off = e.type ∧
      nextExtension (record.take w) off = off + e.bytes.length := by
  rw [TlsExtension.bytes, List.append_assoc] at h
  have hdata := drop_of_drop_append h
  refine ⟨by rw [wordAt_take (by omega), wordAt_of_drop h], ?_⟩
  have hlength : (wordAt record (off + 2)).toNat = e.data.bytes.length := (drop_prefixed16 hdata).1
  rw [nextExtension, wordAt_take hw, hlength]
  show off + (4 + e.data.bytes.length) = off + (e.data.bytes.length + 4)
  omega

theorem length_serverNameBytes (host : List Byte) :
    (serverNameBytes host).length = kSniHeaderLen + host.length := by
  show host.length + 9 = 9 + host.length
  omega

/-- What is read of the header of a server name extension. -/
theorem serverName_read (h : record.drop off = serverNameBytes host ++ rest)
    (hhost : 5 + host.length < 2 ^ 16) (hw : off + 4 ≤ w) :
    wordAt (record.take w) off = kSniExtensionType ∧
      nextExtension (record.take w) off = off + (serverNameBytes host).length := by
  rw [serverNameBytes, List.append_assoc] at h
  have hdata := drop_of_drop_append h
  rw [List.append_assoc] at hdata
  have hlength : wordAt record (off + 2) = BitVec.ofNat 16 (5 + host.length) :=
    wordAt_of_drop hdata
  refine ⟨by rw [wordAt_take (by omega), wordAt_of_drop h], ?_⟩
  rw [nextExtension, wordAt_take hw, hlength, BitVec.toNat_ofNat, Nat.mod_eq_of_lt hhost,
    length_serverNameBytes, kSniHeaderLen]
  omega

/-- The length of the name in a server name extension. -/
theorem nameLength_read (h : record.drop off = serverNameBytes host ++ rest)
    (hw : off + kSniHeaderLen ≤ w) :
    nameLength (record.take w) off = BitVec.ofNat 16 host.length ∧
      record.drop (off + kSniHeaderLen) = host ++ rest := by
  have hname : record.drop (off + 7) = be16 (BitVec.ofNat 16 host.length) ++ (host ++ rest) := by
    rw [← List.drop_drop, h, ← List.append_assoc]
    rfl
  refine ⟨by rw [nameLength, wordAt_take hw, wordAt_of_drop hname], ?_⟩
  exact drop_of_drop_append hname

/-- A server name extension that is in the inspected part names its host. -/
theorem serverName_namesHost (h : record.drop off = serverNameBytes host ++ rest)
    (hhost : 5 + host.length < 2 ^ 16) (hne : host ≠ []) (hw : extEnd ≤ w)
    (hfits : off + kSniHeaderLen + host.length ≤ extEnd) :
    NamesHost (record.take w) extEnd off := by
  have hheader : off + 4 ≤ w := by unfold kSniHeaderLen at hfits; omega
  have hlength := (nameLength_read h (w := w) (by omega)).1
  have htoNat : (nameLength (record.take w) off).toNat = host.length := by
    rw [hlength, BitVec.toNat_ofNat, Nat.mod_eq_of_lt (by omega)]
  refine ⟨(serverName_read h hhost hheader).1, by rw [htoNat]; exact hfits, ?_⟩
  rw [BitVec.lt_def, htoNat]
  exact List.length_pos_of_ne_nil hne

/-- The extensions in front of the server name lead to it. -/
theorem extensionAt_serverName {before : List TlsExtension}
    (h : record.drop off = before.flatMap TlsExtension.bytes ++ (serverNameBytes host ++ rest))
    (hw : extEnd ≤ w)
    (hfits : off + (before.flatMap TlsExtension.bytes).length + 4 ≤ extEnd) :
    ExtensionAt (record.take w) extEnd off
      (off + (before.flatMap TlsExtension.bytes).length) := by
  induction before generalizing off with
  | nil => exact .here hfits
  | cons e before ih =>
      rw [List.flatMap_cons, List.length_append] at hfits
      rw [List.flatMap_cons, List.append_assoc] at h
      have hnext := (extension_read h (w := w) (by omega)).2
      have hplace := ih (drop_of_drop_append h) (by omega)
      refine .later (by omega) ?_
      rw [hnext, List.flatMap_cons, List.length_append, ← Nat.add_assoc]
      exact hplace

/-- A place that names a host is the server name, or it comes behind it and the server name is
whole. -/
theorem serverName_of_namesHost {before : List TlsExtension}
    (hbefore : ∀ e ∈ before, e.type ≠ kSniExtensionType)
    (h : record.drop off = before.flatMap TlsExtension.bytes ++ (serverNameBytes host ++ rest))
    (hhost : 5 + host.length < 2 ^ 16) (hw : extEnd ≤ w) {place : Nat}
    (hplace : ExtensionAt (record.take w) extEnd off place)
    (hnames : NamesHost (record.take w) extEnd place) :
    off + (before.flatMap TlsExtension.bytes).length ≤ place ∧
      (place = off + (before.flatMap TlsExtension.bytes).length ∨
        off + (before.flatMap TlsExtension.bytes).length + kSniHeaderLen + host.length ≤
          extEnd) := by
  induction before generalizing off with
  | nil =>
      cases hplace with
      | here _ => exact ⟨Nat.le_refl _, .inl rfl⟩
      | later hfits hplace =>
          have hnext := (serverName_read h hhost (Nat.le_trans hfits hw)).2
          have hle := hplace.le
          have hnamesFits := hnames.fits
          rw [hnext, length_serverNameBytes] at hle
          rw [List.flatMap_nil, List.length_nil]
          exact ⟨by omega, .inr (by omega)⟩
  | cons e before ih =>
      rw [List.flatMap_cons, List.append_assoc] at h
      cases hplace with
      | here hfits =>
          have htype := (extension_read h (Nat.le_trans hfits hw)).1
          exact absurd (htype.symm.trans hnames.type) (hbefore e List.mem_cons_self)
      | later hfits hplace =>
          have hnext := (extension_read h (Nat.le_trans hfits hw)).2
          rw [hnext] at hplace
          have hrest := ih (fun e he ↦ hbefore e (List.mem_cons_of_mem _ he))
            (drop_of_drop_append h) hplace
          rw [List.flatMap_cons, List.length_append, ← Nat.add_assoc]
          exact hrest

end Extensions

/-! ## Records and their prefixes -/

namespace ClientHello

variable (c : ClientHello) {w : Nat}

theorem isClientHello_take (hw : 6 ≤ w) : isClientHello (c.bytes.take w) = true := by
  have htype : byteAt (c.bytes.take w) 0 = kTlsContentTypeHandshake := byteAt_take (by omega)
  have hmajor : byteAt (c.bytes.take w) 1 = kTlsVersionMajor := byteAt_take (by omega)
  have hminor : byteAt (c.bytes.take w) 2 = c.recordMinor := byteAt_take (by omega)
  have hhandshake : byteAt (c.bytes.take w) kHandshakeTypeOffset = kHandshakeClientHello :=
    byteAt_take hw
  rw [isClientHello, isHandshakeRecord, htype, hmajor, hminor, hhandshake,
    decide_eq_true c.minor_pos]
  rfl

theorem extensions_bytes : c.extensions.bytes = c.before.flatMap TlsExtension.bytes ++
    (serverNameBytes c.host ++ c.after.flatMap TlsExtension.bytes) := rfl

theorem length_extensions : c.extensions.bytes.length =
    (c.before.flatMap TlsExtension.bytes).length + (kSniHeaderLen + c.host.length) +
      (c.after.flatMap TlsExtension.bytes).length := by
  rw [c.extensions_bytes, List.length_append, List.length_append, length_serverNameBytes,
    ← Nat.add_assoc]

theorem host_lt : 5 + c.host.length < 2 ^ 16 := by
  have hfits := c.extensions.fits
  rw [c.length_extensions, kSniHeaderLen] at hfits
  omega

theorem length_bytes : c.bytes.length = c.extensionsPlace + 2 + c.extensions.bytes.length := by
  have hdrop := congrArg List.length c.drop_extensions.2
  have hlength := c.length_extensions
  rw [List.length_drop] at hdrop
  unfold kSniHeaderLen at hlength
  omega

theorem hostEnd_le : c.hostEnd ≤ c.bytes.length := by
  rw [c.length_bytes, c.length_extensions, hostEnd, sniPlace]
  omega

/-- The preamble of a prefix, as far as it is read. -/
theorem preambleEnd_take (h : c.extensionsPlace + 2 ≤ w) :
    preambleEnd (c.bytes.take w) = c.extensionsPlace := by
  have hbytes := c.preamble_bytes.1
  rw [← hbytes]
  exact preambleEnd_congr (fun i hi ↦ byteAt_take hi) (by rw [hbytes]; exact h)

theorem preambleEnd_eq_of_le (h : preambleEnd (c.bytes.take w) + 2 ≤ w) :
    preambleEnd (c.bytes.take w) = c.extensionsPlace := by
  rw [← c.preamble_bytes.1]
  exact (preambleEnd_congr (fun i hi ↦ (byteAt_take hi).symm) h).symm

/-- The extensions of a prefix end where it ends. -/
theorem extensionsEnd_take (h : c.extensionsPlace + 2 ≤ w) :
    extensionsEnd (c.bytes.take w) = min w c.bytes.length := by
  rw [extensionsEnd, c.preambleEnd_take h, wordAt_take h, c.drop_extensions.1, List.length_take,
    c.length_bytes]
  omega

/-- The server name of a prefix that holds it. -/
theorem namedAt_sniPlace (hw : 6 ≤ w) (h : c.hostEnd ≤ w) :
    NamedAt (c.bytes.take w) c.sniPlace := by
  have hhostEnd : c.hostEnd = c.extensionsPlace + 2 +
      (c.before.flatMap TlsExtension.bytes).length + kSniHeaderLen + c.host.length := rfl
  have hplace : c.extensionsPlace + 2 ≤ w := by omega
  have hend : c.hostEnd ≤ extensionsEnd (c.bytes.take w) := by
    rw [c.extensionsEnd_take hplace]
    exact Nat.le_min.mpr ⟨h, c.hostEnd_le⟩
  have hle : extensionsEnd (c.bytes.take w) ≤ w := by
    rw [c.extensionsEnd_take hplace]
    exact Nat.min_le_left _ _
  have hsni : c.bytes.drop c.sniPlace =
      serverNameBytes c.host ++ c.after.flatMap TlsExtension.bytes :=
    drop_of_drop_append c.drop_extensions.2
  refine ⟨c.isClientHello_take hw, ?_, ?_, ?_⟩
  · have hbytes := c.hostEnd_le
    rw [c.preambleEnd_take hplace, List.length_take]
    omega
  · rw [c.preambleEnd_take hplace]
    refine extensionAt_serverName c.drop_extensions.2 hle ?_
    unfold kSniHeaderLen at hhostEnd
    omega
  · exact serverName_namesHost hsni c.host_lt c.host_ne hle hend

/-- No other place of a prefix names a host. -/
theorem eq_sniPlace_of_namedAt (hw : 6 ≤ w) {place : Nat} (h : NamedAt (c.bytes.take w) place)
    (hfirst : ∀ other, NamedAt (c.bytes.take w) other → place ≤ other) :
    place = c.sniPlace ∧ c.hostEnd ≤ w := by
  have hlength : (c.bytes.take w).length ≤ w := List.length_take_le _ _
  have hpreamble : preambleEnd (c.bytes.take w) = c.extensionsPlace :=
    c.preambleEnd_eq_of_le (Nat.le_trans h.preamble hlength)
  have hle : extensionsEnd (c.bytes.take w) ≤ w := Nat.le_trans (Nat.min_le_right _ _) hlength
  have hextension := h.extension
  rw [hpreamble] at hextension
  obtain ⟨hbehind, hcase⟩ := serverName_of_namesHost c.before_type c.drop_extensions.2 c.host_lt hle
    hextension h.names
  have hplace : place = c.sniPlace := by
    rcases hcase with hplace | hwhole
    · exact hplace
    · have hsni := hfirst c.sniPlace (c.namedAt_sniPlace hw (Nat.le_trans hwhole hle))
      exact Nat.le_antisymm hsni hbehind
  refine ⟨hplace, ?_⟩
  rcases hcase with rfl | hwhole
  · have hfits := h.names.fits
    have hsni : c.bytes.drop c.sniPlace =
        serverNameBytes c.host ++ c.after.flatMap TlsExtension.bytes :=
      drop_of_drop_append c.drop_extensions.2
    have hname := (nameLength_read (w := w) hsni (by rw [hplace] at hfits; omega)).1
    rw [hplace, hname, BitVec.toNat_ofNat, Nat.mod_eq_of_lt (by have := c.host_lt; omega)] at hfits
    exact Nat.le_trans hfits hle
  · exact Nat.le_trans hwhole hle

/-- What is found in a prefix: the host if the prefix holds it, and nothing otherwise. -/
theorem findTlsSni_take (hw : 6 ≤ w) :
    hostnameText (c.bytes.take w) (findTlsSni (c.bytes.take w)) =
      .ok (if c.hostEnd ≤ w then some c.host else none) := by
  have hlong : 6 ≤ (c.bytes.take w).length := by
    have hbytes := c.length_bytes
    have hplace : kClientHelloFixedLen ≤ c.extensionsPlace := by unfold extensionsPlace; omega
    unfold kClientHelloFixedLen at hplace
    rw [List.length_take]
    omega
  obtain ⟨found, hrun, hanswer⟩ := findTlsSni_answer hlong
  rw [hrun]
  cases hanswer with
  | none hnone =>
      rw [if_neg fun hend ↦ hnone _ (c.namedAt_sniPlace hw hend)]
      rfl
  | found place hplace hfirst =>
      obtain ⟨rfl, hend⟩ := c.eq_sniPlace_of_namedAt hw hplace hfirst
      have hsni : c.bytes.drop c.sniPlace =
          serverNameBytes c.host ++ c.after.flatMap TlsExtension.bytes :=
        drop_of_drop_append c.drop_extensions.2
      obtain ⟨hlength, hdrop⟩ := nameLength_read (w := w) hsni
        (Nat.le_trans (Nat.le_add_right _ _) hend)
      have hhost := c.host_lt
      have htext : (hostAt (c.bytes.take w) c.sniPlace).bytes (c.bytes.take w) = c.host := by
        show ((c.bytes.take w).drop (c.sniPlace + kSniHeaderLen)).take
          (nameLength (c.bytes.take w) c.sniPlace).toNat = c.host
        rw [hlength, BitVec.toNat_ofNat, Nat.mod_eq_of_lt (by omega), List.drop_take, hdrop,
          List.take_take, Nat.min_eq_left (by unfold hostEnd at hend; omega), List.take_left]
      rw [if_pos hend, ← htext]
      rfl

/-- The extractor reads the host back from the record, and from a prefix it reads the host or
nothing. -/
theorem tlsSniText_bytes (hend : c.hostEnd ≤ kMaxTlsInspect) :
    tlsSniText c.bytes = .ok (some c.host) ∧
      ∀ front, front <+: c.bytes → 6 ≤ front.length →
        tlsSniText front = .ok none ∨ tlsSniText front = .ok (some c.host) := by
  constructor
  · rw [tlsSniText, extractTlsSni, c.findTlsSni_take (by decide), if_pos hend]
  · intro front hfront hlength
    rw [List.prefix_iff_eq_take] at hfront
    have hwindow : front.take kMaxTlsInspect =
        c.bytes.take (min kMaxTlsInspect front.length) := by
      rw [← List.take_take, ← hfront]
    have hsix : 6 ≤ min kMaxTlsInspect front.length := Nat.le_min.mpr ⟨by decide, hlength⟩
    rw [tlsSniText, extractTlsSni, hwindow, c.findTlsSni_take hsix]
    by_cases hhost : c.hostEnd ≤ min kMaxTlsInspect front.length
    · exact .inr (by rw [if_pos hhost])
    · exact .inl (by rw [if_neg hhost])

/-- A ClientHello of TLS 1.2 for one host, with supported groups in front of its name. -/
def small : ClientHello where
  recordMinor := 1
  minor_pos := by decide
  version := 0x0303
  random := Vector.replicate 32 0
  sessionId := ⟨[], by decide⟩
  cipherSuites := ⟨[0x13, 0x01], by decide⟩
  compressionMethods := ⟨[0], by decide⟩
  before := [⟨10, ⟨[0, 2, 0, 0x1D], by decide⟩⟩]
  before_type := by decide
  host := asciiBytes "b.c"
  host_ne := by decide
  after := []
  fits := by decide

theorem tlsSniText_small : tlsSniText small.bytes = .ok (some (asciiBytes "b.c")) :=
  (small.tlsSniText_bytes (by decide)).1

end ClientHello

end DpdkSpi
