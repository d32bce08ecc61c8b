import DpdkSpi.Packet.Extract
import DpdkSpi.Packet.Wire

/-!
# Server names in a ClientHello

What `ExtractTlsSni` computes: the end of the preamble in closed form, and the extensions as the
places that a chain of lengths visits.
-/

namespace DpdkSpi

open Lib

/-- A byte of a span, zero behind its end. -/
def byteAt (data : List Byte) (i : Nat) : Byte := data.getD i 0

/-- A 16-bit number of a span in network byte order. -/
def wordAt (data : List Byte) (i : Nat) : BitVec 16 := byteAt data i ++ byteAt data (i + 1)

variable {data : List Byte}

theorem readByte_eq {i : Nat} (h : i < data.length) : readAt data i = .ok (byteAt data i) :=
  readAt_eq_getD 0 h

theorem readUint16Be_eq {i : Nat} (h : i + 2 ≤ data.length) :
    readUint16Be data i = .ok (wordAt data i) := by
  rw [readUint16Be, readByte_eq (by omega), ok_bind, readByte_eq (by omega)]
  rfl

/-! ## The record header -/

/-- The bytes of a handshake record of an accepted version. -/
def isHandshakeRecord (data : List Byte) : Bool :=
  byteAt data 0 = kTlsContentTypeHandshake &&
    (kTlsVersionMajor < byteAt data 1 ||
      byteAt data 1 = kTlsVersionMajor && kTlsVersionMinorMin ≤ byteAt data 2)

/-- After a handshake record of an accepted version the type of the handshake is read. -/
theorem validateTlsRecordHeader_eq (h : 3 ≤ data.length) :
    validateTlsRecordHeader data =
      if isHandshakeRecord data then do
        let handshakeType ← readAt data kHandshakeTypeOffset
        pure (decide (handshakeType = kHandshakeClientHello))
      else pure false := by
  unfold validateTlsRecordHeader
  rw [readByte_eq (by omega), ok_bind]
  by_cases htype : byteAt data 0 = kTlsContentTypeHandshake
  · rw [if_neg (not_not_intro htype), readByte_eq (by omega), ok_bind, isHandshakeRecord,
      decide_eq_true htype, Bool.true_and]
    by_cases hless : byteAt data 1 < kTlsVersionMajor
    · have hgreater : ¬ kTlsVersionMajor < byteAt data 1 :=
        BitVec.not_lt.mpr (BitVec.le_of_lt hless)
      have hne : byteAt data 1 ≠ kTlsVersionMajor := BitVec.ne_of_lt hless
      rw [if_pos hless, decide_eq_false hgreater, decide_eq_false hne]
      rfl
    · by_cases heq : byteAt data 1 = kTlsVersionMajor
      · rw [if_neg hless, if_pos heq, readByte_eq (by omega), ok_bind, heq]
        by_cases hminor : byteAt data 2 < kTlsVersionMinorMin
        · rw [decide_eq_false (BitVec.not_le.mpr hminor), decide_eq_true hminor]
          rfl
        · rw [decide_eq_true (BitVec.not_lt.mp hminor), decide_eq_false hminor]
          rfl
      · have hgreater : kTlsVersionMajor < byteAt data 1 :=
          BitVec.lt_of_le_ne (BitVec.not_lt.mp hless) (Ne.symm heq)
        rw [if_neg hless, if_neg heq, decide_eq_true hgreater]
        rfl
  · rw [if_pos htype, isHandshakeRecord, decide_eq_false htype]
    rfl

/-- A ClientHello in a handshake record of an accepted version. -/
def isClientHello (data : List Byte) : Bool :=
  isHandshakeRecord data && byteAt data kHandshakeTypeOffset = kHandshakeClientHello

theorem validateTlsRecordHeader_of_le (h : 6 ≤ data.length) :
    validateTlsRecordHeader data = .ok (isClientHello data) := by
  have hread : readAt data kHandshakeTypeOffset = .ok (byteAt data kHandshakeTypeOffset) :=
    readByte_eq h
  rw [validateTlsRecordHeader_eq (by omega), hread, ok_bind, isClientHello]
  cases isHandshakeRecord data with
  | true => rfl
  | false => rfl

/-! ## The preamble -/

/-- The end of the session id. -/
def sessionIdEnd (data : List Byte) : Nat :=
  kClientHelloFixedLen + (1 + (byteAt data kClientHelloFixedLen).toNat)

/-- The end of the cipher suites. -/
def ciphersEnd (data : List Byte) : Nat :=
  sessionIdEnd data + (2 + (wordAt data (sessionIdEnd data)).toNat)

/-- The end of the compression methods, where the length of the extensions stands. -/
def preambleEnd (data : List Byte) : Nat :=
  ciphersEnd data + (1 + (byteAt data (ciphersEnd data)).toNat)

theorem lt_sessionIdEnd (data : List Byte) : kClientHelloFixedLen < sessionIdEnd data :=
  Nat.lt_add_of_pos_right (by omega)

theorem sessionIdEnd_lt (data : List Byte) : sessionIdEnd data + 2 ≤ ciphersEnd data := by
  unfold ciphersEnd
  omega

theorem ciphersEnd_lt (data : List Byte) : ciphersEnd data < preambleEnd data :=
  Nat.lt_add_of_pos_right (by omega)

/-- The walk gets to the end of the preamble if the length of the extensions is in the span. -/
theorem walkClientHelloPreamble_eq (data : List Byte) :
    walkClientHelloPreamble data =
      .ok (if preambleEnd data + 2 ≤ data.length then some (preambleEnd data) else none) := by
  have hsession := lt_sessionIdEnd data
  have hciphers := sessionIdEnd_lt data
  have hcompression := ciphersEnd_lt data
  unfold walkClientHelloPreamble
  by_cases hfixed : data.length ≤ kClientHelloFixedLen
  · rw [if_pos hfixed, if_neg (by omega)]
    rfl
  rw [if_neg hfixed, readByte_eq (Nat.lt_of_not_le hfixed), ok_bind]
  show (if data.length < sessionIdEnd data + 2 then _ else
    readUint16Be data (sessionIdEnd data) >>= _) = _
  by_cases hlength : data.length < sessionIdEnd data + 2
  · rw [if_pos hlength, if_neg (by omega)]
    rfl
  rw [if_neg hlength, readUint16Be_eq (Nat.le_of_not_lt hlength), ok_bind]
  show (if data.length < ciphersEnd data + 1 then _ else readAt data (ciphersEnd data) >>= _) = _
  by_cases hlength : data.length < ciphersEnd data + 1
  · rw [if_pos hlength, if_neg (by omega)]
    rfl
  rw [if_neg hlength, readByte_eq (Nat.le_of_not_lt hlength), ok_bind]
  show (if data.length < preambleEnd data + 2 then _ else _) = _
  by_cases hlength : data.length < preambleEnd data + 2
  · rw [if_pos hlength, if_neg (Nat.not_le_of_lt hlength)]
    rfl
  · rw [if_neg hlength, if_pos (Nat.le_of_not_lt hlength)]
    rfl

/-! ## Extensions -/

/-- The length of the name in a server name extension. -/
def nameLength (data : List Byte) (extOffset : Nat) : BitVec 16 := wordAt data (extOffset + 7)

/-- An extension that names a host and fits. -/
structure NamesHost (data : List Byte) (extEnd extOffset : Nat) : Prop where
  type : wordAt data extOffset = kSniExtensionType
  fits : extOffset + kSniHeaderLen + (nameLength data extOffset).toNat ≤ extEnd
  pos : 0 < nameLength data extOffset

/-- The name in a server name extension. -/
def hostAt (data : List Byte) (extOffset : Nat) : HostnameRange :=
  ⟨extOffset + kSniHeaderLen, nameLength data extOffset⟩

/-- The place behind an extension. -/
def nextExtension (data : List Byte) (extOffset : Nat) : Nat :=
  extOffset + (4 + (wordAt data (extOffset + 2)).toNat)

theorem lt_nextExtension (data : List Byte) (extOffset : Nat) :
    extOffset < nextExtension data extOffset := Nat.lt_add_of_pos_right (by omega)

section Loop

variable {extEnd extOffset fuel : Nat}

theorem sniHostname_of_namesHost (hend : extEnd ≤ data.length)
    (h : NamesHost data extEnd extOffset) :
    sniHostname data extEnd extOffset (wordAt data extOffset) =
      .ok (some (hostAt data extOffset)) := by
  have hfits : extOffset + kSniHeaderLen ≤ extEnd := Nat.le_trans (Nat.le_add_right _ _) h.fits
  have hread : extOffset + 7 + 2 ≤ data.length := Nat.le_trans hfits hend
  rw [sniHostname, if_pos ⟨h.type, hfits⟩, readUint16Be_eq hread, ok_bind]
  exact if_pos ⟨h.fits, h.pos⟩

theorem sniHostname_of_not_namesHost (hend : extEnd ≤ data.length)
    (h : ¬ NamesHost data extEnd extOffset) :
    sniHostname data extEnd extOffset (wordAt data extOffset) = .ok none := by
  unfold sniHostname
  by_cases hheader : wordAt data extOffset = kSniExtensionType ∧ extOffset + kSniHeaderLen ≤ extEnd
  · have hread : extOffset + 7 + 2 ≤ data.length := Nat.le_trans hheader.2 hend
    rw [if_pos hheader, readUint16Be_eq hread, ok_bind]
    exact if_neg fun hname ↦ h ⟨hheader.1, hname.1, hname.2⟩
  · rw [if_neg hheader]
    rfl

/-- The loop stops behind the last extension. -/
theorem findSniLoop_stop (h : extEnd < extOffset + 4) :
    findSniLoop data extEnd (fuel + 1) extOffset = .ok none := by
  rw [findSniLoop, if_neg (Nat.not_le_of_lt h)]
  rfl

theorem findSniLoop_found (hend : extEnd ≤ data.length) (h : NamesHost data extEnd extOffset) :
    findSniLoop data extEnd (fuel + 1) extOffset = .ok (some (hostAt data extOffset)) := by
  have hfits : extOffset + 4 ≤ extEnd := by
    have hfits := h.fits
    unfold kSniHeaderLen at hfits
    omega
  rw [findSniLoop, if_pos hfits, readUint16Be_eq (by omega), ok_bind,
    readUint16Be_eq (by omega), ok_bind, sniHostname_of_namesHost hend h, ok_bind]
  rfl

theorem findSniLoop_next (hend : extEnd ≤ data.length) (hfits : extOffset + 4 ≤ extEnd)
    (h : ¬ NamesHost data extEnd extOffset) :
    findSniLoop data extEnd (fuel + 1) extOffset =
      findSniLoop data extEnd fuel (nextExtension data extOffset) := by
  rw [findSniLoop, if_pos hfits, readUint16Be_eq (by omega), ok_bind,
    readUint16Be_eq (by omega), ok_bind, sniHostname_of_not_namesHost hend h, ok_bind]
  rfl

end Loop

/-- The extensions from a place on. -/
inductive ExtensionAt (data : List Byte) (extEnd : Nat) : (first place : Nat) → Prop
  | here {first : Nat} (hfits : first + 4 ≤ extEnd) : ExtensionAt data extEnd first first
  | later {first place : Nat} (hfits : first + 4 ≤ extEnd)
      (h : ExtensionAt data extEnd (nextExtension data first) place) :
      ExtensionAt data extEnd first place

theorem ExtensionAt.le {extEnd first place : Nat} (h : ExtensionAt data extEnd first place) :
    first ≤ place := by
  induction h with
  | here _ => exact Nat.le_refl _
  | later _ _ ih => exact Nat.le_trans (Nat.le_of_lt (lt_nextExtension data _)) ih

/-- The loop ends, and it answers with a name iff there is one. -/
theorem findSniLoop_answer {extEnd first fuel : Nat} (hend : extEnd ≤ data.length)
    (hfuel : extEnd - first < fuel) :
    ∃ found, findSniLoop data extEnd fuel first = .ok found ∧
      FirstAnswer (fun place ↦ ExtensionAt data extEnd first place ∧ NamesHost data extEnd place)
        (hostAt data) found := by
  induction fuel generalizing first with
  | zero => exact absurd hfuel (Nat.not_lt_zero _)
  | succ fuel ih =>
      by_cases hfits : first + 4 ≤ extEnd
      · by_cases hnames : NamesHost data extEnd first
        · exact ⟨_, findSniLoop_found hend hnames,
            .found first ⟨.here hfits, hnames⟩ fun other hother ↦ hother.1.le⟩
        · have hnext := lt_nextExtension data first
          have hless : extEnd - nextExtension data first < fuel := by omega
          obtain ⟨found, hfound, hanswer⟩ := ih hless
          refine ⟨found, (findSniLoop_next hend hfits hnames).trans hfound,
            hanswer.congr fun place ↦ ?_⟩
          constructor
          · rintro ⟨hplace, hplaceNames⟩
            exact ⟨.later hfits hplace, hplaceNames⟩
          · rintro ⟨hplace, hplaceNames⟩
            cases hplace with
            | here _ => exact absurd hplaceNames hnames
            | later _ hplace => exact ⟨hplace, hplaceNames⟩
      · refine ⟨none, findSniLoop_stop (Nat.lt_of_not_le hfits), .none ?_⟩
        rintro place ⟨hplace, -⟩
        cases hplace with
        | here h => exact hfits h
        | later h _ => exact hfits h

/-- The end of the extensions, as far as they are in the span. -/
def extensionsEnd (data : List Byte) : Nat :=
  min (preambleEnd data + 2 + (wordAt data (preambleEnd data)).toNat) data.length

/-- A server name in a ClientHello. -/
structure NamedAt (data : List Byte) (place : Nat) : Prop where
  hello : isClientHello data = true
  preamble : preambleEnd data + 2 ≤ data.length
  extension : ExtensionAt data (extensionsEnd data) (preambleEnd data + 2) place
  names : NamesHost data (extensionsEnd data) place

theorem findTlsSni_of_lt (h : data.length < kMinTlsRecord) : findTlsSni data = .ok none := if_pos h

/-- Six bytes are enough for a run without a fault, and its answer is a server name iff there is
one. -/
theorem findTlsSni_answer (h : 6 ≤ data.length) :
    ∃ found, findTlsSni data = .ok found ∧ FirstAnswer (NamedAt data) (hostAt data) found := by
  have hlong : ¬ data.length < kMinTlsRecord := Nat.not_lt_of_le (Nat.le_of_succ_le h)
  unfold findTlsSni
  rw [if_neg hlong, validateTlsRecordHeader_of_le h, ok_bind]
  cases hhello : isClientHello data with
  | false =>
      refine ⟨none, rfl, .none fun place hplace ↦ ?_⟩
      rw [hplace.hello] at hhello
      cases hhello
  | true =>
      rw [if_pos rfl, walkClientHelloPreamble_eq, ok_bind]
      by_cases hpreamble : preambleEnd data + 2 ≤ data.length
      · have hend : extensionsEnd data ≤ data.length := Nat.min_le_right _ _
        have hfuel : extensionsEnd data - (preambleEnd data + 2) < data.length + 1 := by omega
        obtain ⟨found, hfound, hanswer⟩ := findSniLoop_answer hend hfuel
        refine ⟨found, ?_, ?_⟩
        · rw [if_pos hpreamble, ← hfound]
          show findSniExtension data (preambleEnd data) = _
          rw [findSniExtension, readUint16Be_eq hpreamble, ok_bind]
          rfl
        · refine hanswer.congr fun place ↦ ⟨fun h ↦ ⟨hhello, hpreamble, h.1, h.2⟩, fun h ↦ ?_⟩
          exact ⟨h.extension, h.names⟩
      · refine ⟨none, ?_, .none fun place hplace ↦ hpreamble hplace.preamble⟩
        rw [if_neg hpreamble]
        rfl

/-! ## Memory safety -/

/-- A name that is found is inside the span. -/
theorem within_of_answer {found : Option HostnameRange}
    (h : FirstAnswer (NamedAt data) (hostAt data) found) :
    ∀ hostname ∈ found, hostname.Within data := by
  cases h with
  | none _ =>
      rintro hostname ⟨⟩
  | found place h _ =>
      rintro hostname ⟨⟩
      exact Nat.le_trans h.names.fits (Nat.min_le_right _ _)

/-- A run of `ExtractTlsSni` whose reads stay in the inspected window, whose loop ends and whose
answer is inside the window. -/
def TlsSafe (payload : List Byte) : Prop :=
  ∃ found, extractTlsSni payload = .ok found ∧
    ∀ hostname ∈ found, hostname.Within (payload.take kMaxTlsInspect)

/-- Five bytes are let through, and the type of the handshake is the sixth. -/
theorem findTlsSni_of_five (h : data.length = 5) :
    findTlsSni data =
      if isHandshakeRecord data then .error (.outOfBounds kHandshakeTypeOffset) else .ok none := by
  have hread : readAt data kHandshakeTypeOffset = .error (.outOfBounds kHandshakeTypeOffset) :=
    readAt_of_le (Nat.le_of_eq h)
  have hlong : ¬ data.length < kMinTlsRecord := Nat.not_lt_of_le (Nat.le_of_eq h.symm)
  unfold findTlsSni
  rw [if_neg hlong, validateTlsRecordHeader_eq (by omega), hread]
  cases isHandshakeRecord data with
  | true => rfl
  | false => rfl

/-- The extractor is safe but for the five bytes of the header of a handshake record. -/
theorem tlsSafe_iff (payload : List Byte) :
    TlsSafe payload ↔ ¬ (payload.length = 5 ∧ isHandshakeRecord payload = true) := by
  constructor
  · rintro ⟨found, hrun, -⟩ ⟨hfive, hrecord⟩
    have hwindow : payload.take kMaxTlsInspect = payload :=
      List.take_of_length_le (by unfold kMaxTlsInspect; omega)
    rw [extractTlsSni, hwindow, findTlsSni_of_five hfive, if_pos hrecord] at hrun
    cases hrun
  · intro h
    unfold TlsSafe extractTlsSni
    generalize hdata : payload.take kMaxTlsInspect = data
    have hlength : data.length = min kMaxTlsInspect payload.length := by
      rw [← hdata, List.length_take]
    by_cases hmany : 6 ≤ data.length
    · obtain ⟨found, hrun, hanswer⟩ := findTlsSni_answer hmany
      exact ⟨found, hrun, within_of_answer hanswer⟩
    refine ⟨none, ?_, fun hostname hfound ↦ by cases hfound⟩
    by_cases hfive : data.length = 5
    · have hpayload : payload.length = 5 := by unfold kMaxTlsInspect at hlength; omega
      have hsame : data = payload := by
        rw [← hdata, List.take_of_length_le (by unfold kMaxTlsInspect; omega)]
      rw [findTlsSni_of_five hfive, if_neg fun hrecord ↦ h ⟨hpayload, hsame ▸ hrecord⟩]
    · exact findTlsSni_of_lt (by unfold kMinTlsRecord; omega)

/-- The header of a TLS 1.2 record, and nothing behind it. -/
theorem record_header_not_safe :
    extractTlsSni [0x16, 0x03, 0x03, 0x00, 0x2A] = .error (.outOfBounds 5) ∧
      ¬ TlsSafe [0x16, 0x03, 0x03, 0x00, 0x2A] := by
  have hrun : extractTlsSni [0x16, 0x03, 0x03, 0x00, 0x2A] = .error (.outOfBounds 5) := by decide
  refine ⟨hrun, ?_⟩
  rintro ⟨found, hfound, -⟩
  rw [hrun] at hfound
  cases hfound

end DpdkSpi
