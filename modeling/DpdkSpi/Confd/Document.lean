import DpdkSpi.Confd.Calls
import DpdkSpi.Lib.Regex
import DpdkSpi.Lib.Text

/-!
# The generated configuration

The file that `write_config_snapshot` generates from the configuration database, line by line,
after `fastapi_confd.c`.

The bytes of a file say which lines it has, whatever their values are (`render_inj`), and which
lines there are for a database does not depend on the values, but only on which leaves exist and
how many instances each list has (`Snapshot.Alike.documentLines`).
-/

namespace DpdkSpi

open Lib
open Lib.Regex (ascii isAlnum)

/-! ## Lines -/

/-- The bytes of a literal. -/
def word (s : String) : List (BitVec 8) := s.toList.map ascii

/-- What may stand behind a key. -/
inductive Scalar where
  | text (v : CString)
  | number (n : Nat)
  | truth (b : Bool)
deriving DecidableEq

/-- A line of the file. -/
inductive Line where
  | blank
  | heading (indent : Nat) (key : List (BitVec 8))
  /-- A leaf, and whether it is the first one of an item. -/
  | leaf (indent : Nat) (first : Bool) (key : List (BitVec 8)) (value : Scalar)
  | item (indent : Nat) (value : CString)
deriving DecidableEq

/-- The space. -/
def kSpace : BitVec 8 := 0x20

/-- The colon. -/
def kColon : BitVec 8 := 0x3A

/-- The dash in front of an item. -/
def kDash : BitVec 8 := 0x2D

/-- A digit. -/
def kDigit (d : Nat) : BitVec 8 := BitVec.ofNat 8 (0x30 + d)

/-- What `yaml_string` writes for a value it can write. -/
def quotedText (v : CString) : List (BitVec 8) :=
  kQuote :: yamlQuoting.encode v.bytes ++ [kQuote]

/-- What `yaml_string`, `confd_pp_value` and the formats of `fprintf` write for a value. -/
def Scalar.bytes : Scalar → List (BitVec 8)
  | .text v => quotedText v
  | .number n => (decimal n).map kDigit
  | .truth b => word (if b then "true" else "false")

/-- `"%*s"` with an empty string. -/
def spaces (indent : Nat) : List (BitVec 8) := List.replicate indent kSpace

/-- What is in front of the value of a leaf. -/
def leafPrefix (indent : Nat) (first : Bool) (key : List (BitVec 8)) : List (BitVec 8) :=
  spaces indent ++ ((if first then [kDash, kSpace] else []) ++ (key ++ [kColon, kSpace]))

/-- A line without its end. -/
def Line.bytes : Line → List (BitVec 8)
  | .blank => []
  | .heading indent key => spaces indent ++ (key ++ [kColon])
  | .leaf indent first key value => leafPrefix indent first key ++ value.bytes
  | .item indent value => spaces indent ++ (kDash :: kSpace :: quotedText value)

/-- A file. -/
def render (lines : List Line) : List (BitVec 8) := unlines kNewline (lines.map Line.bytes)

@[simp] theorem render_nil : render [] = [] := rfl

theorem render_append (lines lines' : List Line) :
    render (lines ++ lines') = render lines ++ render lines' := by
  unfold render
  rw [List.map_append, unlines_append]

/-! ## Keys -/

/-- A byte of a key. -/
def isKeyByte (c : BitVec 8) : Bool := isAlnum c || c = ascii '_'

/-- A key that can be told from what is around it. -/
def IsKey (key : List (BitVec 8)) : Prop := key ≠ [] ∧ ∀ c ∈ key, isKeyByte c = true

/-- A character of a key. -/
def isKeyChar (c : Char) : Bool :=
  ('a'.toNat ≤ c.toNat && c.toNat ≤ 'z'.toNat) || ('0'.toNat ≤ c.toNat && c.toNat ≤ '9'.toNat) ||
    c.toNat = '_'.toNat

theorem isKeyByte_ascii {c : Char} (h : isKeyChar c = true) : isKeyByte (ascii c) = true := by
  have hall : ∀ n < 128, isKeyChar (Char.ofNat n) = true →
      isKeyByte (ascii (Char.ofNat n)) = true := by decide +kernel
  have hlt : c.toNat < 128 := by
    rcases Bool.or_eq_true_iff.mp h with h | h
    · rcases Bool.or_eq_true_iff.mp h with h | h
      · exact (of_decide_eq_true (Bool.and_eq_true_iff.mp h).2).trans_lt (by decide)
      · exact (of_decide_eq_true (Bool.and_eq_true_iff.mp h).2).trans_lt (by decide)
    · exact (of_decide_eq_true h).trans_lt (by decide)
  have hc := hall c.toNat hlt
  rw [Char.ofNat_toNat] at hc
  exact hc h

/-- A literal of such characters is a key. -/
theorem isKey_word {l : List Char} (h : l ≠ [] ∧ l.all isKeyChar = true) :
    IsKey (word (String.ofList l)) := by
  rw [word, String.toList_ofList]
  refine ⟨fun hnil ↦ h.1 (List.map_eq_nil_iff.mp hnil), fun c hc ↦ ?_⟩
  obtain ⟨d, hd, rfl⟩ := List.mem_map.mp hc
  exact isKeyByte_ascii (List.all_eq_true.mp h.2 d hd)

/-! ## The document of a database -/

/-- How the leaf is read and written. -/
inductive LeafKind where
  | string
  | u32
  | bool
deriving DecidableEq, Repr

/-- A leaf of a container; it has the same name in the database and in the file. -/
structure Leaf where
  kind : LeafKind
  key : String
  isKey : IsKey (word key) := by exact isKey_word (by decide)

/-- What the database has for a leaf. -/
def Snapshot.leaf (c : Snapshot) (path : String) : LeafKind → Option Scalar
  | .string => (c.str path).map .text
  | .u32 => (c.num path).map .number
  | .bool => (c.bool path).map .truth

/-- The line of an optional leaf, if there is one. -/
def Snapshot.leafLines (c : Snapshot) (base : String) (indent : Nat) (l : Leaf) : List Line :=
  ((c.leaf s!"{base}/{l.key}" l.kind).map (.leaf indent false (word l.key))).toList

/-- The lines of optional leaves. -/
def Snapshot.leavesLines (c : Snapshot) (base : String) (indent : Nat) (leaves : List Leaf) :
    List Line :=
  leaves.flatMap (c.leafLines base indent)

/-- The first line of an item with a key. -/
def Snapshot.itemLine (c : Snapshot) (base : String) (indent : Nat) (key : String) : List Line :=
  ((c.str s!"{base}/{key}").map fun v ↦ .leaf indent true (word key) (.text v)).toList

/-- The leaves of `eal`. -/
def ealLeaves : List Leaf :=
  [.mk .string "cpu_core_list", .mk .string "file_prefix", .mk .u32 "memory_channels",
    .mk .string "memory_size", .mk .bool "disable_hugepages", .mk .bool "disable_pci",
    .mk .string "log_level"]

/-- The leaves of `port`. -/
def portLeaves : List Leaf :=
  [.mk .string "port_bitmask", .mk .u32 "receive_queues", .mk .u32 "transmit_queues",
    .mk .u32 "receive_descriptors", .mk .u32 "transmit_descriptors", .mk .bool "promiscuous"]

/-- The leaves of `mempool`. -/
def mempoolLeaves : List Leaf :=
  [.mk .string "name", .mk .u32 "memory_buffer_count", .mk .u32 "memory_buffer_size",
    .mk .u32 "cache_size"]

/-- The leaves of `app`. -/
def appLeaves : List Leaf :=
  [.mk .u32 "burst_size", .mk .bool "mac_updating", .mk .u32 "timer_period_sec"]

/-- The leaves of `tcp_reassembly`. -/
def tcpReassemblyLeaves : List Leaf :=
  [.mk .bool "enabled", .mk .u32 "idle_timeout_sec", .mk .u32 "max_concurrent_streams",
    .mk .u32 "max_buffered_bytes_per_direction", .mk .u32 "max_out_of_order_segments",
    .mk .u32 "memory_budget_mb", .mk .bool "drop_conflicting_overlap"]

/-- The leaves of `spi`. -/
def spiLeaves : List Leaf :=
  [.mk .u32 "worker_count", .mk .string "packet_distribution", .mk .u32 "dispatch_queue_size",
    .mk .bool "drop_unmatched", .mk .u32 "flow_ttl_sec", .mk .u32 "max_concurrent_flows",
    .mk .string "flow_overflow_action", .mk .u32 "fragment_timeout_sec",
    .mk .u32 "max_compilation_threads", .mk .u32 "max_acl_build_threads",
    .mk .string "acl_classify_algorithm", .mk .u32 "acl_build_max_size_mb"]

/-- The leaves of a filter group, behind its name. -/
def groupLeaves : List Leaf :=
  [.mk .u32 "precedence", .mk .string "action", .mk .bool "l7_required",
    .mk .string "dpi_filter_group"]

/-- The leaves of a filter, behind its protocol. -/
def filterLeaves : List Leaf :=
  [.mk .string "source_ip_address", .mk .string "destination_ip_address", .mk .string "label",
    .mk .u32 "source_port", .mk .u32 "destination_port"]

/-- The leaves of `dpi`. -/
def dpiLeaves : List Leaf := [.mk .bool "enabled"]

/-- The leaves of a DPI filter, behind its pattern. -/
def dpiFilterLeaves : List Leaf :=
  [.mk .string "filter_group", .mk .string "label", .mk .u32 "priority"]

/-- The path of a filter group. -/
def groupPath (group : Nat) : String := s!"/fastapi:fastapi/spi/filter-groups[{group}]"

/-- The path of a filter. -/
def filterPath (group filter : Nat) : String := s!"{groupPath group}/filters[{filter}]"

/-- The path of a DPI filter. -/
def dpiFilterPath (filter : Nat) : String := s!"/fastapi:fastapi/dpi/filters[{filter}]"

/-- The lines of a filter. -/
def Snapshot.filterLines (c : Snapshot) (group filter : Nat) : List Line :=
  c.itemLine (filterPath group filter) 8 "protocol" ++
    c.leavesLines (filterPath group filter) 10 filterLeaves

/-- The lines of a filter group. -/
def Snapshot.groupLines (c : Snapshot) (group : Nat) : List Line :=
  c.itemLine (groupPath group) 4 "name" ++ (c.leavesLines (groupPath group) 6 groupLeaves ++
    (.heading 6 (word "filters") ::
      (List.range (c.instances s!"{groupPath group}/filters")).flatMap (c.filterLines group)))

/-- The lines of `tcp_reassembly`. -/
def Snapshot.tcpReassemblyLines (c : Snapshot) : List Line :=
  .heading 2 (word "tcp_reassembly") ::
    c.leavesLines "/fastapi:fastapi/spi/tcp_reassembly" 4 tcpReassemblyLeaves

/-- The lines of `spi`. -/
def Snapshot.spiLines (c : Snapshot) : List Line :=
  [.blank, .heading 0 (word "spi")] ++ (c.leavesLines "/fastapi:fastapi/spi" 2 spiLeaves ++
    (c.tcpReassemblyLines ++ (.heading 2 (word "filter_groups") ::
      (List.range (c.instances "/fastapi:fastapi/spi/filter-groups")).flatMap c.groupLines)))

/-- The lines of a DPI filter. -/
def Snapshot.dpiFilterLines (c : Snapshot) (filter : Nat) : List Line :=
  c.itemLine (dpiFilterPath filter) 4 "hostname_pattern" ++
    c.leavesLines (dpiFilterPath filter) 6 dpiFilterLeaves

/-- The lines of `dpi`. -/
def Snapshot.dpiLines (c : Snapshot) : List Line :=
  [.blank, .heading 0 (word "dpi")] ++
    (c.leavesLines "/fastapi:fastapi/dpi" 2 dpiLeaves ++
      (.heading 2 (word "filters") ::
        (List.range (c.instances "/fastapi:fastapi/dpi/filters")).flatMap c.dpiFilterLines))

/-- The path of a virtual device. -/
def virtualDevicePath (i : Nat) : String := s!"/fastapi:fastapi/eal/virtual_devices[{i}]"

/-- The line of a virtual device. -/
def Snapshot.virtualDeviceLine (c : Snapshot) (i : Nat) : List Line :=
  ((c.str (virtualDevicePath i)).map (.item 4)).toList

/-- The lines of the virtual devices. -/
def Snapshot.virtualDevicesLines (c : Snapshot) : List Line :=
  match c.instances "/fastapi:fastapi/eal/virtual_devices" with
  | 0 => []
  | devices =>
      .heading 2 (word "virtual_devices") :: (List.range devices).flatMap c.virtualDeviceLine

/-- The lines of a container that has only leaves. -/
def Snapshot.containerLines (c : Snapshot) (name : String) (leaves : List Leaf) : List Line :=
  [.blank, .heading 0 (word name)] ++ c.leavesLines s!"/fastapi:fastapi/{name}" 2 leaves

/-- The lines of the whole file. -/
def Snapshot.documentLines (c : Snapshot) : List Line :=
  .heading 0 (word "eal") :: (c.leavesLines "/fastapi:fastapi/eal" 2 ealLeaves ++
    (c.virtualDevicesLines ++ (c.containerLines "port" portLeaves ++
      (c.containerLines "mempool" mempoolLeaves ++ (c.containerLines "app" appLeaves ++
        (c.spiLines ++ c.dpiLines))))))

/-! ## Lines with the same bytes -/

/-- The key of a line is one. -/
def Line.WellKeyed : Line → Prop
  | .heading _ key | .leaf _ _ key _ => IsKey key
  | .blank | .item _ _ => True

/-! ### Values -/

theorem kDigit_inj {d e : Nat} (hd : d < 10) (he : e < 10) (h : kDigit d = kDigit e) : d = e := by
  have hdigits := congrArg BitVec.toNat h
  unfold kDigit at hdigits
  rw [BitVec.toNat_ofNat, BitVec.toNat_ofNat, Nat.mod_eq_of_lt (by omega),
    Nat.mod_eq_of_lt (by omega)] at hdigits
  omega

theorem map_kDigit_inj {l l' : List Nat} (hl : ∀ d ∈ l, d < 10) (hl' : ∀ d ∈ l', d < 10)
    (h : l.map kDigit = l'.map kDigit) : l = l' := by
  induction l generalizing l' with
  | nil => exact (List.map_eq_nil_iff.mp h.symm).symm
  | cons d l ih =>
      cases l' with
      | nil => cases h
      | cons e l' =>
          obtain ⟨hd, hl⟩ := List.forall_mem_cons.mp hl
          obtain ⟨he, hl'⟩ := List.forall_mem_cons.mp hl'
          obtain ⟨hhead, htail⟩ := List.cons.inj h
          rw [kDigit_inj hd he hhead, ih hl hl' htail]

/-- What a value begins with. -/
def Scalar.Head : Scalar → BitVec 8 → Prop
  | .text _, c => c = kQuote
  | .number _, c => ∃ d < 10, c = kDigit d
  | .truth b, c => c = ascii (if b then 't' else 'f')

theorem Scalar.head_bytes (v : Scalar) : ∃ c t, v.bytes = c :: t ∧ v.Head c := by
  cases v with
  | text v => exact ⟨_, _, rfl, rfl⟩
  | truth b => cases b <;> exact ⟨_, _, rfl, rfl⟩
  | number n =>
      obtain ⟨d, l, hl⟩ := List.exists_cons_of_ne_nil (decimal_ne_nil n)
      have hd : d < 10 := lt_ten_of_mem_decimal (hl ▸ List.mem_cons_self)
      exact ⟨kDigit d, l.map kDigit, congrArg (List.map kDigit) hl, d, hd, rfl⟩

theorem kDigit_ne {d : Nat} (h : d < 10) :
    kDigit d ≠ kQuote ∧ kDigit d ≠ ascii 't' ∧ kDigit d ≠ ascii 'f' := by
  have hall : ∀ d < 10, kDigit d ≠ kQuote ∧ kDigit d ≠ ascii 't' ∧ kDigit d ≠ ascii 'f' := by
    decide
  exact hall d h

theorem quotedText_injective : Function.Injective quotedText := by
  intro v w h
  have hscan : ∀ v : CString, yamlQuoting.scan (yamlQuoting.encode v.bytes ++ [kQuote]) =
      some (v.bytes, []) := fun v ↦ Quoting.scan_encode v.bytes []
  have hsame := (hscan v).symm.trans
    ((congrArg yamlQuoting.scan (List.cons.inj h).2).trans (hscan w))
  have hbytes : v.bytes = w.bytes := (Prod.mk.inj (Option.some.inj hsame)).1
  cases v
  cases w
  cases hbytes
  rfl

/-- **Values are told apart by their bytes.** -/
theorem Scalar.bytes_injective : Function.Injective Scalar.bytes := by
  intro v w h
  have hhead : ∃ c, v.Head c ∧ w.Head c := by
    obtain ⟨c, t, hc, hv⟩ := v.head_bytes
    obtain ⟨d, u, hd, hw⟩ := w.head_bytes
    obtain ⟨rfl, -⟩ := List.cons.inj (hc.symm.trans (h.trans hd))
    exact ⟨c, hv, hw⟩
  obtain ⟨c, hv, hw⟩ := hhead
  cases v with
  | text v =>
      cases w with
      | text w => exact congrArg Scalar.text (quotedText_injective h)
      | number n =>
          obtain ⟨d, hd, hc⟩ := hw
          exact absurd (hc.symm.trans hv) (kDigit_ne hd).1
      | truth b => exact absurd (hv.symm.trans hw) (by cases b <;> decide)
  | number n =>
      obtain ⟨d, hd, rfl⟩ := hv
      obtain ⟨hquote, ht, hf⟩ := kDigit_ne hd
      cases w with
      | text w => exact absurd hw hquote
      | number m =>
          have hdecimal := map_kDigit_inj (fun _ ↦ lt_ten_of_mem_decimal)
            (fun _ ↦ lt_ten_of_mem_decimal) h
          exact congrArg Scalar.number (decimal_injective hdecimal)
      | truth b =>
          cases b with
          | false => exact absurd hw hf
          | true => exact absurd hw ht
  | truth b =>
      cases w with
      | text w => exact absurd (hv.symm.trans hw) (by cases b <;> decide)
      | number n =>
          obtain ⟨d, hd, rfl⟩ := hw
          cases b with
          | false => exact absurd hv (kDigit_ne hd).2.2
          | true => exact absurd hv (kDigit_ne hd).2.1
      | truth b' =>
          have hword : ∀ b b' : Bool, ascii (if b then 't' else 'f') =
              ascii (if b' then 't' else 'f') → b = b' := by decide
          rw [hword b b' (hv.symm.trans hw)]

/-! ### Lines -/

theorem ne_of_isKeyByte {c d : BitVec 8} (h : isKeyByte c = true) (hd : isKeyByte d = false) :
    c ≠ d := by
  rintro rfl
  exact absurd h (by rw [hd]; decide)

theorem IsKey.notMem {key : List (BitVec 8)} (h : IsKey key) {c : BitVec 8}
    (hc : isKeyByte c = false) : c ∉ key :=
  fun hmem ↦ ne_of_isKeyByte (h.2 c hmem) hc rfl

/-- What begins with a key begins with a letter of it. -/
theorem IsKey.append_ne_cons {key : List (BitVec 8)} (h : IsKey key) (t : List (BitVec 8))
    {c : BitVec 8} (hc : isKeyByte c = false) (u : List (BitVec 8)) : key ++ t ≠ c :: u := by
  obtain ⟨d, rest, rfl⟩ := List.exists_cons_of_ne_nil h.1
  exact fun heq ↦ ne_of_isKeyByte (h.2 d List.mem_cons_self) hc (List.cons.inj heq).1

/-- What is in front of the colon, and what is behind it. -/
theorem IsKey.append_inj {key key' : List (BitVec 8)} (h : IsKey key) (h' : IsKey key')
    {t u : List (BitVec 8)} (heq : key ++ kColon :: t = key' ++ kColon :: u) :
    key = key' ∧ t = u :=
  append_cons_inj (h.notMem (by decide)) (h'.notMem (by decide)) heq

theorem IsKey.leaf_inj {key key' : List (BitVec 8)} (h : IsKey key) (h' : IsKey key')
    {v w : Scalar}
    (heq : key ++ kColon :: kSpace :: v.bytes = key' ++ kColon :: kSpace :: w.bytes) :
    key = key' ∧ v = w := by
  obtain ⟨hkey, hvalue⟩ := h.append_inj h' heq
  exact ⟨hkey, Scalar.bytes_injective (List.cons.inj hvalue).2⟩

/-- How far a line is indented. -/
def Line.indent : Line → Nat
  | .blank => 0
  | .heading indent _ | .leaf indent _ _ _ | .item indent _ => indent

/-- A line behind its indentation. -/
def Line.body : Line → List (BitVec 8)
  | .blank => []
  | .heading _ key => key ++ [kColon]
  | .leaf _ false key value => key ++ kColon :: kSpace :: value.bytes
  | .leaf _ true key value => kDash :: kSpace :: (key ++ kColon :: kSpace :: value.bytes)
  | .item _ value => kDash :: kSpace :: quotedText value

theorem Line.bytes_eq (l : Line) : l.bytes = spaces l.indent ++ l.body := by
  cases l with
  | blank => rfl
  | heading indent key => rfl
  | item indent v => rfl
  | leaf indent first key v =>
      show leafPrefix indent first key ++ v.bytes = _
      unfold leafPrefix
      cases first with
      | false =>
          rw [List.append_assoc, List.append_assoc, List.append_assoc]
          rfl
      | true =>
          rw [List.append_assoc, List.append_assoc, List.append_assoc]
          rfl

/-- No line is indented further than it says. -/
theorem Line.head?_body {l : Line} (h : l.WellKeyed) : l.body.head? ≠ some kSpace := by
  have hkey : ∀ {key t : List (BitVec 8)}, IsKey key → (key ++ t).head? ≠ some kSpace := by
    intro key t h heq
    obtain ⟨u, hu⟩ := List.head?_eq_some_iff.mp heq
    exact h.append_ne_cons t (by decide) u hu
  cases l with
  | blank => nofun
  | heading indent key => exact hkey h
  | item indent v => exact fun heq ↦ absurd (Option.some.inj heq) (by decide)
  | leaf indent first key v =>
      cases first with
      | false => exact hkey h
      | true => exact fun heq ↦ absurd (Option.some.inj heq) (by decide)

/-- Whether a line that is not blank begins with the dash of a list. -/
def Line.dashed : Line → Option Bool
  | .blank => none
  | .heading _ _ => some false
  | .leaf _ first _ _ => some first
  | .item _ _ => some true

theorem Line.dashed_eq {l : Line} (h : l.WellKeyed) :
    l.dashed = l.body.head?.map fun c ↦ c == kDash := by
  have hkey : ∀ {key t : List (BitVec 8)}, IsKey key →
      some false = (key ++ t).head?.map fun c ↦ c == kDash := by
    intro key t h
    obtain ⟨c, rest, rfl⟩ := List.exists_cons_of_ne_nil h.1
    have hne : c ≠ kDash := ne_of_isKeyByte (h.2 c List.mem_cons_self) (by decide)
    exact congrArg some (beq_eq_false_iff_ne.mpr hne).symm
  cases l with
  | blank => rfl
  | heading indent key => exact hkey h
  | item indent v => rfl
  | leaf indent first key v =>
      cases first with
      | false => exact hkey h
      | true => rfl

/-- **Lines are told apart by their bytes.** -/
theorem Line.bytes_inj {l l' : Line} (h : l.WellKeyed) (h' : l'.WellKeyed)
    (heq : l.bytes = l'.bytes) : l = l' := by
  rw [l.bytes_eq, l'.bytes_eq] at heq
  obtain ⟨hindent, hbody⟩ := replicate_append_inj (head?_body h) (head?_body h') heq
  have hdashed : l.dashed = l'.dashed := by rw [dashed_eq h, dashed_eq h', hbody]
  cases l with
  | blank =>
      cases l' with
      | blank => rfl
      | heading j key => cases hdashed
      | item j w => cases hdashed
      | leaf j first key w => cases hdashed
  | heading i key =>
      cases l' with
      | blank => cases hdashed
      | heading j key' =>
          obtain rfl : i = j := hindent
          rw [(IsKey.append_inj h h' hbody).1]
      | item j w => cases hdashed
      | leaf j first key' w =>
          obtain rfl : false = first := Option.some.inj hdashed
          cases (IsKey.append_inj h h' hbody).2
  | item i v =>
      cases l' with
      | blank => cases hdashed
      | heading j key => cases hdashed
      | item j w =>
          obtain rfl : i = j := hindent
          rw [quotedText_injective (List.cons.inj (List.cons.inj hbody).2).2]
      | leaf j first key w =>
          obtain rfl : true = first := Option.some.inj hdashed
          exact absurd (List.cons.inj (List.cons.inj hbody).2).2.symm
            (IsKey.append_ne_cons h' _ (by decide) _)
  | leaf i first key v =>
      cases l' with
      | blank => cases hdashed
      | heading j key' =>
          obtain rfl : first = false := Option.some.inj hdashed
          cases (IsKey.append_inj h h' hbody).2
      | item j w =>
          obtain rfl : first = true := Option.some.inj hdashed
          exact absurd (List.cons.inj (List.cons.inj hbody).2).2
            (IsKey.append_ne_cons h _ (by decide) _)
      | leaf j first' key' w =>
          obtain rfl : first = first' := Option.some.inj hdashed
          obtain rfl : i = j := hindent
          have hleaf : key ++ kColon :: kSpace :: v.bytes =
              key' ++ kColon :: kSpace :: w.bytes := by
            cases first with
            | false => exact hbody
            | true => exact (List.cons.inj (List.cons.inj hbody).2).2
          obtain ⟨rfl, rfl⟩ := IsKey.leaf_inj h h' hleaf
          rfl

/-! ### Files -/

theorem newline_notMem_quotedText (v : CString) : kNewline ∉ quotedText v := by
  intro h
  rcases List.mem_cons.mp h with h | h
  · exact absurd h (by decide)
  · rcases List.mem_append.mp h with h | h
    · exact not_isBreak_of_mem_encode h (.inl rfl)
    · exact absurd (List.mem_singleton.mp h) (by decide)

theorem newline_notMem_scalar (v : Scalar) : kNewline ∉ v.bytes := by
  cases v with
  | text v => exact newline_notMem_quotedText v
  | number n =>
      intro h
      obtain ⟨d, hd, hdigit⟩ := List.mem_map.mp h
      have hall : ∀ d < 10, kDigit d ≠ kNewline := by decide
      exact hall d (lt_ten_of_mem_decimal hd) hdigit
  | truth b => cases b <;> decide

theorem newline_notMem_spaces (indent : Nat) : kNewline ∉ spaces indent :=
  fun h ↦ absurd (List.eq_of_mem_replicate h) (by decide)

/-- No line contains its end. -/
theorem newline_notMem_bytes {l : Line} (h : l.WellKeyed) : kNewline ∉ l.bytes := by
  have hspaces := newline_notMem_spaces
  cases l with
  | blank => exact List.not_mem_nil
  | heading indent key =>
      have hkey := IsKey.notMem (c := kNewline) h (by decide)
      have hcolon : kNewline ∉ [kColon] := by decide
      show kNewline ∉ spaces indent ++ (key ++ [kColon])
      simp only [List.mem_append, not_or]
      exact ⟨hspaces indent, hkey, hcolon⟩
  | item indent v =>
      have hdash : kNewline ∉ [kDash, kSpace] := by decide
      show kNewline ∉ spaces indent ++ ([kDash, kSpace] ++ quotedText v)
      simp only [List.mem_append, not_or]
      exact ⟨hspaces indent, hdash, newline_notMem_quotedText v⟩
  | leaf indent first key v =>
      have hkey := IsKey.notMem (c := kNewline) h (by decide)
      have hdash : kNewline ∉ if first then [kDash, kSpace] else [] := by cases first <;> decide
      have hcolon : kNewline ∉ [kColon, kSpace] := by decide
      show kNewline ∉ leafPrefix indent first key ++ v.bytes
      simp only [leafPrefix, List.mem_append, not_or]
      exact ⟨⟨hspaces indent, hdash, hkey, hcolon⟩, newline_notMem_scalar v⟩

/-- **A file has one reading**: as lines with keys, it was written for just one list of them. -/
theorem render_inj {lines lines' : List Line} (h : ∀ l ∈ lines, l.WellKeyed)
    (h' : ∀ l ∈ lines', l.WellKeyed) (heq : render lines = render lines') : lines = lines' := by
  have hnewline : ∀ {lines : List Line}, (∀ l ∈ lines, l.WellKeyed) →
      ∀ t ∈ lines.map Line.bytes, kNewline ∉ t := by
    intro lines hlines t ht
    obtain ⟨l, hl, rfl⟩ := List.mem_map.mp ht
    exact newline_notMem_bytes (hlines l hl)
  have hmap := unlines_inj (hnewline h) (hnewline h') heq
  clear heq hnewline
  induction lines generalizing lines' with
  | nil => exact (List.map_eq_nil_iff.mp hmap.symm).symm
  | cons l lines ih =>
      cases lines' with
      | nil => cases hmap
      | cons l' lines' =>
          obtain ⟨hl, hlines⟩ := List.forall_mem_cons.mp h
          obtain ⟨hl', hlines'⟩ := List.forall_mem_cons.mp h'
          obtain ⟨hhead, htail⟩ := List.cons.inj hmap
          rw [Line.bytes_inj hl hl' hhead, ih hlines hlines' htail]

/-! ### Keys of a document -/

section Keys

variable (c : Snapshot)

theorem wellKeyed_leavesLines (base : String) (indent : Nat) (leaves : List Leaf) :
    ∀ l ∈ c.leavesLines base indent leaves, l.WellKeyed := by
  intro line hline
  obtain ⟨l, hl, hline⟩ := List.mem_flatMap.mp hline
  unfold Snapshot.leafLines at hline
  rw [Option.mem_toList, Option.map_eq_some_iff] at hline
  obtain ⟨v, -, rfl⟩ := hline
  exact l.isKey

theorem wellKeyed_itemLine (base : String) (indent : Nat) {key : String} (h : IsKey (word key)) :
    ∀ l ∈ c.itemLine base indent key, l.WellKeyed := by
  intro line hline
  unfold Snapshot.itemLine at hline
  rw [Option.mem_toList, Option.map_eq_some_iff] at hline
  obtain ⟨v, -, rfl⟩ := hline
  exact h

theorem wellKeyed_containerLines {name : String} (hname : IsKey (word name)) (leaves : List Leaf) :
    ∀ l ∈ c.containerLines name leaves, l.WellKeyed :=
  List.forall_mem_append.mpr
    ⟨List.forall_mem_cons.mpr ⟨trivial, List.forall_mem_singleton.mpr hname⟩,
      wellKeyed_leavesLines c _ 2 leaves⟩

/-- The lines of all instances of a list. -/
theorem wellKeyed_flatMap {n : Nat} {f : Nat → List Line} (h : ∀ k, ∀ l ∈ f k, l.WellKeyed) :
    ∀ l ∈ (List.range n).flatMap f, l.WellKeyed := by
  intro l hl
  obtain ⟨k, -, hk⟩ := List.mem_flatMap.mp hl
  exact h k l hk

theorem wellKeyed_filterLines (group filter : Nat) :
    ∀ l ∈ c.filterLines group filter, l.WellKeyed :=
  List.forall_mem_append.mpr
    ⟨wellKeyed_itemLine c _ 8 (isKey_word (by decide)), wellKeyed_leavesLines c _ 10 _⟩

theorem wellKeyed_groupLines (group : Nat) : ∀ l ∈ c.groupLines group, l.WellKeyed :=
  List.forall_mem_append.mpr
    ⟨wellKeyed_itemLine c _ 4 (isKey_word (by decide)), List.forall_mem_append.mpr
      ⟨wellKeyed_leavesLines c _ 6 _, List.forall_mem_cons.mpr
        ⟨(isKey_word (by decide) : IsKey (word "filters")),
          wellKeyed_flatMap (wellKeyed_filterLines c group)⟩⟩⟩

theorem wellKeyed_tcpReassemblyLines : ∀ l ∈ c.tcpReassemblyLines, l.WellKeyed :=
  List.forall_mem_cons.mpr
    ⟨(isKey_word (by decide) : IsKey (word "tcp_reassembly")), wellKeyed_leavesLines c _ 4 _⟩

theorem wellKeyed_spiLines : ∀ l ∈ c.spiLines, l.WellKeyed := by
  have hheading : ∀ l ∈ [Line.blank, .heading 0 (word "spi")], l.WellKeyed :=
    List.forall_mem_cons.mpr
      ⟨trivial, List.forall_mem_singleton.mpr ((isKey_word (by decide) : IsKey (word "spi")))⟩
  have hgroups : (Line.heading 2 (word "filter_groups")).WellKeyed :=
    (isKey_word (by decide) : IsKey (word "filter_groups"))
  exact List.forall_mem_append.mpr ⟨hheading, List.forall_mem_append.mpr
    ⟨wellKeyed_leavesLines c _ 2 _, List.forall_mem_append.mpr
      ⟨wellKeyed_tcpReassemblyLines c,
        List.forall_mem_cons.mpr ⟨hgroups, wellKeyed_flatMap (wellKeyed_groupLines c)⟩⟩⟩⟩

theorem wellKeyed_dpiLines : ∀ l ∈ c.dpiLines, l.WellKeyed := by
  have hheading : ∀ l ∈ [Line.blank, .heading 0 (word "dpi")], l.WellKeyed :=
    List.forall_mem_cons.mpr
      ⟨trivial, List.forall_mem_singleton.mpr ((isKey_word (by decide) : IsKey (word "dpi")))⟩
  have hfilters : (Line.heading 2 (word "filters")).WellKeyed :=
    (isKey_word (by decide) : IsKey (word "filters"))
  exact List.forall_mem_append.mpr ⟨hheading, List.forall_mem_append.mpr
    ⟨wellKeyed_leavesLines c _ 2 _, List.forall_mem_cons.mpr
      ⟨hfilters, wellKeyed_flatMap fun filter ↦ List.forall_mem_append.mpr
        ⟨wellKeyed_itemLine c _ 4 (isKey_word (by decide)), wellKeyed_leavesLines c _ 6 _⟩⟩⟩⟩

theorem wellKeyed_virtualDevicesLines : ∀ l ∈ c.virtualDevicesLines, l.WellKeyed := by
  unfold Snapshot.virtualDevicesLines
  split
  · exact List.forall_mem_nil _
  · refine List.forall_mem_cons.mpr
      ⟨(isKey_word (by decide) : IsKey (word "virtual_devices")), wellKeyed_flatMap fun i l hl ↦ ?_⟩
    unfold Snapshot.virtualDeviceLine at hl
    rw [Option.mem_toList, Option.map_eq_some_iff] at hl
    obtain ⟨v, -, rfl⟩ := hl
    trivial

theorem wellKeyed_documentLines : ∀ l ∈ c.documentLines, l.WellKeyed :=
  List.forall_mem_cons.mpr
    ⟨(isKey_word (by decide) : IsKey (word "eal")), List.forall_mem_append.mpr
    ⟨wellKeyed_leavesLines c _ 2 _, List.forall_mem_append.mpr
      ⟨wellKeyed_virtualDevicesLines c, List.forall_mem_append.mpr
        ⟨wellKeyed_containerLines c (isKey_word (by decide)) _, List.forall_mem_append.mpr
          ⟨wellKeyed_containerLines c (isKey_word (by decide)) _, List.forall_mem_append.mpr
            ⟨wellKeyed_containerLines c (isKey_word (by decide)) _, List.forall_mem_append.mpr
              ⟨wellKeyed_spiLines c, wellKeyed_dpiLines c⟩⟩⟩⟩⟩⟩⟩

end Keys

/-! ### Shapes -/

/-- A line without its value. -/
inductive LineShape where
  | blank
  | heading (indent : Nat) (key : List (BitVec 8))
  | leaf (indent : Nat) (first : Bool) (key : List (BitVec 8))
  | item (indent : Nat)
deriving DecidableEq

/-- What is left of a line without its value. -/
def Line.shape : Line → LineShape
  | .blank => .blank
  | .heading indent key => .heading indent key
  | .leaf indent first key _ => .leaf indent first key
  | .item indent _ => .item indent

/-- The same leaves exist, and the lists have as many instances. -/
structure Snapshot.Alike (c c' : Snapshot) : Prop where
  str : ∀ path, (c.str path).isSome = (c'.str path).isSome
  num : ∀ path, (c.num path).isSome = (c'.num path).isSome
  bool : ∀ path, (c.bool path).isSome = (c'.bool path).isSome
  instances : ∀ path, c.instances path = c'.instances path

section Shapes

variable {c c' : Snapshot}

/-- One line, or none, from a value that does or does not exist. -/
theorem map_shape_toList {β : Type} {x y : Option β} {f : β → Line} {shape : LineShape}
    (hf : ∀ v, (f v).shape = shape) (h : x.isSome = y.isSome) :
    (x.map f).toList.map Line.shape = (y.map f).toList.map Line.shape := by
  cases x with
  | none =>
      cases y with
      | none => rfl
      | some v => cases h
  | some v =>
      cases y with
      | none => cases h
      | some w => exact congrArg (fun s ↦ [s]) ((hf v).trans (hf w).symm)

theorem Snapshot.Alike.leaf (h : c.Alike c') (path : String) (kind : LeafKind) :
    (c.leaf path kind).isSome = (c'.leaf path kind).isSome := by
  cases kind with
  | string => simpa only [Snapshot.leaf, Option.isSome_map] using h.str path
  | u32 => simpa only [Snapshot.leaf, Option.isSome_map] using h.num path
  | bool => simpa only [Snapshot.leaf, Option.isSome_map] using h.bool path

/-- The lines of a list, when those of its elements have the same shapes. -/
theorem map_shape_flatMap {β : Type} {f g : β → List Line}
    (h : ∀ x, (f x).map Line.shape = (g x).map Line.shape) (xs : List β) :
    (xs.flatMap f).map Line.shape = (xs.flatMap g).map Line.shape := by
  rw [List.map_flatMap, List.map_flatMap]
  exact List.flatMap_congr fun x _ ↦ h x

theorem Snapshot.Alike.leavesLines (h : c.Alike c') (base : String) (indent : Nat)
    (leaves : List Leaf) :
    (c.leavesLines base indent leaves).map Line.shape =
      (c'.leavesLines base indent leaves).map Line.shape := by
  refine map_shape_flatMap (fun l ↦ ?_) leaves
  exact map_shape_toList (fun _ ↦ rfl) (h.leaf s!"{base}/{l.key}" l.kind)

theorem Snapshot.Alike.itemLine (h : c.Alike c') (base : String) (indent : Nat) (key : String) :
    (c.itemLine base indent key).map Line.shape =
      (c'.itemLine base indent key).map Line.shape :=
  map_shape_toList (fun _ ↦ rfl) (h.str _)

theorem Snapshot.Alike.groupLines (h : c.Alike c') (group : Nat) :
    (c.groupLines group).map Line.shape = (c'.groupLines group).map Line.shape := by
  have hfilters : ∀ filter, (c.filterLines group filter).map Line.shape =
      (c'.filterLines group filter).map Line.shape := by
    intro filter
    unfold Snapshot.filterLines
    rw [List.map_append, List.map_append, h.itemLine, h.leavesLines]
  unfold Snapshot.groupLines
  simp only [List.map_append, List.map_cons]
  rw [h.itemLine, h.leavesLines, h.instances, map_shape_flatMap hfilters]

theorem Snapshot.Alike.spiLines (h : c.Alike c') :
    c.spiLines.map Line.shape = c'.spiLines.map Line.shape := by
  unfold Snapshot.spiLines Snapshot.tcpReassemblyLines
  simp only [List.map_append, List.map_cons]
  rw [h.leavesLines, h.leavesLines, h.instances, map_shape_flatMap h.groupLines]

theorem Snapshot.Alike.dpiLines (h : c.Alike c') :
    c.dpiLines.map Line.shape = c'.dpiLines.map Line.shape := by
  have hfilters : ∀ filter, (c.dpiFilterLines filter).map Line.shape =
      (c'.dpiFilterLines filter).map Line.shape := by
    intro filter
    unfold Snapshot.dpiFilterLines
    rw [List.map_append, List.map_append, h.itemLine, h.leavesLines]
  unfold Snapshot.dpiLines
  simp only [List.map_append, List.map_cons]
  rw [h.leavesLines, h.instances, map_shape_flatMap hfilters]

theorem Snapshot.Alike.virtualDevicesLines (h : c.Alike c') :
    c.virtualDevicesLines.map Line.shape = c'.virtualDevicesLines.map Line.shape := by
  unfold Snapshot.virtualDevicesLines
  rw [h.instances]
  split
  · rfl
  · rw [List.map_cons, List.map_cons]
    exact congrArg _ (map_shape_flatMap
      (fun i ↦ map_shape_toList (f := .item 4) (fun _ ↦ rfl) (h.str (virtualDevicePath i))) _)

theorem Snapshot.Alike.containerLines (h : c.Alike c') (name : String) (leaves : List Leaf) :
    (c.containerLines name leaves).map Line.shape =
      (c'.containerLines name leaves).map Line.shape := by
  unfold Snapshot.containerLines
  rw [List.map_append, List.map_append, h.leavesLines]

theorem Snapshot.Alike.documentLines (h : c.Alike c') :
    c.documentLines.map Line.shape = c'.documentLines.map Line.shape := by
  unfold Snapshot.documentLines
  simp only [List.map_append, List.map_cons]
  rw [h.leavesLines, h.virtualDevicesLines, h.containerLines, h.containerLines,
    h.containerLines, h.spiLines, h.dpiLines]

end Shapes

end DpdkSpi
