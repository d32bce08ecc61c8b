import DpdkSpi.Packet.Extract

/-!
# Host headers

What `ExtractHttpHost` computes: the text behind the first end of a line that a Host header
follows, as far as it is in the inspected window.
-/

namespace DpdkSpi

open Lib

variable {data : List Byte} {i j w : Nat}

/-! ## The text of a Host header -/

/-- Where the text of a Host header starts whose line end is at a place. -/
def hostStart (data : List Byte) (i : Nat) : Nat :=
  i + kHostPatternLen + ((data.drop (i + kHostPatternLen)).takeWhile (· = space)).length

/-- The text of a Host header whose line end is at a place. -/
def hostText (data : List Byte) (i : Nat) : List Byte :=
  ((data.drop (i + kHostPatternLen)).dropWhile (· = space)).takeWhile (· ≠ carriageReturn)

/-- The end of a line, and behind it a Host header with a text. -/
structure HostAt (data : List Byte) (i : Nat) : Prop where
  start : kMinScanStart ≤ i
  pattern : hostPattern <+: data.drop i
  text : hostText data i ≠ []

/-- The hostname of a Host header. -/
def hostRange (data : List Byte) (i : Nat) : HostnameRange :=
  ⟨hostStart data i, BitVec.ofNat 16 (hostText data i).length⟩

theorem dropWhile_eq_drop (p : Byte → Bool) (l : List Byte) :
    l.dropWhile p = l.drop (l.takeWhile p).length := by
  conv_rhs => rw [← List.takeWhile_append_dropWhile (p := p) (l := l), List.drop_append]
  rw [List.takeWhile_append_dropWhile, List.drop_length, Nat.sub_self, List.nil_append,
    List.drop_zero]

/-- The text starts behind the spaces. -/
theorem hostText_eq (data : List Byte) (i : Nat) :
    hostText data i = (data.drop (hostStart data i)).takeWhile (· ≠ carriageReturn) := by
  rw [hostText, dropWhile_eq_drop, List.drop_drop, hostStart]

theorem length_hostText_le (data : List Byte) (i : Nat) :
    (hostText data i).length ≤ data.length - hostStart data i := by
  rw [hostText_eq, ← List.length_drop]
  exact (List.takeWhile_prefix _).length_le

theorem HostAt.lt_length (h : HostAt data i) : hostStart data i < data.length := by
  have hlength := length_hostText_le data i
  have hpos := List.length_pos_of_ne_nil h.text
  omega

theorem le_hostStart (data : List Byte) (i : Nat) : i + kHostPatternLen ≤ hostStart data i :=
  Nat.le_add_right _ _

/-- The characters of the hostname are the text. -/
theorem bytes_hostRange (h : (hostText data i).length < 2 ^ 16) :
    (hostRange data i).bytes data = hostText data i := by
  show (data.drop (hostStart data i)).take (BitVec.ofNat 16 (hostText data i).length).toNat = _
  rw [BitVec.toNat_ofNat, Nat.mod_eq_of_lt h, hostText_eq]
  exact (List.prefix_iff_eq_take.mp (List.takeWhile_prefix _)).symm

/-! ## The scan -/

theorem hostHeaderValueAt_eq (h : i + kHostPatternLen ≤ data.length) :
    hostHeaderValueAt data i =
      .ok (if hostPattern <+: data.drop i ∧ hostText data i ≠ [] then some (hostRange data i)
        else none) := by
  have hspaces : skipWhile (· = space) data (data.length + 1) (i + kHostPatternLen) =
      .ok (hostStart data i) := skipWhile_eq (by omega)
  have hvalue : skipWhile (· ≠ carriageReturn) data (data.length + 1) (hostStart data i) =
      .ok (hostStart data i + (hostText data i).length) := by
    rw [hostText_eq]
    exact skipWhile_eq (by omega)
  unfold hostHeaderValueAt
  rw [matchesAt_eq h, ok_bind]
  by_cases hpattern : hostPattern <+: data.drop i
  · rw [if_pos (List.isPrefixOf_iff_prefix.mpr hpattern), hspaces, ok_bind, hvalue, ok_bind,
      Nat.add_sub_cancel_left]
    by_cases htext : hostText data i = []
    · have hempty : ¬ hostStart data i < hostStart data i + (hostText data i).length := by
        rw [htext]
        exact Nat.lt_irrefl _
      rw [if_neg hempty, if_neg fun h ↦ h.2 htext]
      rfl
    · rw [if_pos (Nat.lt_add_of_pos_right (List.length_pos_of_ne_nil htext)),
        if_pos ⟨hpattern, htext⟩]
      rfl
  · rw [if_neg fun h ↦ hpattern (List.isPrefixOf_iff_prefix.mp h), if_neg fun h ↦ hpattern h.1]
    rfl

/-- The scan finds the first Host header with a text. -/
theorem findHostHeaderValue_answer (data : List Byte) :
    ∃ found, findHostHeaderValue data = .ok found ∧
      FirstAnswer (HostAt data) (hostRange data) found := by
  have hpass : ∀ j, kMinScanStart ≤ j → j < data.length - kHostPatternLen → HostAt data j →
      hostHeaderValueAt data j = .ok (some (hostRange data j)) := by
    intro j _ hj h
    rw [hostHeaderValueAt_eq (by omega), if_pos ⟨h.pattern, h.text⟩]
  have hfail : ∀ j, kMinScanStart ≤ j → j < data.length - kHostPatternLen → ¬ HostAt data j →
      hostHeaderValueAt data j = .ok none := by
    intro j hstart hj h
    rw [hostHeaderValueAt_eq (by omega), if_neg fun hhost ↦ h ⟨hstart, hhost.1, hhost.2⟩]
  obtain ⟨found, hrun, hanswer⟩ := scanFrom_answer hpass hfail
    (by omega : data.length - kHostPatternLen - kMinScanStart < data.length + 1)
  refine ⟨found, hrun, hanswer.congr fun j ↦ ⟨fun h ↦ h.2.2, fun h ↦ ⟨h.start, ?_, h⟩⟩⟩
  have hle := le_hostStart data j
  have hlt := h.lt_length
  omega

/-! ## Methods -/

/-- A method that the extractor knows. -/
def knownMethod (data : List Byte) : Bool := httpMethodPrefixes.any fun method ↦
  method.isPrefixOf data

theorem length_of_mem_httpMethodPrefixes :
    ∀ method ∈ httpMethodPrefixes, method.length = kMinHttpLen := by decide

theorem isHttpMethodValid_eq (h : kMinHttpLen ≤ data.length) :
    isHttpMethodValid data = .ok (knownMethod data) := by
  refine anyM_eq fun method hmethod ↦ ?_
  have hlength := length_of_mem_httpMethodPrefixes method hmethod
  rw [matchesAt_eq (by omega), List.drop_zero]

/-- What `ExtractHttpHost` finds in the bytes it inspects: the run is without a fault, and the
answer is the first Host header with a text if the method is known. -/
theorem findHttpHost_answer (data : List Byte) :
    ∃ found, findHttpHost data = .ok found ∧
      FirstAnswer (fun i ↦ knownMethod data = true ∧ HostAt data i) (hostRange data) found := by
  unfold findHttpHost
  by_cases hshort : data.length < kMinHttpLen
  · rw [if_pos hshort]
    refine ⟨none, rfl, .none fun i hi ↦ ?_⟩
    have hle := le_hostStart data i
    have hlt := hi.2.lt_length
    unfold kMinHttpLen kHostPatternLen at *
    omega
  · rw [if_neg hshort, isHttpMethodValid_eq (Nat.le_of_not_lt hshort), ok_bind]
    cases hmethod : knownMethod data with
    | false => exact ⟨none, rfl, .none fun i hi ↦ Bool.false_ne_true hi.1⟩
    | true =>
        obtain ⟨found, hrun, hanswer⟩ := findHostHeaderValue_answer data
        exact ⟨found, hrun, hanswer.congr fun i ↦ ⟨fun h ↦ ⟨rfl, h⟩, fun h ↦ h.2⟩⟩

/-! ## Prefixes -/

/-- A prefix of four bytes at least shows the method. -/
theorem knownMethod_take (hw : kMinHttpLen ≤ w) : knownMethod (data.take w) = knownMethod data := by
  have hstart : ∀ method ∈ httpMethodPrefixes,
      method.isPrefixOf (data.take w) = method.isPrefixOf data := by
    intro method hmethod
    have hlength : method.length ≤ w := length_of_mem_httpMethodPrefixes method hmethod ▸ hw
    rw [Bool.eq_iff_iff, List.isPrefixOf_iff_prefix, List.isPrefixOf_iff_prefix,
      List.prefix_take_iff]
    exact and_iff_left hlength
  rw [Bool.eq_iff_iff, knownMethod, knownMethod, List.any_eq_true, List.any_eq_true]
  refine exists_congr fun method ↦ and_congr_right fun hmethod ↦ ?_
  rw [hstart method hmethod]

/-- The text in a prefix. -/
theorem hostText_take (data : List Byte) (i w : Nat) :
    hostText (data.take w) i = (hostText data i).take (w - hostStart data i) := by
  have hspaces (l : List Byte) (n : Nat) : (l.take n).dropWhile (· = space) =
      (l.dropWhile (· = space)).take (n - (l.takeWhile (· = space)).length) := by
    rw [dropWhile_eq_drop, dropWhile_eq_drop, ← List.take_takeWhile, List.length_take,
      List.drop_take]
    rcases Nat.le_total n (l.takeWhile (· = space)).length with hle | hle
    · rw [Nat.min_eq_left hle, Nat.sub_self, Nat.sub_eq_zero_of_le hle, List.take_zero,
        List.take_zero]
    · rw [Nat.min_eq_right hle]
  rw [hostText, List.drop_take, hspaces, ← List.take_takeWhile, Nat.sub_sub]
  rfl

/-- The Host headers of a prefix. -/
theorem hostAt_take_iff (data : List Byte) (i w : Nat) :
    HostAt (data.take w) i ↔ HostAt data i ∧ hostStart data i < w := by
  have hlength : hostPattern.length = kHostPatternLen := by decide
  constructor
  · rintro ⟨hstart, hpattern, htext⟩
    rw [List.drop_take, List.prefix_take_iff] at hpattern
    rw [hostText_take] at htext
    refine ⟨⟨hstart, hpattern.1, fun hnil ↦ htext (by rw [hnil, List.take_nil])⟩, ?_⟩
    refine Nat.lt_of_not_le fun hle ↦ htext ?_
    rw [Nat.sub_eq_zero_of_le hle, List.take_zero]
  · rintro ⟨⟨hstart, hpattern, htext⟩, hlt⟩
    have hle := le_hostStart data i
    refine ⟨hstart, ?_, ?_⟩
    · rw [List.drop_take, List.prefix_take_iff]
      exact ⟨hpattern, by omega⟩
    · rw [hostText_take]
      intro hnil
      rcases List.take_eq_nil_iff.mp hnil with hzero | hnil
      · omega
      · exact htext hnil

/-! ## One Host header after the other -/

theorem getElem?_of_prefix_drop {pattern : List Byte} (h : pattern <+: data.drop i) {k : Nat}
    (hk : k < pattern.length) : data[i + k]? = pattern[k]? := by
  obtain ⟨rest, hrest⟩ := h
  rw [← List.getElem?_drop, ← hrest, List.getElem?_append_left hk]

/-- The text starts with another byte than a carriage return. -/
theorem HostAt.getElem?_hostStart (h : HostAt data i) :
    data[hostStart data i]? ≠ some carriageReturn := by
  have htext := h.text
  rw [hostText_eq] at htext
  intro hget
  obtain ⟨hlt, hbyte⟩ := List.getElem?_eq_some_iff.mp hget
  rw [List.drop_eq_getElem_cons hlt, hbyte, List.takeWhile_cons_of_neg (by decide)] at htext
  exact htext rfl

/-- Between the start of a Host header and its text there is no carriage return. -/
theorem HostAt.ne_carriageReturn (h : HostAt data i) (hi : i < j) (hj : j ≤ hostStart data i) :
    data[j]? ≠ some carriageReturn := by
  have hpattern : ∀ k < kHostPatternLen, 0 < k → hostPattern[k]? ≠ some carriageReturn := by decide
  rcases Nat.lt_or_eq_of_le hj with hlt | rfl
  · rcases Nat.lt_or_ge j (i + kHostPatternLen) with hname | hspace
    · obtain ⟨k, rfl⟩ : ∃ k, j = i + k := ⟨j - i, by omega⟩
      have hk : k < kHostPatternLen := by omega
      rw [getElem?_of_prefix_drop h.pattern hk]
      exact hpattern k hk (by omega)
    · obtain ⟨k, rfl⟩ : ∃ k, j = i + kHostPatternLen + k := ⟨j - (i + kHostPatternLen), by omega⟩
      have hk : k < ((data.drop (i + kHostPatternLen)).takeWhile (· = space)).length := by
        unfold hostStart at hlt
        omega
      rw [getElem?_of_prefix_drop (List.takeWhile_prefix _) hk]
      intro hget
      have hmem := List.all_eq_true.mp List.all_takeWhile _ (List.mem_of_getElem? hget)
      exact absurd (of_decide_eq_true hmem) (by decide)
  · exact h.getElem?_hostStart

/-- Texts start in the order of their headers. -/
theorem HostAt.hostStart_le (hi : HostAt data i) (hj : HostAt data j) (h : i ≤ j) :
    hostStart data i ≤ hostStart data j := by
  rcases Nat.eq_or_lt_of_le h with rfl | hlt
  · exact Nat.le_refl _
  · have hreturn : data[j]? = some carriageReturn := by
      have hget := getElem?_of_prefix_drop hj.pattern (k := 0) (by decide)
      exact hget
    have hbehind : hostStart data i < j := by
      refine Nat.lt_of_not_le fun hle ↦ ?_
      exact hi.ne_carriageReturn hlt hle hreturn
    have hle := le_hostStart data j
    omega

/-- The first Host header with a text. -/
structure FirstHost (data : List Byte) (i : Nat) : Prop where
  host : HostAt data i
  first : ∀ j, HostAt data j → i ≤ j

/-- What is found in a prefix: the text of the first Host header, as far as it goes, or nothing if
the prefix ends in front of it. -/
theorem httpHostText_prefix (data : List Byte) {w : Nat} (hw : w ≤ kMaxHttpInspect) :
    ∃ found, hostnameText (data.take w) (findHttpHost (data.take w)) = .ok found ∧
      ∀ text, found = some text ↔ knownMethod data = true ∧
        ∃ i, FirstHost data i ∧ hostStart data i < w ∧
          text = (hostText data i).take (w - hostStart data i) := by
  obtain ⟨found, hrun, hanswer⟩ := findHttpHost_answer (data.take w)
  rw [hrun]
  refine ⟨_, rfl, fun text ↦ ?_⟩
  have hlong {i : Nat} (h : hostStart data i < w) : kMinHttpLen ≤ w := by
    have hle := le_hostStart data i
    unfold kHostPatternLen at hle
    unfold kMinHttpLen
    omega
  cases hanswer with
  | none hnone =>
      constructor
      · rintro ⟨⟩
      · rintro ⟨hmethod, i, hi, hlt, -⟩
        refine absurd ?_ (hnone i)
        exact ⟨(knownMethod_take (hlong hlt)).trans hmethod,
          (hostAt_take_iff data i w).mpr ⟨hi.host, hlt⟩⟩
  | found i hi hfirst =>
      obtain ⟨hhost, hlt⟩ := (hostAt_take_iff data i w).mp hi.2
      have hmethod : knownMethod data = true := (knownMethod_take (hlong hlt)).symm.trans hi.1
      have htext : (hostRange (data.take w) i).bytes (data.take w) =
          (hostText data i).take (w - hostStart data i) := by
        have hle := length_hostText_le (data.take w) i
        rw [List.length_take] at hle
        unfold kMaxHttpInspect at hw
        rw [bytes_hostRange (by omega), hostText_take]
      have hfirstHost : FirstHost data i := by
        refine ⟨hhost, fun j hj ↦ Nat.le_of_not_lt fun hji ↦ ?_⟩
        have hle := hj.hostStart_le hhost (Nat.le_of_lt hji)
        have hin := hfirst j ⟨hi.1, (hostAt_take_iff data j w).mpr ⟨hj, by omega⟩⟩
        omega
      show some ((hostRange (data.take w) i).bytes (data.take w)) = some text ↔ _
      rw [htext, Option.some_inj]
      constructor
      · rintro rfl
        exact ⟨hmethod, i, hfirstHost, hlt, rfl⟩
      · rintro ⟨-, j, hj, -, rfl⟩
        rw [Nat.le_antisymm (hfirstHost.first j hj.host) (hj.first i hhost)]

end DpdkSpi
