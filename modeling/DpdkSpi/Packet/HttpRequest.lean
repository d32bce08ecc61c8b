import DpdkSpi.Packet.HttpHost

/-!
# Requests as lines

HTTP requests as a client writes them, lines with CRLF behind each, and what `ExtractHttpHost`
makes of them and of their prefixes.
-/

namespace DpdkSpi

open Lib

/-! ## Lines -/

/-- Lines, each with its end. -/
def linesBytes (lines : List (List Byte)) : List Byte := lines.flatMap fun line ↦ line ++ crlf

theorem linesBytes_cons (line : List Byte) (lines : List (List Byte)) :
    linesBytes (line :: lines) = line ++ (crlf ++ linesBytes lines) := by
  rw [linesBytes, List.flatMap_cons, List.append_assoc, linesBytes]

theorem linesBytes_append (before after : List (List Byte)) :
    linesBytes (before ++ after) = linesBytes before ++ linesBytes after := List.flatMap_append

/-- Lines end with the end of the last one. -/
theorem linesBytes_eq_append_crlf (line : List Byte) (lines : List (List Byte)) :
    ∃ front, linesBytes (line :: lines) = front ++ crlf ∧ line.length ≤ front.length := by
  induction lines generalizing line with
  | nil =>
      refine ⟨line, ?_, Nat.le_refl _⟩
      rw [linesBytes_cons]
      rfl
  | cons next lines ih =>
      obtain ⟨front, hfront, -⟩ := ih next
      refine ⟨line ++ (crlf ++ front), ?_, ?_⟩
      · rw [linesBytes_cons, hfront, List.append_assoc, List.append_assoc]
      · rw [List.length_append]
        exact Nat.le_add_right _ _

/-- What is found without a carriage return in front of one is found in the line. -/
theorem prefix_of_prefix_append {pattern line rest : List Byte}
    (h : pattern <+: line ++ (carriageReturn :: rest)) (hcr : carriageReturn ∉ pattern) :
    pattern <+: line := by
  rcases Nat.le_total pattern.length line.length with hle | hle
  · exact List.prefix_of_prefix_length_le h (List.prefix_append _ _) hle
  · obtain ⟨tail, rfl⟩ := List.prefix_of_prefix_length_le (List.prefix_append _ _) h hle
    cases tail with
    | nil => exact ⟨[], by rw [List.append_nil, List.append_nil]⟩
    | cons b tail =>
        rw [List.prefix_append_right_inj, List.cons_prefix_cons] at h
        refine absurd ?_ hcr
        rw [h.1]
        exact List.mem_append_right _ List.mem_cons_self

/-- Behind the end of a line, or in it, nothing starts with a line end. -/
theorem le_of_hostPattern {line rest : List Byte} {j : Nat} (hcr : carriageReturn ∉ line)
    (h : hostPattern <+: (line ++ (crlf ++ rest)).drop j) :
    j = line.length ∧ hostField <+: rest ∨
      ∃ k, j = line.length + 2 + k ∧ hostPattern <+: rest.drop k := by
  have hreturn : (line ++ (crlf ++ rest))[j]? = some carriageReturn :=
    getElem?_of_prefix_drop (k := 0) h (by decide)
  rcases Nat.lt_trichotomy j line.length with hlt | rfl | hgt
  · rw [List.getElem?_append_left hlt] at hreturn
    exact absurd (List.mem_of_getElem? hreturn) hcr
  · rw [List.drop_left] at h
    exact .inl ⟨rfl, (List.prefix_append_right_inj crlf).mp h⟩
  · rcases Nat.eq_or_lt_of_le hgt with rfl | hgt
    · have hone : line.length.succ - line.length = 1 := Nat.add_sub_cancel_left line.length 1
      have hfeed : (crlf ++ rest)[1]? = some lineFeed := rfl
      rw [List.getElem?_append_right (Nat.le_succ _), hone, hfeed] at hreturn
      exact absurd hreturn (by decide)
    · refine .inr ⟨j - (line.length + 2), by omega, ?_⟩
      have hline : (line ++ crlf).length = line.length + 2 := List.length_append
      have hdrop : (line ++ (crlf ++ rest)).drop j = rest.drop (j - (line.length + 2)) := by
        rw [← List.append_assoc, List.drop_append, hline,
          List.drop_eq_nil_of_le (by rw [hline]; exact hgt), List.nil_append]
      rw [← hdrop]
      exact h

/-- In lines that are no Host headers, but for the first one, the pattern of a Host header does not
stand in front of the last line end. -/
theorem length_le_of_hostPattern {line : List Byte} {lines : List (List Byte)} {tail : List Byte}
    {j : Nat} (hcr : ∀ l ∈ line :: lines, carriageReturn ∉ l)
    (hname : ∀ l ∈ lines, ¬ hostField <+: l)
    (h : hostPattern <+: (linesBytes (line :: lines) ++ tail).drop j) :
    (linesBytes (line :: lines)).length ≤ j + 2 := by
  induction lines generalizing line j with
  | nil =>
      rw [linesBytes_cons, List.append_assoc, List.append_assoc] at h
      rcases le_of_hostPattern (hcr line List.mem_cons_self) h with ⟨rfl, -⟩ | ⟨k, rfl, -⟩
      · rw [linesBytes_cons, List.length_append]
        exact Nat.le_refl _
      · rw [linesBytes_cons, List.length_append]
        show line.length + 2 ≤ _
        omega
  | cons next lines ih =>
      rw [linesBytes_cons, List.append_assoc, List.append_assoc] at h
      rcases le_of_hostPattern (hcr line List.mem_cons_self) h with ⟨-, hfield⟩ | ⟨k, rfl, hrest⟩
      · rw [linesBytes_cons, List.append_assoc, List.append_assoc] at hfield
        exact absurd (prefix_of_prefix_append hfield (by decide)) (hname next List.mem_cons_self)
      · have hle := ih (fun l hl ↦ hcr l (List.mem_cons_of_mem _ hl))
          (fun l hl ↦ hname l (List.mem_cons_of_mem _ hl)) hrest
        rw [linesBytes_cons, List.length_append, List.length_append]
        show line.length + (2 + _) ≤ _
        omega

/-- The text of a line without a carriage return. -/
theorem text_of_line {line rest : List Byte} (hcr : carriageReturn ∉ line) :
    ((line ++ (crlf ++ rest)).dropWhile (· = space)).takeWhile (· ≠ carriageReturn) =
      line.dropWhile (· = space) := by
  have hdrop : (line ++ (crlf ++ rest)).dropWhile (· = space) =
      line.dropWhile (· = space) ++ (crlf ++ rest) := by
    rw [List.dropWhile_append]
    by_cases hempty : (line.dropWhile (· = space)).isEmpty
    · rw [if_pos hempty, List.isEmpty_iff.mp hempty]
      rfl
    · rw [if_neg hempty]
  have hall : ∀ b ∈ line.dropWhile (· = space), decide (b ≠ carriageReturn) = true := by
    intro b hb
    refine decide_eq_true fun heq ↦ hcr ?_
    rw [← heq]
    exact (List.dropWhile_sublist _).subset hb
  rw [hdrop, List.takeWhile_append_of_pos hall]
  show _ ++ [] = _
  rw [List.append_nil]

/-- The value of a Host header behind lines that are none is the first one with a text. -/
theorem firstHost_of_lines {line value : List Byte} {lines : List (List Byte)}
    (hcr : ∀ l ∈ line :: lines, carriageReturn ∉ l) (hname : ∀ l ∈ lines, ¬ hostField <+: l)
    (hlong : kMinScanStart ≤ line.length)
    (htext : (value.dropWhile (· = space)).takeWhile (· ≠ carriageReturn) ≠ []) :
    ∃ i, FirstHost (linesBytes (line :: lines) ++ (hostField ++ value)) i ∧
      hostText (linesBytes (line :: lines) ++ (hostField ++ value)) i =
        (value.dropWhile (· = space)).takeWhile (· ≠ carriageReturn) ∧
      hostStart (linesBytes (line :: lines) ++ (hostField ++ value)) i =
        (linesBytes (line :: lines)).length + hostField.length +
          (value.takeWhile (· = space)).length := by
  obtain ⟨front, hfront, hlength⟩ := linesBytes_eq_append_crlf line lines
  have hlines : (linesBytes (line :: lines)).length = front.length + 2 := by
    rw [hfront, List.length_append]
    rfl
  have hpattern : (linesBytes (line :: lines) ++ (hostField ++ value)).drop front.length =
      hostPattern ++ value := by
    rw [hfront, List.append_assoc, List.drop_left, hostPattern, List.append_assoc]
  have hvalue : (linesBytes (line :: lines) ++ (hostField ++ value)).drop
      (front.length + kHostPatternLen) = value := drop_of_drop_append hpattern
  have hhostText : hostText (linesBytes (line :: lines) ++ (hostField ++ value)) front.length =
      (value.dropWhile (· = space)).takeWhile (· ≠ carriageReturn) := by
    rw [hostText, hvalue]
  refine ⟨front.length, ⟨⟨Nat.le_trans hlong hlength, ?_, ?_⟩, fun j hj ↦ ?_⟩, hhostText, ?_⟩
  · rw [hpattern]
    exact List.prefix_append _ _
  · rw [hhostText]
    exact htext
  · have hle := length_le_of_hostPattern hcr hname hj.pattern
    omega
  · rw [hostStart, hvalue, hlines]
    rfl

/-! ## A request with a Host header -/

/-- The start of a request: a request line, some headers, a Host header, and anything behind its
line end. -/
structure HostRequest where
  requestLine : List Byte
  method : ∃ method ∈ httpMethods, asciiBytes method <+: requestLine
  requestLine_cr : carriageReturn ∉ requestLine
  headers : List (List Byte)
  headers_cr : ∀ line ∈ headers, carriageReturn ∉ line
  headers_name : ∀ line ∈ headers, ¬ hostField <+: line
  spaces : Nat
  host : List Byte
  host_ne : host ≠ []
  host_cr : carriageReturn ∉ host
  host_space : host.head? ≠ some space
  rest : List Byte

namespace HostRequest

variable (r : HostRequest)

/-- The lines in front of the Host header. -/
def lines : List (List Byte) := r.requestLine :: r.headers

/-- The value of the Host header. -/
def value : List Byte := List.replicate r.spaces space ++ r.host

/-- The bytes of the request. -/
def bytes : List Byte := linesBytes r.lines ++ (hostField ++ (r.value ++ (crlf ++ r.rest)))

/-- The place of the carriage return that ends the Host line. -/
def hostEnd : Nat := (linesBytes r.lines).length + hostField.length + r.value.length

theorem lines_cr : ∀ line ∈ r.lines, carriageReturn ∉ line :=
  List.forall_mem_cons.mpr ⟨r.requestLine_cr, r.headers_cr⟩

/-- A method with its space begins with a prefix that the extractor knows. -/
theorem exists_prefix_of_mem_httpMethods :
    ∀ method ∈ httpMethods, ∃ known ∈ httpMethodPrefixes, known <+: asciiBytes method := by
  decide

theorem exists_known : ∃ known ∈ httpMethodPrefixes, known <+: r.requestLine := by
  obtain ⟨method, hmethod, hline⟩ := r.method
  obtain ⟨known, hknown, hbegin⟩ := exists_prefix_of_mem_httpMethods method hmethod
  exact ⟨known, hknown, hbegin.trans hline⟩

theorem kMinScanStart_le : kMinScanStart ≤ r.requestLine.length := by
  obtain ⟨known, hknown, hbegin⟩ := r.exists_known
  have hlength : known.length = kMinScanStart := length_of_mem_httpMethodPrefixes known hknown
  rw [← hlength]
  exact hbegin.length_le

theorem knownMethod_bytes : knownMethod r.bytes = true := by
  obtain ⟨known, hknown, hbegin⟩ := r.exists_known
  refine List.any_eq_true.mpr ⟨known, hknown, List.isPrefixOf_iff_prefix.mpr ?_⟩
  refine hbegin.trans ?_
  rw [bytes, lines, linesBytes_cons, List.append_assoc]
  exact List.prefix_append _ _

theorem value_cr : carriageReturn ∉ r.value := by
  intro h
  rcases List.mem_append.mp h with h | h
  · exact absurd (List.eq_of_mem_replicate h) (by decide)
  · exact r.host_cr h

/-- The spaces of the value are those in front of the host. -/
theorem takeWhile_value (rest : List Byte) :
    (r.value ++ rest).takeWhile (· = space) = List.replicate r.spaces space := by
  have hspaces : ∀ b ∈ List.replicate r.spaces space, decide (b = space) = true :=
    fun b hb ↦ decide_eq_true (List.eq_of_mem_replicate hb)
  have hhead := r.host_space
  rw [value, List.append_assoc, List.takeWhile_append_of_pos hspaces]
  cases hhost : r.host with
  | nil => exact absurd hhost r.host_ne
  | cons b host =>
      rw [hhost, List.head?_cons] at hhead
      rw [List.cons_append,
        List.takeWhile_cons_of_neg fun hb ↦ hhead (by rw [of_decide_eq_true hb]), List.append_nil]

theorem dropWhile_value : r.value.dropWhile (· = space) = r.host := by
  have htake := r.takeWhile_value []
  rw [List.append_nil] at htake
  rw [dropWhile_eq_drop, htake, value, List.drop_left]

theorem text_value : ((r.value ++ (crlf ++ r.rest)).dropWhile (· = space)).takeWhile
    (· ≠ carriageReturn) = r.host := by
  rw [text_of_line r.value_cr, r.dropWhile_value]

/-- The first Host header of the request is its own. -/
theorem exists_firstHost : ∃ i, FirstHost r.bytes i ∧ hostText r.bytes i = r.host ∧
    hostStart r.bytes i + r.host.length = r.hostEnd := by
  obtain ⟨i, hfirst, htext, hstart⟩ := firstHost_of_lines r.lines_cr r.headers_name
    r.kMinScanStart_le (by rw [r.text_value]; exact r.host_ne)
  refine ⟨i, hfirst, htext.trans r.text_value, ?_⟩
  have hvalue : r.value.length = (List.replicate r.spaces space).length + r.host.length :=
    List.length_append
  rw [r.takeWhile_value] at hstart
  rw [hostEnd, hvalue, ← Nat.add_assoc]
  exact congrArg (· + r.host.length) hstart

/-- The extractor reads the host back from a request whose Host line ends in the inspected window,
and every read of it is in bounds. -/
theorem httpHostText_bytes (hend : r.hostEnd < kMaxHttpInspect) :
    httpHostText r.bytes = .ok (some r.host) := by
  obtain ⟨found, hrun, hfound⟩ := httpHostText_prefix r.bytes (Nat.le_refl kMaxHttpInspect)
  obtain ⟨i, hfirst, htext, hstart⟩ := r.exists_firstHost
  have hpos := List.length_pos_of_ne_nil r.host_ne
  have hhost : found = some r.host := by
    refine (hfound r.host).mpr ⟨r.knownMethod_bytes, i, hfirst, by omega, ?_⟩
    rw [htext, List.take_of_length_le (by omega)]
  rw [httpHostText, extractHttpHost, hrun, hhost]

end HostRequest

/-- A short request. -/
def getRequest : HostRequest where
  requestLine := asciiBytes "GET / HTTP/1.1"
  method := ⟨"GET ", by decide⟩
  requestLine_cr := by decide
  headers := [asciiBytes "Accept: a"]
  headers_cr := by decide
  headers_name := by decide
  spaces := 1
  host := asciiBytes "a.b"
  host_ne := by decide
  host_cr := by decide
  host_space := by decide
  rest := crlf

theorem httpHostText_getRequest : httpHostText getRequest.bytes = .ok (some (asciiBytes "a.b")) :=
  getRequest.httpHostText_bytes (by decide)

/-! ## Prefixes of a request -/

/-- A request: a request line, headers, an empty line and a body. -/
structure HttpRequest where
  requestLine : List Byte
  headers : List (List Byte)
  lines_cr : ∀ line ∈ requestLine :: headers, carriageReturn ∉ line
  headers_ne : ∀ line ∈ headers, line ≠ []
  body : List Byte

namespace HttpRequest

variable (r : HttpRequest)

/-- The bytes of the request. -/
def bytes : List Byte := linesBytes (r.requestLine :: r.headers) ++ (crlf ++ r.body)

/-- The complete value of the first Host header, behind the spaces in front of it. -/
def host : Option (List Byte) :=
  (r.headers.find? fun line ↦ hostField.isPrefixOf line).map fun line ↦
    (line.drop hostField.length).dropWhile (· = space)

/-- A request line with a known method is long enough. -/
theorem kMinScanStart_le (h : knownMethod r.bytes = true) :
    kMinScanStart ≤ r.requestLine.length := by
  obtain ⟨known, hknown, hbegin⟩ := List.any_eq_true.mp h
  have hcr : ∀ known ∈ httpMethodPrefixes, carriageReturn ∉ known := by decide
  have hline : known <+: r.requestLine := by
    have hstart := List.isPrefixOf_iff_prefix.mp hbegin
    rw [bytes, linesBytes_cons, List.append_assoc] at hstart
    exact prefix_of_prefix_append hstart (hcr known hknown)
  have hlength : known.length = kMinScanStart := length_of_mem_httpMethodPrefixes known hknown
  rw [← hlength]
  exact hline.length_le

/-- A Host header with a value is the first one with a text. -/
theorem exists_firstHost (hmethod : knownMethod r.bytes = true) {host : List Byte}
    (hhost : r.host = some host) (hne : host ≠ []) :
    ∃ i, FirstHost r.bytes i ∧ hostText r.bytes i = host := by
  obtain ⟨line, hfind, rfl⟩ := Option.map_eq_some_iff.mp hhost
  obtain ⟨hline, before, after, hheaders, hbefore⟩ := List.find?_eq_some_iff_append.mp hfind
  obtain ⟨value, rfl⟩ := List.isPrefixOf_iff_prefix.mp hline
  rw [List.drop_left] at hne ⊢
  have hcr := r.lines_cr
  rw [hheaders] at hcr
  have hvalue : carriageReturn ∉ value := fun h ↦ hcr (hostField ++ value)
    (List.mem_cons_of_mem _ (List.mem_append_right _ List.mem_cons_self))
    (List.mem_append_right _ h)
  have hlines : ∀ l ∈ r.requestLine :: before, carriageReturn ∉ l := fun l hl ↦ hcr l (by
    rw [← List.cons_append]
    exact List.mem_append_left _ hl)
  have hname : ∀ l ∈ before, ¬ hostField <+: l := by
    intro l hl h
    have hnot := hbefore l hl
    rw [List.isPrefixOf_iff_prefix.mpr h] at hnot
    cases hnot
  have hbytes : r.bytes = linesBytes (r.requestLine :: before) ++
      (hostField ++ (value ++ (crlf ++ (linesBytes after ++ (crlf ++ r.body))))) := by
    rw [bytes, hheaders, ← List.cons_append, linesBytes_append,
      linesBytes_cons (hostField ++ value)]
    simp only [List.append_assoc]
  have htext : ((value ++ (crlf ++ (linesBytes after ++ (crlf ++ r.body)))).dropWhile
      (· = space)).takeWhile (· ≠ carriageReturn) = value.dropWhile (· = space) :=
    text_of_line hvalue
  obtain ⟨i, hfirst, hhostText, -⟩ := firstHost_of_lines hlines hname (r.kMinScanStart_le hmethod)
    (by rw [htext]; exact hne)
  rw [hbytes]
  exact ⟨i, hfirst, hhostText.trans htext⟩

/-- From a prefix of the request comes nothing or the complete value of its Host header. -/
def AnswersComplete (n : Nat) : Prop :=
  ∃ found, httpHostText (r.bytes.take n) = .ok found ∧ ∀ text ∈ found, r.host = some text

/-- The answer to a prefix is complete if the inspected window ends in front of the first text
that stands where a Host header may stand, or if that text is the Host header of the request and
the window has all of it. -/
theorem answersComplete_iff (n : Nat) :
    r.AnswersComplete n ↔ (knownMethod r.bytes = true → ∀ i, FirstHost r.bytes i →
      min kMaxHttpInspect n ≤ hostStart r.bytes i ∨
        hostStart r.bytes i + (hostText r.bytes i).length ≤ min kMaxHttpInspect n ∧
          r.host = some (hostText r.bytes i)) := by
  have hw : min kMaxHttpInspect n ≤ kMaxHttpInspect := Nat.min_le_left _ _
  obtain ⟨found, hrun, hfound⟩ := httpHostText_prefix r.bytes hw
  have hanswer : httpHostText (r.bytes.take n) = .ok found := by
    rw [httpHostText, extractHttpHost, List.take_take, hrun]
  constructor
  · rintro ⟨found', hrun', hcomplete⟩ hmethod i hfirst
    obtain rfl : found' = found := Except.ok.inj (hrun'.symm.trans hanswer)
    rcases Nat.lt_or_ge (hostStart r.bytes i) (min kMaxHttpInspect n) with hlt | hge
    · have htext := hcomplete _ ((hfound _).mpr ⟨hmethod, i, hfirst, hlt, rfl⟩)
      have hne : (hostText r.bytes i).take (min kMaxHttpInspect n - hostStart r.bytes i) ≠ [] := by
        intro hnil
        rcases List.take_eq_nil_iff.mp hnil with hzero | hnil
        · omega
        · exact hfirst.host.text hnil
      obtain ⟨j, hj, hjtext⟩ := r.exists_firstHost hmethod htext hne
      obtain rfl : j = i := Nat.le_antisymm (hj.first i hfirst.host) (hfirst.first j hj.host)
      have hlength := List.take_eq_self_iff _ |>.mp hjtext.symm
      rw [← hjtext] at htext
      exact .inr ⟨by omega, htext⟩
    · exact .inl hge
  · intro hcondition
    refine ⟨found, hanswer, fun text htext ↦ ?_⟩
    obtain ⟨hmethod, i, hfirst, hlt, rfl⟩ := (hfound text).mp htext
    rcases hcondition hmethod i hfirst with hle | ⟨hle, hhost⟩
    · exact absurd hlt (Nat.not_lt_of_le hle)
    · rw [List.take_of_length_le (by omega)]
      exact hhost

/-- A request for `example.com`. -/
def exampleRequest : HttpRequest where
  requestLine := asciiBytes "GET / HTTP/1.1"
  headers := [asciiBytes "Host: example.com"]
  lines_cr := by decide
  headers_ne := by decide
  body := []

/-- A prefix that ends inside of the Host value is answered with a shorter hostname. -/
theorem shortened_host :
    httpHostText (exampleRequest.bytes.take 26) = .ok (some (asciiBytes "exam")) ∧
      exampleRequest.host = some (asciiBytes "example.com") ∧
      ¬ exampleRequest.AnswersComplete 26 := by
  have hrun : httpHostText (exampleRequest.bytes.take 26) = .ok (some (asciiBytes "exam")) := by
    decide
  have hhost : exampleRequest.host = some (asciiBytes "example.com") := by decide
  refine ⟨hrun, hhost, ?_⟩
  rintro ⟨found, hfound, hcomplete⟩
  rw [hrun] at hfound
  obtain rfl := Except.ok.inj hfound
  have htext := (hhost.symm.trans (hcomplete _ rfl))
  exact absurd htext (by decide)

end HttpRequest

end DpdkSpi
