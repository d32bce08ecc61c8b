import DpdkSpi.Confd.Document

/-!
# Writing the generated configuration

The functions of `fastapi_confd.c` between `yaml_string` and `write_config_snapshot`, call by
call, and what they write: when all of them succeed, the lines of the database that the session
reads, in their order.

Lines of optional leaves may be missing when reads fail, because a leaf that cannot be read is
taken for one that does not exist (`Thinned`), and nothing is known about the text any more when a
write fails that nobody looks at.  Everything else makes the functions fail.

What is written for a database can be read as lines in one way only, and databases have the same
file just when they have the same lines (`exports_one_reading`).
-/

namespace DpdkSpi

open Lib

/-- What the functions return: 0 or -1. -/
abbrev Status : Type := Except Unit Unit

/-! ## Programs -/

/-- 0 or -1. -/
def status (ok : Bool) : Status := if ok then .ok () else .error ()

/-- `fputc`, `fputs` or `fprintf`, with a result that is looked at. -/
def fputs (out : Nat) (text : List (BitVec 8)) : Prog Confd Status :=
  .call (.write out text) fun ok ↦ .done (status ok)

/-- Calls that write to a stream, one behind another. -/
def streamWriter (out : Nat) : Writer (Prog Confd Status) where
  succeed := .done (.ok ())
  fail := .done (.error ())
  fputc c := fputs out [c]
  fputs := fputs out
  andThen p q := p.andThen fun _ ↦ q

/-- `yaml_string`. -/
def writeYamlString (out : Nat) (value : List (BitVec 8)) : Prog Confd Status :=
  (streamWriter out).yamlString value

/-- `yaml_string`, and the end of the line. -/
def writeYamlLine (out : Nat) (value : CString) : Prog Confd Status :=
  (writeYamlString out value.bytes).andThen fun _ ↦ fputs out [kNewline]

/-- `emit_optional_string`. -/
def emitOptionalString (out sock : Nat) (key path : String) (indent : Nat) :
    Prog Confd Status :=
  .call (.cdbGetStr sock path) fun
    | none => .done (.ok ())
    | some value =>
        .call (.writeUnchecked out (leafPrefix indent false (word key))) fun _ ↦
          writeYamlLine out value

/-- `emit_optional_u32`. -/
def emitOptionalU32 (out sock : Nat) (key path : String) (indent : Nat) : Prog Confd Status :=
  .call (.cdbGet sock path) fun
    | none => .done (.ok ())
    | some value =>
        fputs out (leafPrefix indent false (word key) ++ (Scalar.number value).bytes ++ [kNewline])

/-- `emit_optional_bool`. -/
def emitOptionalBool (out sock : Nat) (key path : String) (indent : Nat) : Prog Confd Status :=
  .call (.cdbGetBool sock path) fun
    | none => .done (.ok ())
    | some value =>
        fputs out (leafPrefix indent false (word key) ++ (Scalar.truth value).bytes ++ [kNewline])

/-- The call for a leaf of a container. -/
def emitLeaf (out sock : Nat) (base : String) (indent : Nat) (l : Leaf) : Prog Confd Status :=
  match l.kind with
  | .string => emitOptionalString out sock l.key s!"{base}/{l.key}" indent
  | .u32 => emitOptionalU32 out sock l.key s!"{base}/{l.key}" indent
  | .bool => emitOptionalBool out sock l.key s!"{base}/{l.key}" indent

/-- The calls for the leaves of a container. -/
def emitLeaves (out sock : Nat) (base : String) (indent : Nat) (leaves : List Leaf) :
    Prog Confd Status :=
  .forEach (emitLeaf out sock base indent) leaves

/-- The first leaf of an item, which has to exist. -/
def emitItem (out sock : Nat) (base : String) (indent : Nat) (key : String) :
    Prog Confd Status :=
  .call (.cdbGetStr sock s!"{base}/{key}") fun
    | none => .done (.error ())
    | some value =>
        (fputs out (leafPrefix indent true (word key))).andThen fun _ ↦ writeYamlLine out value

/-- `cdb_num_instances`, a heading, and a loop over the instances. -/
def emitInstances (out sock : Nat) (path : String) (heading : List (BitVec 8))
    (f : Nat → Prog Confd Status) : Prog Confd Status :=
  .call (.cdbNumInstances sock path) fun
    | none => .done (.error ())
    | some n => (fputs out heading).andThen fun _ ↦ .forEach f (List.range n)

/-- `write_tcp_reassembly`. -/
def writeTcpReassembly (out sock : Nat) : Prog Confd Status :=
  (fputs out (word "  tcp_reassembly:\n")).andThen fun _ ↦
    emitLeaves out sock "/fastapi:fastapi/spi/tcp_reassembly" 4 tcpReassemblyLeaves

/-- The loop body of `write_spi` over the filters of a group. -/
def writeFilter (out sock group filter : Nat) : Prog Confd Status :=
  (emitItem out sock (filterPath group filter) 8 "protocol").andThen fun _ ↦
    emitLeaves out sock (filterPath group filter) 10 filterLeaves

/-- The loop body of `write_spi` over the filter groups. -/
def writeGroup (out sock group : Nat) : Prog Confd Status :=
  (emitItem out sock (groupPath group) 4 "name").andThen fun _ ↦
    (emitLeaves out sock (groupPath group) 6 groupLeaves).andThen fun _ ↦
      emitInstances out sock s!"{groupPath group}/filters" (word "      filters:\n")
        (writeFilter out sock group)

/-- `write_spi`. -/
def writeSpi (out sock : Nat) : Prog Confd Status :=
  (fputs out (word "\nspi:\n")).andThen fun _ ↦
    (emitLeaves out sock "/fastapi:fastapi/spi" 2 spiLeaves).andThen fun _ ↦
      (writeTcpReassembly out sock).andThen fun _ ↦
        emitInstances out sock "/fastapi:fastapi/spi/filter-groups"
          (word "  filter_groups:\n") (writeGroup out sock)

/-- The loop body of `write_dpi`. -/
def writeDpiFilter (out sock filter : Nat) : Prog Confd Status :=
  (emitItem out sock (dpiFilterPath filter) 4 "hostname_pattern").andThen fun _ ↦
    emitLeaves out sock (dpiFilterPath filter) 6 dpiFilterLeaves

/-- `write_dpi`. -/
def writeDpi (out sock : Nat) : Prog Confd Status :=
  (fputs out (word "\ndpi:\n")).andThen fun _ ↦
    (emitLeaves out sock "/fastapi:fastapi/dpi" 2 dpiLeaves).andThen fun _ ↦
      emitInstances out sock "/fastapi:fastapi/dpi/filters" (word "  filters:\n")
        (writeDpiFilter out sock)

/-- The loop body of `write_virtual_devices`. -/
def writeVirtualDevice (out sock i : Nat) : Prog Confd Status :=
  .call (.cdbGetStr sock (virtualDevicePath i)) fun
    | none => .done (.error ())
    | some value => (fputs out (word "    - ")).andThen fun _ ↦ writeYamlLine out value

/-- `write_virtual_devices`. -/
def writeVirtualDevices (out sock : Nat) : Prog Confd Status :=
  .call (.cdbNumInstances sock "/fastapi:fastapi/eal/virtual_devices") fun
    | none => .done (.error ())
    | some 0 => .done (.ok ())
    | some devices =>
        (fputs out (word "  virtual_devices:\n")).andThen fun _ ↦
          .forEach (writeVirtualDevice out sock) (List.range devices)

/-- A container that has only leaves, in `write_config_snapshot`. -/
def writeContainer (out sock : Nat) (name : String) (leaves : List Leaf) : Prog Confd Status :=
  (fputs out (word s!"\n{name}:\n")).andThen fun _ ↦
    emitLeaves out sock s!"/fastapi:fastapi/{name}" 2 leaves

/-- The writes of `write_config_snapshot`, which `failed` is the result of. -/
def writeDocument (out sock : Nat) : Prog Confd Status :=
  (fputs out (word "eal:\n")).andThen fun _ ↦
    (emitLeaves out sock "/fastapi:fastapi/eal" 2 ealLeaves).andThen fun _ ↦
      (writeVirtualDevices out sock).andThen fun _ ↦
        (writeContainer out sock "port" portLeaves).andThen fun _ ↦
          (writeContainer out sock "mempool" mempoolLeaves).andThen fun _ ↦
            (writeContainer out sock "app" appLeaves).andThen fun _ ↦
              (writeSpi out sock).andThen fun _ ↦ writeDpi out sock

/-! ## What is written -/

/-- The stream `out` on a file, with what has been written to it. -/
def Host.withStream (s : Host) (out i : Nat) (w : Option (List (BitVec 8))) : Host :=
  s.setDescriptor out (some (.stream i w))

@[simp] theorem Host.withStream_withStream (s : Host) (out i j : Nat)
    (w w' : Option (List (BitVec 8))) :
    (s.withStream out i w).withStream out j w' = s.withStream out j w' :=
  s.setDescriptor_setDescriptor ..

/-- The text `t` was written to a stream, or some of it was lost without notice. -/
def Wrote (F : Faults) (w : Option (List (BitVec 8))) (t : List (BitVec 8))
    (w' : Option (List (BitVec 8))) : Prop :=
  w' = w.map (· ++ t) ∨ F.unchecked ∧ w' = none

theorem Wrote.trans {F : Faults} {w w' w'' : Option (List (BitVec 8))} {t u : List (BitVec 8)}
    (h : Wrote F w t w') (h' : Wrote F w' u w'') : Wrote F w (t ++ u) w'' := by
  rcases h with rfl | ⟨hF, rfl⟩
  · rcases h' with rfl | h'
    · refine .inl ?_
      rw [Option.map_map]
      exact congrArg (fun f ↦ w.map f) (funext fun v ↦ List.append_assoc v t u)
    · exact .inr h'
  · rcases h' with rfl | h'
    · exact .inr ⟨hF, rfl⟩
    · exact .inr h'

/-- Reading a session on `sock`, the program writes a text of `T` to the stream `out` or fails, and
changes nothing else. -/
def Writes (F : Faults) (configPath : String) (out sock : Nat) (c : Snapshot)
    (p : Prog Confd Status) (T : List (BitVec 8) → Prop) : Prop :=
  ∀ (s : Host) i w, s.descriptor sock = some (.socket (some c)) → sock ≠ out →
    p.Ensures (confdWorld F configPath) (fun s' ↦ ∃ w', s' = s.withStream out i w')
      (s.withStream out i w) fun r s' ↦
        r = .ok () → ∃ t w', T t ∧ Wrote F w t w' ∧ s' = s.withStream out i w'

section Writes

variable {F : Faults} {configPath : String} {out sock : Nat} {c : Snapshot}
  {p q : Prog Confd Status} {T U : List (BitVec 8) → Prop}

theorem Writes.mono (h : Writes F configPath out sock c p T) (hTU : ∀ t, T t → U t) :
    Writes F configPath out sock c p U := by
  intro s i w hsock hne
  refine (h s i w hsock hne).imp fun r s' _ hr hok ↦ ?_
  obtain ⟨t, w', ht, hwrote, hs⟩ := hr hok
  exact ⟨t, w', hTU t ht, hwrote, hs⟩

theorem writes_ok (hT : T []) : Writes F configPath out sock c (.done (.ok ())) T := by
  intro s i w _ _
  refine Prog.ensures_done ⟨w, rfl⟩ fun _ ↦ ⟨[], w, hT, .inl ?_, rfl⟩
  cases w with
  | none => rfl
  | some v => exact congrArg some (List.append_nil v).symm

theorem writes_error : Writes F configPath out sock c (.done (.error ())) T :=
  fun _ _ w _ _ ↦ Prog.ensures_done ⟨w, rfl⟩ nofun

theorem writes_fputs (text : List (BitVec 8)) :
    Writes F configPath out sock c (fputs out text) (· = text) := by
  intro s i w _ _
  refine ⟨⟨w, rfl⟩, ⟨i, w, s.setDescriptor_self ..⟩, fun ok s' hs' ↦ ?_⟩
  obtain rfl := hs' i w (s.setDescriptor_self ..)
  rw [show (s.withStream out i w).setDescriptor out _ = s.withStream out i _ from
    s.setDescriptor_setDescriptor ..]
  cases ok with
  | false => exact Prog.ensures_done ⟨none, rfl⟩ nofun
  | true => exact Prog.ensures_done ⟨_, rfl⟩ fun _ ↦ ⟨text, _, rfl, .inl rfl, rfl⟩

/-- One program behind the other: the one text, and then the other one. -/
theorem Writes.andThen (hp : Writes F configPath out sock c p T)
    (hq : Writes F configPath out sock c q U) :
    Writes F configPath out sock c (p.andThen fun _ ↦ q)
      fun t ↦ ∃ a b, T a ∧ U b ∧ t = a ++ b := by
  intro s i w hsock hne
  refine (hp s i w hsock hne).andThen (fun _ _ _ _ ↦ nofun) fun _ s' _ hr ↦ ?_
  obtain ⟨a, w', ha, hwrote, rfl⟩ := hr rfl
  refine (hq s i w' hsock hne).imp fun r s'' _ hr hok ↦ ?_
  obtain ⟨b, w'', hb, hwrote', hs⟩ := hr hok
  exact ⟨a ++ b, w'', ⟨a, b, ha, hb, rfl⟩, hwrote.trans hwrote', hs⟩

/-! ### Strings -/

/-- What fails in any case fails in front of another program. -/
theorem Writes.andThen_fails (hp : Writes F configPath out sock c p fun _ ↦ False)
    (q : Prog Confd Status) :
    Writes F configPath out sock c (p.andThen fun _ ↦ q) fun _ ↦ False := by
  intro s i w hsock hne
  refine (hp s i w hsock hne).andThen (fun _ _ _ _ ↦ nofun) fun _ s' _ hr ↦ ?_
  obtain ⟨_, _, hfalse, -⟩ := hr rfl
  exact hfalse.elim

theorem lawful_streamWriter (F : Faults) (configPath : String) (out sock : Nat) (c : Snapshot) :
    (streamWriter out).Lawful
    (fun p t ↦ Writes F configPath out sock c p (· = t))
    (fun p ↦ Writes F configPath out sock c p fun _ ↦ False) where
  succeed := writes_ok rfl
  fail := writes_error
  fputc d := writes_fputs [d]
  fputs := writes_fputs
  andThen hp hq := (Writes.andThen hp hq).mono fun _ ⟨_, _, ha, hb, ht⟩ ↦ ha ▸ hb ▸ ht
  fails_left q hp := hp.andThen_fails q
  fails_right hp hq := (Writes.andThen hp hq).mono fun _ ⟨_, _, _, hfalse, _⟩ ↦ hfalse

theorem writes_yamlString (value : CString) :
    Writes F configPath out sock c (writeYamlString out value.bytes) (· = quotedText value) := by
  rcases (lawful_streamWriter F configPath out sock c).yamlString value.noNul with
    ⟨-, hfails⟩ | ⟨-, hwrites⟩
  · exact hfails.mono fun _ h ↦ h.elim
  · exact hwrites

theorem writes_yamlLine (value : CString) :
    Writes F configPath out sock c (writeYamlLine out value)
      (· = quotedText value ++ [kNewline]) := by
  refine ((writes_yamlString value).andThen (writes_fputs _)).mono ?_
  rintro _ ⟨a, b, rfl, rfl, rfl⟩
  rfl

end Writes

/-! ## Lines -/

/-- A line that is always there when the function succeeds. -/
def Line.mandatory : Line → Bool
  | .leaf _ first _ _ => first
  | .blank | .heading _ _ | .item _ _ => true

/-- The lines `D`, but for lines of optional leaves, which may be missing when reads fail. -/
structure Thinned (F : Faults) (D lines : List Line) : Prop where
  sublist : lines.Sublist D
  mandatory : lines.filter Line.mandatory = D.filter Line.mandatory
  eq : ¬F.flaky → lines = D

theorem Thinned.refl (F : Faults) (D : List Line) : Thinned F D D :=
  ⟨.refl D, rfl, fun _ ↦ rfl⟩

theorem Thinned.append {F : Faults} {D D' lines lines' : List Line} (h : Thinned F D lines)
    (h' : Thinned F D' lines') : Thinned F (D ++ D') (lines ++ lines') where
  sublist := h.sublist.append h'.sublist
  mandatory := by rw [List.filter_append, List.filter_append, h.mandatory, h'.mandatory]
  eq hF := by rw [h.eq hF, h'.eq hF]

/-- The program writes these lines, but for those of optional leaves that cannot be read. -/
def Emits (F : Faults) (configPath : String) (out sock : Nat) (c : Snapshot)
    (p : Prog Confd Status) (D : List Line) : Prop :=
  Writes F configPath out sock c p fun t ↦ ∃ lines, Thinned F D lines ∧ t = render lines

section Emits

variable {F : Faults} {configPath : String} {out sock : Nat} {c : Snapshot}
  {p q : Prog Confd Status} {D E : List Line}

theorem Emits.andThen (hp : Emits F configPath out sock c p D)
    (hq : Emits F configPath out sock c q E) :
    Emits F configPath out sock c (p.andThen fun _ ↦ q) (D ++ E) := by
  refine (Writes.andThen hp hq).mono ?_
  rintro _ ⟨_, _, ⟨lines, hlines, rfl⟩, ⟨lines', hlines', rfl⟩, rfl⟩
  exact ⟨lines ++ lines', hlines.append hlines', (render_append lines lines').symm⟩

/-- Text that is written in one call. -/
theorem emits_fputs {text : List (BitVec 8)} (h : text = render D) :
    Emits F configPath out sock c (fputs out text) D :=
  (writes_fputs text).mono fun _ ht ↦ ⟨D, .refl F D, ht.trans h⟩

theorem emits_forEach {β : Type} {f : β → Prog Confd Status} {lines : β → List Line}
    (h : ∀ x, Emits F configPath out sock c (f x) (lines x)) (xs : List β) :
    Emits F configPath out sock c (.forEach f xs) (xs.flatMap lines) := by
  induction xs with
  | nil => exact writes_ok ⟨[], .refl F [], rfl⟩
  | cons x xs ih =>
      rw [List.flatMap_cons]
      exact (h x).andThen ih

/-- A call that does not change anything, and what follows each of its answers. -/
theorem writes_call {call : ConfdCall} {next : call.Answer → Prog Confd Status}
    {T : List (BitVec 8) → Prop} {A : call.Answer → Prop}
    (hallowed : ∀ s : Host, s.descriptor sock = some (.socket (some c)) →
      (confdWorld F configPath).Allowed s call)
    (hanswers : ∀ s r s', s.descriptor sock = some (.socket (some c)) →
      (confdWorld F configPath).Answers s call r s' → s' = s ∧ A r)
    (hnext : ∀ r, A r → Writes F configPath out sock c (next r) T) :
    Writes F configPath out sock c (.call call next) T := by
  intro s i w hsock hne
  have hsock' : (s.withStream out i w).descriptor sock = some (.socket (some c)) :=
    (s.setDescriptor_of_ne hne _).trans hsock
  refine ⟨⟨w, rfl⟩, hallowed _ hsock', fun r s' hr ↦ ?_⟩
  obtain ⟨rfl, hA⟩ := hanswers _ r s' hsock' hr
  exact hnext r hA s i w hsock hne

/-- A write whose result is not looked at. -/
theorem writes_writeUnchecked {text : List (BitVec 8)} {T : List (BitVec 8) → Prop}
    (hp : Writes F configPath out sock c p T) :
    Writes F configPath out sock c (.call (.writeUnchecked out text) fun _ ↦ p)
      fun t ↦ ∃ b, T b ∧ t = text ++ b := by
  intro s i w hsock hne
  refine ⟨⟨w, rfl⟩, ⟨i, w, s.setDescriptor_self ..⟩, fun _ s' hs' ↦ ?_⟩
  obtain ⟨w', hwrote, rfl⟩ : ∃ w', Wrote F w text w' ∧ s' = s.withStream out i w' := by
    rcases hs' i w (s.setDescriptor_self ..) with hs' | ⟨hF, hs'⟩
    · exact ⟨_, .inl rfl, hs'.trans (s.setDescriptor_setDescriptor ..)⟩
    · exact ⟨none, .inr ⟨hF, rfl⟩, hs'.trans (s.setDescriptor_setDescriptor ..)⟩
  refine (hp s i w' hsock hne).imp fun r s'' _ hr hok ↦ ?_
  obtain ⟨b, w'', hb, hwrote', hs⟩ := hr hok
  exact ⟨text ++ b, w'', ⟨b, hb, rfl⟩, hwrote.trans hwrote', hs⟩

/-- The line of a leaf that was read. -/
theorem render_leaf (indent : Nat) (first : Bool) (key : List (BitVec 8)) (v : Scalar) :
    render [.leaf indent first key v] = leafPrefix indent first key ++ (v.bytes ++ [kNewline]) := by
  show (leafPrefix indent first key ++ v.bytes ++ [kNewline]) ++ [] = _
  rw [List.append_nil, List.append_assoc]

/-- Leaving a leaf out that does not exist, or cannot be read. -/
theorem emits_skip {x : Option Scalar} {indent : Nat} {key : List (BitVec 8)}
    (h : none = x ∨ F.flaky) :
    Emits F configPath out sock c (.done (.ok ()))
      (x.map (.leaf indent false key)).toList := by
  refine writes_ok ⟨[], ⟨List.nil_sublist _, ?_, fun hF ↦ ?_⟩, rfl⟩
  · cases x with
    | none => rfl
    | some v => rfl
  · rcases h with rfl | h
    · rfl
    · exact absurd h hF

theorem emits_leaf (base : String) (indent : Nat) (l : Leaf) :
    Emits F configPath out sock c (emitLeaf out sock base indent l)
      (c.leafLines base indent l) := by
  have hallowed : ∀ s : Host, s.descriptor sock = some (.socket (some c)) →
      ∃ c', s.descriptor sock = some (.socket (some c')) := fun s h ↦ ⟨c, h⟩
  have hline : ∀ v, leafPrefix indent false (word l.key) ++ (Scalar.bytes v ++ [kNewline]) =
      render [.leaf indent false (word l.key) v] := fun v ↦ (render_leaf ..).symm
  unfold Snapshot.leafLines emitLeaf
  cases l.kind with
  | string =>
      refine writes_call (A := fun r ↦ r = c.str _ ∨ F.flaky ∧ r = none) hallowed
        (fun s r s' hs hr ↦ ⟨hr.1, hr.2 c hs⟩) ?_
      rintro (_ | v) hv
      · refine emits_skip ?_
        rcases hv with hv | hv
        · exact .inl (congrArg (Option.map Scalar.text) hv)
        · exact .inr hv.1
      · obtain hv : some v = c.str _ := hv.resolve_right fun h ↦ Option.some_ne_none v h.2
        refine (writes_writeUnchecked (writes_yamlLine v)).mono ?_
        rintro _ ⟨_, rfl, rfl⟩
        refine ⟨_, .refl F _, ?_⟩
        unfold Snapshot.leaf
        rw [← hv]
        exact hline (.text v)
  | u32 =>
      refine writes_call (A := fun r ↦ r = c.num _ ∨ F.flaky ∧ r = none) hallowed
        (fun s r s' hs hr ↦ ⟨hr.1, hr.2 c hs⟩) ?_
      rintro (_ | n) hn
      · refine emits_skip ?_
        rcases hn with hn | hn
        · exact .inl (congrArg (Option.map Scalar.number) hn)
        · exact .inr hn.1
      · obtain hn : some n = c.num _ := hn.resolve_right fun h ↦ Option.some_ne_none n h.2
        refine emits_fputs ?_
        unfold Snapshot.leaf
        rw [← hn, List.append_assoc]
        exact hline (.number n)
  | bool =>
      refine writes_call (A := fun r ↦ r = c.bool _ ∨ F.flaky ∧ r = none) hallowed
        (fun s r s' hs hr ↦ ⟨hr.1, hr.2 c hs⟩) ?_
      rintro (_ | b) hb
      · refine emits_skip ?_
        rcases hb with hb | hb
        · exact .inl (congrArg (Option.map Scalar.truth) hb)
        · exact .inr hb.1
      · obtain hb : some b = c.bool _ := hb.resolve_right fun h ↦ Option.some_ne_none b h.2
        refine emits_fputs ?_
        unfold Snapshot.leaf
        rw [← hb, List.append_assoc]
        exact hline (.truth b)

theorem emits_leaves (base : String) (indent : Nat) (leaves : List Leaf) :
    Emits F configPath out sock c (emitLeaves out sock base indent leaves)
      (c.leavesLines base indent leaves) :=
  emits_forEach (emits_leaf base indent) leaves

/-- A string that has to be there. -/
theorem emits_string {path : String} {next : Option CString → Prog Confd Status}
    {line : CString → Line} (hnone : next none = .done (.error ()))
    (hnext : ∀ v, Emits F configPath out sock c (next (some v)) [line v]) :
    Emits F configPath out sock c (.call (.cdbGetStr sock path) next)
      ((c.str path).map line).toList := by
  refine writes_call (A := fun r ↦ r = c.str path ∨ F.flaky ∧ r = none)
    (fun s h ↦ ⟨c, h⟩) (fun s r s' hs hr ↦ ⟨hr.1, hr.2 c hs⟩) ?_
  rintro (_ | v) hv
  · rw [hnone]
    exact writes_error
  · obtain hv : some v = c.str path := hv.resolve_right fun h ↦ Option.some_ne_none v h.2
    rw [← hv]
    exact hnext v

theorem emits_item (base : String) (indent : Nat) (key : String) :
    Emits F configPath out sock c (emitItem out sock base indent key)
      (c.itemLine base indent key) := by
  refine emits_string rfl fun v ↦ ((writes_fputs _).andThen (writes_yamlLine v)).mono ?_
  rintro _ ⟨_, _, rfl, rfl, rfl⟩
  exact ⟨_, .refl F _, (render_leaf indent true (word key) (.text v)).symm⟩

theorem emits_instances {path : String} {heading : List (BitVec 8)} {title : Line}
    {f : Nat → Prog Confd Status} {lines : Nat → List Line} (htitle : heading = render [title])
    (hf : ∀ k, Emits F configPath out sock c (f k) (lines k)) :
    Emits F configPath out sock c (emitInstances out sock path heading f)
      (title :: (List.range (c.instances path)).flatMap lines) := by
  refine writes_call (A := fun r ↦ r = some (c.instances path) ∨ r = none)
    (fun s h ↦ ⟨c, h⟩) (fun s r s' hs hr ↦ ⟨hr.1, hr.2 c hs⟩) ?_
  rintro (_ | n) hn
  · exact writes_error
  · obtain rfl : n = c.instances path :=
      Option.some.inj (hn.resolve_right (Option.some_ne_none n))
    exact (emits_fputs htitle).andThen (emits_forEach hf _)

theorem emits_tcpReassembly :
    Emits F configPath out sock c (writeTcpReassembly out sock) c.tcpReassemblyLines :=
  (emits_fputs (D := [.heading 2 (word "tcp_reassembly")]) (by decide)).andThen
    (emits_leaves _ 4 _)

theorem emits_filter (group filter : Nat) :
    Emits F configPath out sock c (writeFilter out sock group filter)
      (c.filterLines group filter) :=
  (emits_item _ 8 _).andThen (emits_leaves _ 10 _)

theorem emits_group (group : Nat) :
    Emits F configPath out sock c (writeGroup out sock group) (c.groupLines group) :=
  (emits_item _ 4 _).andThen ((emits_leaves _ 6 _).andThen
    (emits_instances (by decide) (emits_filter group)))

theorem emits_spi : Emits F configPath out sock c (writeSpi out sock) c.spiLines :=
  (emits_fputs (by decide)).andThen ((emits_leaves _ 2 _).andThen (emits_tcpReassembly.andThen
    (emits_instances (by decide) emits_group)))

theorem emits_dpi : Emits F configPath out sock c (writeDpi out sock) c.dpiLines :=
  (emits_fputs (by decide)).andThen ((emits_leaves _ 2 _).andThen
    (emits_instances (by decide) fun _ ↦ (emits_item _ 4 _).andThen (emits_leaves _ 6 _)))

theorem emits_virtualDevices :
    Emits F configPath out sock c (writeVirtualDevices out sock) c.virtualDevicesLines := by
  have hdevice : ∀ i, Emits F configPath out sock c (writeVirtualDevice out sock i)
      (c.virtualDeviceLine i) := by
    intro i
    refine emits_string rfl fun v ↦ ((writes_fputs _).andThen (writes_yamlLine v)).mono ?_
    rintro _ ⟨_, _, rfl, rfl, rfl⟩
    refine ⟨_, .refl F _, ?_⟩
    show _ = (spaces 4 ++ (kDash :: kSpace :: quotedText v) ++ [kNewline]) ++ []
    rw [List.append_nil, List.append_assoc]
    rfl
  refine writes_call (A := fun r ↦ r = some (c.instances _) ∨ r = none)
    (fun s h ↦ ⟨c, h⟩) (fun s r s' hs hr ↦ ⟨hr.1, hr.2 c hs⟩) ?_
  unfold Snapshot.virtualDevicesLines
  rintro (_ | n) hn
  · exact writes_error
  · rw [← Option.some.inj (hn.resolve_right (Option.some_ne_none n))]
    cases n with
    | zero => exact writes_ok ⟨[], .refl F [], rfl⟩
    | succ n =>
        exact Emits.andThen (D := [.heading 2 (word "virtual_devices")])
          (emits_fputs (by decide)) (emits_forEach hdevice _)

theorem emits_container {name : String} (leaves : List Leaf)
    (hname : word s!"\n{name}:\n" = render [.blank, .heading 0 (word name)]) :
    Emits F configPath out sock c (writeContainer out sock name leaves)
      (c.containerLines name leaves) :=
  (emits_fputs hname).andThen (emits_leaves _ 2 leaves)

/-- **The whole document** is what is written for a database. -/
theorem emits_document :
    Emits F configPath out sock c (writeDocument out sock) c.documentLines :=
  (emits_fputs (D := [.heading 0 (word "eal")]) (by decide)).andThen
    ((emits_leaves _ 2 _).andThen (emits_virtualDevices.andThen
      ((emits_container portLeaves (by decide)).andThen
        ((emits_container mempoolLeaves (by decide)).andThen
          ((emits_container appLeaves (by decide)).andThen (emits_spi.andThen emits_dpi))))))

end Emits

/-! ## One reading -/

/-- In a run in which it reads the database `c` and does not fail, the program has written `text` to
an empty stream when it is through with the document. -/
def Exports (F : Faults) (configPath : String) (c : Snapshot) (text : List (BitVec 8)) : Prop :=
  ∃ out sock i, ∃ s s' : Host, s.descriptor sock = some (.socket (some c)) ∧
    s.descriptor out = some (.stream i (some [])) ∧
    (writeDocument out sock).Ends (confdWorld F configPath) s (.ok ()) s' ∧
    s'.descriptor out = some (.stream i (some text))

section Exports

variable {F : Faults} {configPath : String} {c : Snapshot} {text : List (BitVec 8)}

/-- What is written is the document, but for leaves that could not be read. -/
theorem Exports.document (h : Exports F configPath c text) :
    ∃ lines, Thinned F c.documentLines lines ∧ text = render lines := by
  obtain ⟨out, sock, i, s, s', hsock, hout, hends, htext⟩ := h
  have hne : sock ≠ out := by
    rintro rfl
    cases hsock.symm.trans hout
  have hself : s.withStream out i (some []) = s := by
    unfold Host.withStream Host.setDescriptor
    rw [← hout, Function.update_eq_self]
  have hemits : Emits F configPath out sock c (writeDocument out sock) c.documentLines :=
    emits_document
  have hensures := hemits s i (some []) hsock hne
  rw [hself] at hensures
  obtain ⟨_, w, ⟨lines, hlines, rfl⟩, hwrote, rfl⟩ := hends.ensured hensures rfl
  obtain ⟨-, rfl⟩ := Descriptor.stream.inj
    (Option.some.inj ((s.setDescriptor_self out _).symm.trans htext))
  rcases hwrote with hwrote | ⟨-, hlost⟩
  · exact ⟨lines, hlines, Option.some.inj hwrote⟩
  · cases hlost

/-- **A file has one reading.**  Whatever the values of a database are, what is written for it is
the bytes of its lines, without those of leaves that could not be read, and there are no other
lines with these bytes.  When every leaf can be read, two databases have the same file just when
they have the same lines, and databases with the same leaves have the same lines but for the
values. -/
theorem exports_one_reading (h : Exports F configPath c text) :
    (∃ lines, Thinned F c.documentLines lines ∧ text = render lines ∧
      ∀ lines', (∀ l ∈ lines', l.WellKeyed) → render lines' = text → lines' = lines) ∧
      (¬F.flaky → text = render c.documentLines ∧
        ∀ c' text', Exports F configPath c' text' →
          (text' = text ↔ c'.documentLines = c.documentLines) ∧
          (c.Alike c' → c'.documentLines.map Line.shape = c.documentLines.map Line.shape)) := by
  have hkeyed : ∀ {c : Snapshot} {lines}, Thinned F c.documentLines lines →
      ∀ l ∈ lines, l.WellKeyed :=
    fun hlines l hl ↦ wellKeyed_documentLines _ l (hlines.sublist.subset hl)
  obtain ⟨lines, hlines, htext⟩ := h.document
  refine ⟨⟨lines, hlines, htext, fun lines' hlines' heq ↦ ?_⟩, fun hF ↦ ?_⟩
  · exact render_inj hlines' (hkeyed hlines) (heq.trans htext)
  · obtain rfl := hlines.eq hF
    refine ⟨htext, fun c' text' h' ↦ ?_⟩
    obtain ⟨lines', hlines', htext'⟩ := h'.document
    obtain rfl := hlines'.eq hF
    refine ⟨⟨fun heq ↦ ?_, fun heq ↦ ?_⟩, fun halike ↦ halike.documentLines.symm⟩
    · exact render_inj (hkeyed hlines') (hkeyed hlines) (htext'.symm.trans (heq.trans htext))
    · rw [htext', htext, heq]

end Exports

/-- A database with one filter group. -/
def oneGroup (name : CString) : Snapshot where
  str path := if path = "/fastapi:fastapi/spi/filter-groups[0]/name" then some name else none
  num path := if path = "/fastapi:fastapi/spi/filter-groups[0]/precedence" then some 10 else none
  bool path := if path = "/fastapi:fastapi/dpi/enabled" then some true else none
  instances path := if path = "/fastapi:fastapi/spi/filter-groups" then 1 else 0

/-- A name that would be two more lines without its quotes. -/
def brokenName : CString := ⟨word "a\"\n    - name: \"b", by decide⟩

/-- A host with a session and an empty stream. -/
def readingHost (c : Snapshot) : Host where
  descriptor fd :=
    if fd = 3 then some (.socket (some c))
    else if fd = 4 then some (.stream 0 (some []))
    else none
  files := .single "config.yaml" []
  sessions := [c]
  published := 0

/-- The run for a database on that host. -/
theorem exports_oneGroup {name : CString} {text : List (BitVec 8)}
    (hok : ((writeDocument 4 3).eval (confdAnswer (oneGroup name))
      (readingHost (oneGroup name))).1 = .ok ())
    (htext : ((writeDocument 4 3).eval (confdAnswer (oneGroup name))
      (readingHost (oneGroup name))).2.stream 4 = some (0, some text)) :
    Exports noFaults "config.yaml" (oneGroup name) text := by
  refine ⟨4, 3, 0, readingHost (oneGroup name), _, rfl, rfl, ?_, Host.descriptor_of_stream htext⟩
  have hends := Prog.ends_eval (answers_confdAnswer noFaults "config.yaml" (oneGroup name))
    (writeDocument 4 3) (s := readingHost (oneGroup name))
  rw [hok] at hends
  exact hends

/-- That name and a plain one. -/
theorem exports_one_reading_brokenName :
    (∃ lines, render lines = render (oneGroup brokenName).documentLines ∧
      ∀ lines', (∀ l ∈ lines', l.WellKeyed) →
        render lines' = render (oneGroup brokenName).documentLines → lines' = lines) ∧
      render (oneGroup ⟨word "a", by decide⟩).documentLines ≠
        render (oneGroup brokenName).documentLines ∧
      (oneGroup ⟨word "a", by decide⟩).documentLines.map Line.shape =
        (oneGroup brokenName).documentLines.map Line.shape := by
  have hbroken : Exports noFaults "config.yaml" (oneGroup brokenName)
      (render (oneGroup brokenName).documentLines) :=
    exports_oneGroup (by decide +kernel) (by decide +kernel)
  have hplain : Exports noFaults "config.yaml" (oneGroup ⟨word "a", by decide⟩)
      (render (oneGroup ⟨word "a", by decide⟩).documentLines) :=
    exports_oneGroup (by decide +kernel) (by decide +kernel)
  have halike : (oneGroup brokenName).Alike (oneGroup ⟨word "a", by decide⟩) := by
    refine ⟨fun path ↦ ?_, fun _ ↦ rfl, fun _ ↦ rfl, fun _ ↦ rfl⟩
    unfold oneGroup
    dsimp only
    split
    · rfl
    · rfl
  obtain ⟨⟨lines, -, htext, hone⟩, hall⟩ := exports_one_reading hbroken
  obtain ⟨-, hother⟩ := hall id
  obtain ⟨hsame, hshape⟩ := hother _ _ hplain
  refine ⟨⟨lines, htext.symm, hone⟩, fun heq ↦ ?_, hshape halike⟩
  exact absurd (hsame.mp heq) (by decide +kernel)

end DpdkSpi
