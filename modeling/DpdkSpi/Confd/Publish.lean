import Mathlib.Data.Fintype.EquivFin
import DpdkSpi.Confd.Emit

/-!
# Publishing the generated configuration

What the ConfD subscriber does for a commit, after `fastapi_confd.c`: it reads a snapshot of the
database in a session, writes it to a temporary file, renames that file to the configuration file
and sends a signal to the DPDK process.

Whenever something fails with notice and whenever the host crashes, the configuration file is there
and holds the document of one snapshot, but for optional leaves whose reads failed, or what it held
in the beginning (`configFile_complete`).  A commit that fails may leave a stream open, and nothing
closes it later (`commits_leave_streams`).
-/

namespace DpdkSpi

open Lib

/-! ## Programs -/

/-- `PATH_BUF_SIZE`. -/
def kPathBufSize : Nat := 4096

/-- `fflush`. -/
def fflush (out : Nat) : Prog Confd Status := .call (.fflush out) fun ok ↦ .done (status ok)

/-- `fsync`. -/
def fsync (fd : Nat) : Prog Confd Status := .call (.fsync fd) fun ok ↦ .done (status ok)

/-- `fclose`. -/
def fclose (out : Nat) : Prog Confd Status := .call (.fclose out) fun ok ↦ .done (status ok)

/-- Removing the temporary file, before -1 is returned. -/
def giveUp (temporaryPath : String) : Prog Confd Status :=
  .call (.unlink temporaryPath) fun _ ↦ .done (.error ())

/-- `write_config_snapshot`, behind the opening of the stream. -/
def writeTemporary (configPath temporaryPath : String) (fd sock : Nat) : Prog Confd Status :=
  ((writeDocument fd sock).andThen fun _ ↦ (fflush fd).andThen fun _ ↦
    (fsync fd).andThen fun _ ↦ fclose fd) >>= fun
  | .error () => giveUp temporaryPath
  | .ok () =>
      .call (.rename temporaryPath configPath) fun ok ↦
        if ok then .done (.ok ()) else giveUp temporaryPath

/-- `write_config_snapshot`. -/
def writeConfigSnapshot (configPath : String) (sock : Nat) : Prog Confd Status :=
  if kPathBufSize ≤ (configPath ++ ".tmp.XXXXXX").utf8ByteSize then .done (.error ())
  else .call (.mkstemp (configPath ++ ".tmp.")) fun
    | none => .done (.error ())
    | some (fd, temporaryPath) =>
        .call (.fdopen fd) fun ok ↦
          if ok then writeTemporary configPath temporaryPath fd sock
          else .call (.close fd) fun _ ↦ giveUp temporaryPath

/-- `open_cdb_socket`, for an address that is one. -/
def openCdbSocket : Prog Confd (Option Nat) :=
  .call .socket fun
    | none => .done none
    | some sock =>
        .call (.cdbConnect sock) fun ok ↦
          if ok then .done (some sock) else .call (.closeSocket sock) fun _ ↦ .done none

/-- `process_commit`, behind the opening of the socket. -/
def readSession (configPath : String) (sock : Nat) : Prog Confd Status :=
  .call (.cdbStartSession sock) fun ok ↦
    if ok then
      writeConfigSnapshot configPath sock >>= fun result ↦
        .call (.cdbEndSession sock) fun _ ↦ .call (.closeSocket sock) fun _ ↦ .done result
    else .call (.closeSocket sock) fun _ ↦ .done (.error ())

/-- `process_commit`. -/
def processCommit (configPath : String) : Prog Confd Status :=
  openCdbSocket >>= fun
    | none => .done (.error ())
    | some sock => readSession configPath sock

/-- The call of `kill` in `signal_dpdk_reload`, when a process has been found. -/
def signalProcess (pid : Int) : Prog Confd (Status × Int) :=
  if pid ≤ 0 then .done (.error (), pid) else .call (.kill pid) fun ok ↦ .done (status ok, pid)

/-- `signal_dpdk_reload`, with the value of `dpdk_pid` before and after. -/
def signalDpdkReload (dpdkPid : Int) : Prog Confd (Status × Int) :=
  if dpdkPid ≤ 0 then .call .pidof signalProcess else signalProcess dpdkPid

/-- What `main` does with a commit. -/
def publishCommit (configPath : String) (dpdkPid : Int) : Prog Confd (Status × Int) :=
  processCommit configPath >>= fun
    | .error () => .done (.error (), dpdkPid)
    | .ok () => signalDpdkReload dpdkPid

/-- The loop of `main`, for at most so many commits. -/
def mainLoop (configPath : String) : Nat → Int → Prog Confd Unit
  | 0, _ => .done ()
  | commits + 1, dpdkPid =>
      .call .cdbReadSubscriptionSocket fun ok ↦
        if ok then
          publishCommit configPath dpdkPid >>= fun published ↦
            .call .cdbSyncSubscriptionSocket fun ok ↦
              if ok then mainLoop configPath commits published.2 else .done ()
        else .done ()

/-! ## The configuration file -/

/-- The document of a snapshot, without lines of optional leaves that could not be read. -/
def IsDocument (F : Faults) (c : Snapshot) (text : List (BitVec 8)) : Prop :=
  ∃ lines, Thinned F c.documentLines lines ∧ text = render lines

/-- When every leaf can be read, no line is missing. -/
theorem IsDocument.whole {F : Faults} {c : Snapshot} {text : List (BitVec 8)}
    (h : IsDocument F c text) (hF : ¬F.flaky) : text = render c.documentLines := by
  obtain ⟨lines, hlines, rfl⟩ := h
  rw [hlines.eq hF]

/-- What the configuration file may hold: what it held in the beginning, or the document of a
session. -/
def Publishable (F : Faults) (original : List (BitVec 8) → Prop) (sessions : List Snapshot)
    (text : List (BitVec 8)) : Prop :=
  original text ∨ ∃ c ∈ sessions, IsDocument F c text

/-- What the configuration file holds after so many sessions: what it held in the beginning, or
the document of the last of them. -/
def HoldsPublished (F : Faults) (original : List (BitVec 8) → Prop) (sessions : List Snapshot)
    (published : Nat) (text : List (BitVec 8)) : Prop :=
  match published with
  | 0 => original text
  | k + 1 => ∃ c, sessions[k]? = some c ∧ IsDocument F c text

/-- The file that is behind a descriptor. -/
def Descriptor.inode : Descriptor → Option Nat
  | .socket _ => none
  | .file i | .stream i _ => some i

/-- What holds all the time. -/
structure Host.Inv (F : Faults) (configPath : String) (original : List (BitVec 8) → Prop)
    (s : Host) : Prop where
  secured : s.files.Secured (Publishable F original s.sessions) configPath
  current : ∃ i text, s.files.entry configPath = some i ∧ s.files.inode i = ⟨some text, true⟩ ∧
    HoldsPublished F original s.sessions s.published text
  published_le : s.published ≤ s.sessions.length
  /-- No file that is open can be found under the name of the configuration file. -/
  unnamed : ∀ fd d i, s.descriptor fd = some d → d.inode = some i → s.files.Unnamed configPath i
  opened_lt : ∀ fd d i, s.descriptor fd = some d → d.inode = some i → i < s.files.next

namespace Host.Inv

variable {F : Faults} {configPath : String} {original : List (BitVec 8) → Prop} {s : Host}

/-- Descriptors may change, as long as they stand for files that have no name. -/
theorem setDescriptor (h : s.Inv F configPath original) {fd : Nat} {d : Option Descriptor}
    (hd : ∀ e i, d = some e → e.inode = some i →
      s.files.Unnamed configPath i ∧ i < s.files.next) :
    (s.setDescriptor fd d).Inv F configPath original := by
  have hopen : ∀ fd' e i, (s.setDescriptor fd d).descriptor fd' = some e → e.inode = some i →
      s.files.Unnamed configPath i ∧ i < s.files.next := by
    intro fd' e i he hi
    by_cases hfd : fd' = fd
    · subst hfd
      exact hd e i ((s.setDescriptor_self ..).symm.trans he) hi
    · have he := (s.setDescriptor_of_ne hfd d).symm.trans he
      exact ⟨h.unnamed fd' e i he hi, h.opened_lt fd' e i he hi⟩
  exact
    { secured := h.secured
      current := h.current
      published_le := h.published_le
      unnamed := fun fd' e i he hi ↦ (hopen fd' e i he hi).1
      opened_lt := fun fd' e i he hi ↦ (hopen fd' e i he hi).2 }

/-- Sockets and closed descriptors do not stand for files. -/
theorem setSocket (h : s.Inv F configPath original) (fd : Nat) (session : Option Snapshot) :
    (s.setDescriptor fd (some (.socket session))).Inv F configPath original :=
  h.setDescriptor fun e i he hi ↦ by
    obtain rfl := Option.some.inj he
    cases hi

theorem closeDescriptor (h : s.Inv F configPath original) (fd : Nat) :
    (s.setDescriptor fd none).Inv F configPath original :=
  h.setDescriptor nofun

/-- A file that has no name may change. -/
theorem setInode (h : s.Inv F configPath original) {i : Nat} (hi : s.files.Unnamed configPath i)
    (v : Inode (BitVec 8)) : (s.setInode i v).Inv F configPath original where
  secured := h.secured.setInode hi v
  current := by
    obtain ⟨j, text, hentry, hinode, htext⟩ := h.current
    have hne : j ≠ i := by
      rintro rfl
      exact hi (hentry ▸ s.files.entry_onDisk configPath)
    have hsame : (s.setInode i v).files.inode j = s.files.inode j := Function.update_of_ne hne ..
    exact ⟨j, text, hentry, hsame.trans hinode, htext⟩
  published_le := h.published_le
  unnamed := h.unnamed
  opened_lt := h.opened_lt

/-- A session begins. -/
theorem addSession (h : s.Inv F configPath original) (c : Snapshot) :
    { s with sessions := s.sessions ++ [c] }.Inv F configPath original where
  secured := h.secured.mono fun text htext ↦ by
    rcases htext with htext | ⟨c', hc', htext⟩
    · exact .inl htext
    · exact .inr ⟨c', List.mem_append_left _ hc', htext⟩
  current := by
    obtain ⟨j, text, hentry, hinode, htext⟩ := h.current
    refine ⟨j, text, hentry, hinode, ?_⟩
    show HoldsPublished F original (s.sessions ++ [c]) s.published text
    have hle := h.published_le
    revert htext hle
    cases s.published with
    | zero => exact fun htext _ ↦ htext
    | succ k =>
        rintro ⟨c', hc', htext⟩ hle
        exact ⟨c', (List.getElem?_append_left (Nat.lt_of_succ_le hle)).trans hc', htext⟩
  published_le := h.published_le.trans (by rw [List.length_append]; exact Nat.le_add_right ..)
  unnamed := h.unnamed
  opened_lt := h.opened_lt

/-- A temporary file is created. -/
theorem createFile (h : s.Inv F configPath original) (fd : Nat) {path : String}
    (hpath : configPath ≠ path) : (s.createFile fd path).Inv F configPath original := by
  have hopen : ∀ fd' d i, (s.createFile fd path).descriptor fd' = some d → d.inode = some i →
      (s.files.create path).Unnamed configPath i ∧ i < s.files.next + 1 := by
    intro fd' d i hd hi
    by_cases hfd : fd' = fd
    · subst hfd
      obtain rfl := Option.some.inj ((s.createFile_self fd' path).symm.trans hd)
      obtain rfl : s.files.next = i := Option.some.inj hi
      exact ⟨(s.files.unnamed_next configPath).create hpath, Nat.lt_succ_self _⟩
    · have hd := (s.createFile_of_ne hfd path).symm.trans hd
      exact ⟨(h.unnamed fd' d i hd hi).create hpath,
        (h.opened_lt fd' d i hd hi).trans (Nat.lt_succ_self _)⟩
  obtain ⟨j, text, hentry, hinode, htext⟩ := h.current
  have hne : j ≠ s.files.next :=
    (s.files.onDisk_lt configPath j (hentry ▸ s.files.entry_onDisk configPath)).ne
  exact
    { secured := h.secured.create hpath
      current := ⟨j, text, (Function.update_of_ne hpath _ s.files.entry).trans hentry,
        (Function.update_of_ne hne _ s.files.inode).trans hinode, htext⟩
      published_le := h.published_le
      unnamed := fun fd' d i hd hi ↦ (hopen fd' d i hd hi).1
      opened_lt := fun fd' d i hd hi ↦ (hopen fd' d i hd hi).2 }

/-- A temporary file is removed. -/
theorem unlink (h : s.Inv F configPath original) {path : String} (hpath : configPath ≠ path) :
    { s with files := s.files.unlink path }.Inv F configPath original where
  secured := h.secured.unlink hpath
  current := by
    obtain ⟨j, text, hentry, hinode, htext⟩ := h.current
    exact ⟨j, text, (Function.update_of_ne hpath _ s.files.entry).trans hentry, hinode, htext⟩
  published_le := h.published_le
  unnamed fd d i hd hi := (h.unnamed fd d i hd hi).unlink path
  opened_lt := h.opened_lt

/-- A temporary file with the document of the last session takes the place of the configuration
file. -/
theorem rename (h : s.Inv F configPath original) {path : String} (hpath : configPath ≠ path)
    {i : Nat} {c : Snapshot} {text : List (BitVec 8)} (hentry : s.files.entry path = some i)
    (hinode : s.files.inode i = ⟨some text, true⟩) (hlast : s.sessions.getLast? = some c)
    (htext : IsDocument F c text)
    (hclosed : ∀ fd d, s.descriptor fd = some d → d.inode ≠ some i) :
    { s with files := s.files.rename path configPath, published := s.sessions.length }.Inv
      F configPath original where
  secured := h.secured.rename hpath hentry hinode (.inr ⟨c, List.mem_of_getLast? hlast, htext⟩)
  current := by
    refine ⟨i, text, ?_, hinode, ?_⟩
    · show Function.update (Function.update s.files.entry configPath _) path none configPath = _
      rw [Function.update_of_ne hpath, Function.update_self, hentry]
    · obtain ⟨before, hbefore⟩ := List.getLast?_eq_some_iff.mp hlast
      show HoldsPublished F original s.sessions s.sessions.length text
      rw [hbefore, List.length_append]
      exact ⟨c, List.getElem?_concat_length .., htext⟩
  published_le := le_rfl
  unnamed fd d j hd hj := (h.unnamed fd d j hd hj).rename fun heq ↦ by
    obtain rfl : i = j := Option.some.inj (hentry.symm.trans heq)
    exact hclosed fd d hd hj
  opened_lt := h.opened_lt

end Host.Inv

/-! ## A snapshot -/

/-- The descriptors are as they were before, but for a stream that is left open by a failure. -/
def Leaves (before : Nat → Option Descriptor) (r : Status) (s : Host) : Prop :=
  s.descriptor = before ∨ r = .error () ∧ ∃ fd i w, before fd = none ∧
    s.descriptor = Function.update before fd (some (.stream i w))

/-- While the temporary file is written, and until its stream is closed. -/
structure Temporary (F : Faults) (configPath : String) (original : List (BitVec 8) → Prop)
    (sessions : List Snapshot) (before : Nat → Option Descriptor) (path : String) (fd i : Nat)
    (w : Option (List (BitVec 8))) (s : Host) : Prop where
  inv : s.Inv F configPath original
  sessions : s.sessions = sessions
  descriptor : s.descriptor = Function.update before fd (some (.stream i w))
  entry : s.files.entry path = some i

section Snapshot

variable {F : Faults} {configPath : String} {original : List (BitVec 8) → Prop}
  {sessions : List Snapshot} {before : Nat → Option Descriptor} {path : String} {fd i : Nat}
  {w : Option (List (BitVec 8))} {s : Host}

namespace Temporary

theorem stream (h : Temporary F configPath original sessions before path fd i w s) :
    s.descriptor fd = some (.stream i w) := by
  rw [h.descriptor, Function.update_self]

theorem unnamed (h : Temporary F configPath original sessions before path fd i w s) :
    s.files.Unnamed configPath i ∧ i < s.files.next :=
  ⟨h.inv.unnamed fd _ i h.stream rfl, h.inv.opened_lt fd _ i h.stream rfl⟩

theorem withStream (h : Temporary F configPath original sessions before path fd i w s)
    (w' : Option (List (BitVec 8))) :
    Temporary F configPath original sessions before path fd i w' (s.withStream fd i w') where
  inv := h.inv.setDescriptor fun e j he hj ↦ by
    obtain rfl := Option.some.inj he
    obtain rfl : i = j := Option.some.inj hj
    exact h.unnamed
  sessions := h.sessions
  descriptor := by
    show Function.update s.descriptor fd _ = _
    rw [h.descriptor, Function.update_idem]
  entry := h.entry

theorem setInode (h : Temporary F configPath original sessions before path fd i w s)
    (v : Inode (BitVec 8)) :
    Temporary F configPath original sessions before path fd i w (s.setInode i v) where
  inv := h.inv.setInode h.unnamed.1 v
  sessions := h.sessions
  descriptor := h.descriptor
  entry := h.entry

theorem withStream_self (h : Temporary F configPath original sessions before path fd i w s) :
    s.withStream fd i w = s := by
  unfold Host.withStream Host.setDescriptor
  rw [← h.stream, Function.update_eq_self]

theorem leaves (h : Temporary F configPath original sessions before path fd i w s)
    (hfd : before fd = none) : Leaves before (.error ()) s :=
  .inr ⟨rfl, fd, i, w, hfd, h.descriptor⟩

/-- The stream is closed. -/
theorem close (h : Temporary F configPath original sessions before path fd i w s)
    (hfd : before fd = none) : (s.setDescriptor fd none).descriptor = before := by
  show Function.update s.descriptor fd none = before
  rw [h.descriptor, Function.update_idem, ← hfd, Function.update_eq_self]

end Temporary

/-- A temporary file that holds the document, behind the closing of its stream. -/
structure Complete (F : Faults) (configPath : String) (original : List (BitVec 8) → Prop)
    (sessions : List Snapshot) (before : Nat → Option Descriptor) (path : String) (c : Snapshot)
    (s : Host) : Prop where
  inv : s.Inv F configPath original
  sessions : s.sessions = sessions
  descriptor : s.descriptor = before
  file : ∃ i text, s.files.entry path = some i ∧ s.files.inode i = ⟨some text, true⟩ ∧
    IsDocument F c text ∧ ∀ fd d, s.descriptor fd = some d → d.inode ≠ some i

/-- What holds while a session is read. -/
def Host.During (F : Faults) (configPath : String) (original : List (BitVec 8) → Prop)
    (sessions : List Snapshot) (s : Host) : Prop :=
  s.Inv F configPath original ∧ s.sessions = sessions

theorem ensures_giveUp {before : Nat → Option Descriptor}
    (h : s.During F configPath original sessions) (hleaves : Leaves before (.error ()) s)
    (hpath : configPath ≠ path) :
    (giveUp path).Ensures (confdWorld F configPath) (Host.During F configPath original sessions) s
      fun r s' ↦ Leaves before r s' ∧ (r = .ok () → s'.published = sessions.length) := by
  refine ⟨h, hpath.symm, fun _ s' hs' ↦ ?_⟩
  rcases hs' with rfl | rfl
  · exact Prog.ensures_done h ⟨hleaves, nofun⟩
  · exact Prog.ensures_done ⟨h.1.unlink hpath, h.2⟩ ⟨hleaves, nofun⟩

theorem ensures_fflush {text : List (BitVec 8)}
    (h : Temporary F configPath original sessions before path fd i (some text) s) :
    (fflush fd).Ensures (confdWorld F configPath) (Host.During F configPath original sessions) s
      fun r s' ↦
        match r with
        | .ok () => Temporary F configPath original sessions before path fd i (some text) s' ∧
            (s'.files.inode i).contents = some text
        | .error () => ∃ w, Temporary F configPath original sessions before path fd i w s' := by
  refine ⟨⟨h.inv, h.sessions⟩, ⟨i, _, h.stream⟩, fun ok s' hs' ↦ ?_⟩
  obtain rfl := hs' i _ h.stream
  cases ok with
  | true =>
      have h' := h.setInode ⟨some text, false⟩
      exact Prog.ensures_done ⟨h'.inv, h'.sessions⟩
        ⟨h', congrArg Inode.contents (Function.update_self i _ s.files.inode)⟩
  | false =>
      have h' := h.withStream none
      exact Prog.ensures_done ⟨h'.inv, h'.sessions⟩ ⟨none, h'⟩

theorem ensures_fsync {text : List (BitVec 8)}
    (h : Temporary F configPath original sessions before path fd i (some text) s)
    (htext : (s.files.inode i).contents = some text) :
    (fsync fd).Ensures (confdWorld F configPath) (Host.During F configPath original sessions) s
      fun r s' ↦
        match r with
        | .ok () => Temporary F configPath original sessions before path fd i (some text) s' ∧
            s'.files.inode i = ⟨some text, true⟩
        | .error () => ∃ w, Temporary F configPath original sessions before path fd i w s' := by
  refine ⟨⟨h.inv, h.sessions⟩, ⟨i, _, h.stream⟩, fun ok s' hs' ↦ ?_⟩
  obtain rfl := hs' i _ h.stream
  cases ok with
  | true =>
      have h' := h.setInode ⟨(s.files.inode i).contents, true⟩
      refine Prog.ensures_done ⟨h'.inv, h'.sessions⟩ ⟨h', ?_⟩
      rw [← htext]
      exact Function.update_self i _ s.files.inode
  | false => exact Prog.ensures_done ⟨h.inv, h.sessions⟩ ⟨_, h⟩

theorem ensures_fclose {c : Snapshot} {text : List (BitVec 8)}
    (h : Temporary F configPath original sessions before path fd i (some text) s)
    (htext : s.files.inode i = ⟨some text, true⟩) (hdocument : IsDocument F c text)
    (hfd : before fd = none) (hclosed : ∀ fd d, before fd = some d → d.inode ≠ some i) :
    (fclose fd).Ensures (confdWorld F configPath) (Host.During F configPath original sessions) s
      fun r s' ↦
        match r with
        | .ok () => Complete F configPath original sessions before path c s'
        | .error () => Leaves before (.error ()) s' := by
  refine ⟨⟨h.inv, h.sessions⟩, ⟨i, _, h.stream⟩, fun ok s' hs' ↦ ?_⟩
  have hinv := h.inv.closeDescriptor fd
  have hdescriptor := h.close hfd
  obtain rfl := hs' i _ h.stream
  cases ok with
  | true =>
      rw [if_pos rfl, if_pos (congrArg Inode.contents htext)]
      refine Prog.ensures_done ⟨hinv, h.sessions⟩
        ⟨hinv, h.sessions, hdescriptor, i, text, h.entry, htext, hdocument, fun fd' d hd ↦ ?_⟩
      rw [hdescriptor] at hd
      exact hclosed fd' d hd
  | false =>
      exact Prog.ensures_done ⟨hinv.setInode h.unnamed.1 _, h.sessions⟩ (.inl hdescriptor)

/-- From an empty stream to the closed file. -/
theorem ensures_writeAll {sock : Nat} {c : Snapshot} (hF : ¬F.unchecked)
    (h : Temporary F configPath original sessions before path fd i (some []) s)
    (hfd : before fd = none) (hclosed : ∀ fd d, before fd = some d → d.inode ≠ some i)
    (hsock : before sock = some (.socket (some c))) :
    ((writeDocument fd sock).andThen fun _ ↦ (fflush fd).andThen fun _ ↦
      (fsync fd).andThen fun _ ↦ fclose fd).Ensures (confdWorld F configPath)
      (Host.During F configPath original sessions) s fun r s' ↦
        match r with
        | .ok () => Complete F configPath original sessions before path c s'
        | .error () => Leaves before (.error ()) s' := by
  have hne : sock ≠ fd := by
    rintro rfl
    rw [hfd] at hsock
    cases hsock
  have hsock' : s.descriptor sock = some (.socket (some c)) := by
    rw [h.descriptor, Function.update_of_ne hne, hsock]
  have hemits : Emits F configPath fd sock c (writeDocument fd sock) c.documentLines :=
    emits_document
  have hdocument := hemits s i (some []) hsock' hne
  rw [h.withStream_self] at hdocument
  have hleaves : ∀ s' : Host,
      (∃ w, Temporary F configPath original sessions before path fd i w s') →
      Leaves before (.error ()) s' := fun s' ⟨w, h'⟩ ↦ h'.leaves hfd
  refine (hdocument.mono (J := Host.During F configPath original sessions)
    (R := fun r s' ↦
      match r with
      | .ok () => ∃ text, IsDocument F c text ∧
          Temporary F configPath original sessions before path fd i (some text) s'
      | .error () => ∃ w, Temporary F configPath original sessions before path fd i w s')
    ?_ ?_).andThen (fun _ s' _ hr ↦ hleaves s' hr) ?_
  · rintro _ ⟨w, rfl⟩
    exact ⟨(h.withStream w).inv, (h.withStream w).sessions⟩
  · rintro (_ | _) s' ⟨w, rfl⟩ hr
    · exact ⟨w, h.withStream w⟩
    · obtain ⟨t, w', ⟨lines, hlines, rfl⟩, hwrote, hs⟩ := hr rfl
      obtain rfl : w' = some (render lines) := hwrote.resolve_right fun h ↦ hF h.1
      exact ⟨_, ⟨lines, hlines, rfl⟩, hs ▸ h.withStream _⟩
  · rintro _ s' _ ⟨text, htext, h⟩
    refine (ensures_fflush h).andThen (fun _ s' _ hr ↦ hleaves s' hr) fun _ s' _ hr ↦ ?_
    refine (ensures_fsync hr.1 hr.2).andThen (fun _ s' _ hr ↦ hleaves s' hr) fun _ s' _ hr ↦ ?_
    exact ensures_fclose hr.1 hr.2 htext hfd hclosed

/-- The end of a snapshot: what it leaves open, and what is published if it succeeds. -/
def Written (before : Nat → Option Descriptor) (sessions : List Snapshot) (r : Status) (s : Host) :
    Prop :=
  Leaves before r s ∧ (r = .ok () → s.published = sessions.length)

theorem ensures_writeTemporary {sock : Nat} {c : Snapshot} (hF : ¬F.unchecked)
    (h : Temporary F configPath original sessions before path fd i (some []) s)
    (hfd : before fd = none) (hclosed : ∀ fd d, before fd = some d → d.inode ≠ some i)
    (hsock : before sock = some (.socket (some c))) (hlast : sessions.getLast? = some c)
    (hpath : configPath ≠ path) :
    (writeTemporary configPath path fd sock).Ensures (confdWorld F configPath)
      (Host.During F configPath original sessions) s (Written before sessions) := by
  refine (ensures_writeAll hF h hfd hclosed hsock).bind fun r s' hs' hr ↦ ?_
  rcases r with _ | _
  · exact ensures_giveUp hs' hr hpath
  · refine ⟨hs', rfl, fun ok s'' hs'' ↦ ?_⟩
    cases ok with
    | false =>
        obtain rfl := hs''
        exact ensures_giveUp hs' (.inl hr.descriptor) hpath
    | true =>
        obtain ⟨-, rfl⟩ := hs''
        obtain ⟨j, text, hentry, hinode, hdocument, hopen⟩ := hr.file
        have hlast' : s'.sessions.getLast? = some c := hr.sessions ▸ hlast
        exact Prog.ensures_done
          ⟨hr.inv.rename hpath hentry hinode hlast' hdocument hopen, hr.sessions⟩
          ⟨.inl hr.descriptor, fun _ ↦ congrArg List.length hr.sessions⟩

theorem ensures_writeConfigSnapshot {sock : Nat} {c : Snapshot} (hF : ¬F.unchecked)
    (h : s.Inv F configPath original) (hsock : s.descriptor sock = some (.socket (some c)))
    (hlast : s.sessions.getLast? = some c) :
    (writeConfigSnapshot configPath sock).Ensures (confdWorld F configPath)
      (Host.During F configPath original s.sessions) s (Written s.descriptor s.sessions) := by
  have hfail : ∀ s' : Host, s'.During F configPath original s.sessions →
      s'.descriptor = s.descriptor → (Prog.done (.error ()) : Prog Confd Status).Ensures
        (confdWorld F configPath) (Host.During F configPath original s.sessions) s'
        (Written s.descriptor s.sessions) :=
    fun s' hs' hd ↦ Prog.ensures_done hs' ⟨.inl hd, nofun⟩
  unfold writeConfigSnapshot
  split
  · exact hfail s ⟨h, rfl⟩ rfl
  refine ⟨⟨h, rfl⟩, trivial, ?_⟩
  rintro (_ | ⟨fd, path⟩) s₁ hs₁
  · obtain rfl := hs₁
    exact hfail _ ⟨h, rfl⟩ rfl
  obtain ⟨hfd, -, ⟨letters, hletters, hpath'⟩, rfl⟩ := hs₁
  have hpath : configPath ≠ path := by
    intro heq
    have hlength := congrArg String.length (heq.trans hpath')
    rw [String.length_append, String.length_append, hletters] at hlength
    omega
  -- the temporary file is there, with a descriptor on it
  have hcreated := h.createFile fd hpath
  have hfile := s.createFile_self fd path
  refine ⟨⟨hcreated, rfl⟩, ⟨_, hfile⟩, fun ok s₂ hs₂ ↦ ?_⟩
  cases ok with
  | false =>
      obtain rfl := hs₂
      refine ⟨⟨hcreated, rfl⟩, ⟨_, hfile⟩, fun _ s₃ hs₃ ↦ ?_⟩
      obtain rfl := hs₃
      have hbefore : ((s.createFile fd path).setDescriptor fd none).descriptor = s.descriptor := by
        show Function.update (Function.update s.descriptor fd _) fd none = s.descriptor
        rw [Function.update_idem, ← hfd, Function.update_eq_self]
      exact ensures_giveUp ⟨hcreated.closeDescriptor fd, rfl⟩ (.inl hbefore) hpath
  | true =>
      obtain rfl := hs₂ _ hfile
      have htemporary : Temporary F configPath original s.sessions s.descriptor path fd
          s.files.next (some []) ((s.createFile fd path).withStream fd s.files.next (some [])) :=
        { inv := hcreated.setDescriptor fun e j he hj ↦ by
            obtain rfl := Option.some.inj he
            obtain rfl : s.files.next = j := Option.some.inj hj
            exact ⟨hcreated.unnamed fd _ _ hfile rfl, hcreated.opened_lt fd _ _ hfile rfl⟩
          sessions := rfl
          descriptor := Function.update_idem ..
          entry := Function.update_self path _ s.files.entry }
      refine ensures_writeTemporary hF (htemporary.setInode _) hfd (fun fd' d hd hi ↦ ?_) hsock
        hlast hpath
      exact lt_irrefl _ (h.opened_lt fd' d _ hd hi)

end Snapshot

/-! ## A commit -/

section Commit

variable {F : Faults} {configPath : String} {original : List (BitVec 8) → Prop}
  {before : Nat → Option Descriptor} {s : Host}

/-- What a snapshot leaves is left when its socket is closed. -/
theorem Leaves.closeSocket {r : Status} {sock : Nat} {session : Option Snapshot}
    (h : Leaves (Function.update before sock (some (.socket session))) r s)
    (hsock : before sock = none) :
    s.descriptor sock = some (.socket session) ∧ Leaves before r (s.setDescriptor sock none) := by
  have hrestore : Function.update before sock none = before := by
    rw [← hsock, Function.update_eq_self]
  rcases h with h | ⟨hr, fd, i, w, hfd, h⟩
  · refine ⟨by rw [h, Function.update_self], .inl ?_⟩
    show Function.update s.descriptor sock none = before
    rw [h, Function.update_idem, hrestore]
  · have hne : fd ≠ sock := by
      rintro rfl
      rw [Function.update_self] at hfd
      cases hfd
    refine ⟨by rw [h, Function.update_of_ne hne.symm, Function.update_self],
      .inr ⟨hr, fd, i, w, (Function.update_of_ne hne ..).symm.trans hfd, ?_⟩⟩
    show Function.update s.descriptor sock none = _
    rw [h, Function.update_comm hne, Function.update_idem, hrestore]

/-- A commit that succeeds has published the last session. -/
def Committed (before : Nat → Option Descriptor) (r : Status) (s : Host) : Prop :=
  Leaves before r s ∧ (r = .ok () → 0 < s.published ∧ s.published = s.sessions.length)

theorem ensures_closeSocket {r : Status} {sock : Nat}
    (h : s.Inv F configPath original) (hsock : s.descriptor sock = some (.socket none))
    (hcommitted : Committed before r (s.setDescriptor sock none)) :
    (Prog.call (.closeSocket sock) fun _ ↦ .done r : Prog Confd Status).Ensures
      (confdWorld F configPath) (Host.Inv F configPath original) s (Committed before) := by
  refine ⟨h, hsock, fun _ s' hs' ↦ ?_⟩
  obtain rfl := hs'
  exact Prog.ensures_done (h.closeDescriptor sock) hcommitted

theorem ensures_readSession {sock : Nat} (hF : ¬F.unchecked) (h : s.Inv F configPath original)
    (hs : s.descriptor = Function.update before sock (some (.socket none)))
    (hsock : before sock = none) :
    (readSession configPath sock).Ensures (confdWorld F configPath)
      (Host.Inv F configPath original) s (Committed before) := by
  have hopen : s.descriptor sock = some (.socket none) := by rw [hs, Function.update_self]
  refine ⟨h, hopen, fun ok s₁ hs₁ ↦ ?_⟩
  cases ok with
  | false =>
      obtain rfl := hs₁
      have hleaves : Leaves (Function.update before sock (some (.socket none))) (.error ()) s₁ :=
        .inl hs
      exact ensures_closeSocket h hopen ⟨(hleaves.closeSocket hsock).2, nofun⟩
  | true =>
      obtain ⟨c, rfl⟩ := hs₁
      have hinv := (h.setSocket sock (some c)).addSession c
      have hsession : Function.update s.descriptor sock (some (.socket (some c))) =
          Function.update before sock (some (.socket (some c))) := by
        rw [hs, Function.update_idem]
      refine ((ensures_writeConfigSnapshot hF hinv (Function.update_self ..)
        (List.getLast?_concat ..)).mono (fun _ hs' ↦ hs'.1) (R := fun r s' ↦
          Leaves (Function.update before sock (some (.socket (some c)))) r s' ∧
            (r = .ok () → 0 < s'.published ∧ s'.published = s'.sessions.length))
        fun r s' hs' hr ↦ ⟨?_, fun hok ↦ ?_⟩).bind ?_
      · rw [← hsession]
        exact hr.1
      · rw [hr.2 hok, hs'.2, List.length_append]
        exact ⟨Nat.succ_pos _, rfl⟩
      · rintro r s₂ hs₂ ⟨hleaves, hpublished⟩
        obtain ⟨hopen₂, hclosed⟩ := hleaves.closeSocket hsock
        refine ⟨hs₂, ⟨c, hopen₂⟩, fun _ s₃ hs₃ ↦ ?_⟩
        obtain rfl := hs₃
        refine ensures_closeSocket (hs₂.setSocket sock none) (s₂.setDescriptor_self ..) ?_
        rw [Host.setDescriptor_setDescriptor]
        exact ⟨hclosed, hpublished⟩

theorem ensures_processCommit (hF : ¬F.unchecked) (h : s.Inv F configPath original) :
    (processCommit configPath).Ensures (confdWorld F configPath)
      (Host.Inv F configPath original) s (Committed s.descriptor) := by
  refine ⟨h, trivial, ?_⟩
  rintro (_ | sock) s₁ hs₁
  · obtain rfl := hs₁
    exact Prog.ensures_done h ⟨.inl rfl, nofun⟩
  · obtain ⟨hsock, rfl⟩ := hs₁
    have hinv := h.setSocket sock none
    have hopen := s.setDescriptor_self sock (some (.socket none))
    refine ⟨hinv, hopen, fun ok s₂ hs₂ ↦ ?_⟩
    obtain rfl := hs₂
    cases ok with
    | true => exact ensures_readSession hF hinv rfl hsock
    | false =>
        refine ensures_closeSocket hinv hopen ⟨.inl ?_, nofun⟩
        rw [Host.setDescriptor_setDescriptor]
        show Function.update s.descriptor sock none = s.descriptor
        rw [← hsock, Function.update_eq_self]

/-- A signal is only sent when the file holds the last session. -/
theorem ensures_signalDpdkReload (h : s.Inv F configPath original)
    (hpublished : 0 < s.published ∧ s.published = s.sessions.length) (pid : Int) :
    (signalDpdkReload pid).Ensures (confdWorld F configPath) (Host.Inv F configPath original) s
      fun _ s' ↦ s' = s := by
  have hsignal : ∀ pid, (signalProcess pid).Ensures (confdWorld F configPath)
      (Host.Inv F configPath original) s fun _ s' ↦ s' = s := by
    intro pid
    unfold signalProcess
    split
    · exact Prog.ensures_done h rfl
    · rename_i hpid
      refine ⟨h, ⟨not_le.mp hpid, hpublished⟩, fun ok s' hs' ↦ ?_⟩
      obtain rfl := hs'
      exact Prog.ensures_done h rfl
  unfold signalDpdkReload
  split
  · refine ⟨h, trivial, fun pid s' hs' ↦ ?_⟩
    obtain rfl := hs'
    exact hsignal pid
  · exact hsignal pid

theorem ensures_publishCommit (hF : ¬F.unchecked) (h : s.Inv F configPath original) (pid : Int) :
    (publishCommit configPath pid).Ensures (confdWorld F configPath)
      (Host.Inv F configPath original) s fun _ s' ↦ ∃ r, Leaves s.descriptor r s' := by
  refine (ensures_processCommit hF h).bind ?_
  rintro (_ | _) s' hs' hr
  · exact Prog.ensures_done hs' ⟨_, hr.1⟩
  · refine (ensures_signalDpdkReload hs' (hr.2 rfl) pid).imp fun _ s'' _ hs'' ↦ ?_
    rw [hs'']
    exact ⟨_, hr.1⟩

end Commit

/-! ## The loop -/

/-- Streams that were left open, at most so many, and everything else as it was. -/
def LeftOpen (before : Nat → Option Descriptor) (n : Nat) (now : Nat → Option Descriptor) : Prop :=
  ∃ l : List Nat, l.length ≤ n ∧ (∀ fd ∈ l, ∃ i w, now fd = some (.stream i w)) ∧
    ∀ fd, fd ∉ l → now fd = before fd

theorem LeftOpen.leaves {before : Nat → Option Descriptor} {n : Nat} {r : Status} {s s' : Host}
    (h : Leaves before r s) (h' : LeftOpen s.descriptor n s'.descriptor) :
    LeftOpen before (n + 1) s'.descriptor := by
  obtain ⟨l, hn, hl, hrest⟩ := h'
  rcases h with h | ⟨-, fd, i, w, -, h⟩
  · exact ⟨l, hn.trans (Nat.le_succ n), hl, fun fd hfd ↦ (hrest fd hfd).trans (by rw [h])⟩
  · refine ⟨fd :: l, Nat.succ_le_succ hn, List.forall_mem_cons.mpr ⟨?_, hl⟩, fun fd' hfd' ↦ ?_⟩
    · by_cases hfd : fd ∈ l
      · exact hl fd hfd
      · exact ⟨i, w, by rw [hrest fd hfd, h, Function.update_self]⟩
    · obtain ⟨hne, hfd'⟩ := List.ne_and_not_mem_of_not_mem_cons hfd'
      rw [hrest fd' hfd', h, Function.update_of_ne hne]

theorem ensures_mainLoop {F : Faults} {configPath : String} {original : List (BitVec 8) → Prop}
    (hF : ¬F.unchecked) (commits : Nat) (pid : Int) {s : Host}
    (h : s.Inv F configPath original) :
    (mainLoop configPath commits pid).Ensures (confdWorld F configPath)
      (Host.Inv F configPath original) s fun _ s' ↦
        LeftOpen s.descriptor commits s'.descriptor := by
  induction commits generalizing pid s with
  | zero => exact Prog.ensures_done h ⟨[], le_rfl, nofun, fun _ _ ↦ rfl⟩
  | succ commits ih =>
      have hnone : ∀ n, LeftOpen s.descriptor n s.descriptor := fun n ↦
        ⟨[], Nat.zero_le n, nofun, fun _ _ ↦ rfl⟩
      refine ⟨h, trivial, fun ok s₁ hs₁ ↦ ?_⟩
      obtain rfl := hs₁
      cases ok with
      | false => exact Prog.ensures_done h (hnone _)
      | true =>
          refine (ensures_publishCommit hF h pid).bind ?_
          rintro r s₂ hs₂ ⟨status, hleaves⟩
          refine ⟨hs₂, trivial, fun ok s₃ hs₃ ↦ ?_⟩
          obtain rfl := hs₃
          cases ok with
          | true => exact (ih r.2 hs₂).imp fun _ s₄ _ hleft ↦ hleft.leaves hleaves
          | false =>
              refine Prog.ensures_done hs₂ (LeftOpen.leaves hleaves ?_)
              exact ⟨[], Nat.zero_le _, nofun, fun _ _ ↦ rfl⟩

/-- The subscriber has nothing open, and the configuration file is on the disk. -/
structure Host.Starts (configPath : String) (original : List (BitVec 8) → Prop) (s : Host) :
    Prop where
  secured : s.files.Secured original configPath
  closed : ∀ fd, s.descriptor fd = none
  sessions : s.sessions = []
  published : s.published = 0

theorem Host.Starts.inv {F : Faults} {configPath : String} {original : List (BitVec 8) → Prop}
    {s : Host} (h : s.Starts configPath original) : s.Inv F configPath original where
  secured := h.secured.mono fun _ htext ↦ .inl htext
  current := by
    obtain ⟨i, text, hi, hinode, htext⟩ := h.secured _ (s.files.entry_onDisk configPath)
    refine ⟨i, text, hi, hinode, ?_⟩
    rw [h.published]
    exact htext
  published_le := by
    rw [h.published]
    exact Nat.zero_le _
  unnamed fd d _ hd := by
    rw [h.closed fd] at hd
    cases hd
  opened_lt fd d _ hd := by
    rw [h.closed fd] at hd
    cases hd

/-- **The configuration file is always complete.**  In every run of the subscriber in which no
write fails unnoticed, at every point and also when the host crashes there, the configuration file
exists and can only be read as what it held in the beginning or as the document of one of the
sessions, which is whole but for optional leaves whose reads failed. -/
theorem configFile_complete {F : Faults} (hF : ¬F.unchecked) {configPath : String}
    {original : List (BitVec 8) → Prop} {commits : Nat} {pid : Int} {q : Prog Confd Unit}
    {s : Host} (hq : ((mainLoop configPath commits pid).runs (confdWorld F configPath)
      (Host.Starts configPath original)).Reach (q, s)) {files : Files String (BitVec 8)}
    (hfiles : files = s.files ∨ s.files.Crash files) :
    (∃ i, files.entry configPath = some i) ∧ ∀ text, files.MayRead configPath text →
      Publishable F original s.sessions text ∧ (¬F.flaky →
        original text ∨ ∃ c ∈ s.sessions, text = render c.documentLines) := by
  have hwhole : ∀ text, Publishable F original s.sessions text → ¬F.flaky →
      original text ∨ ∃ c ∈ s.sessions, text = render c.documentLines :=
    fun text htext hF ↦ htext.imp id fun ⟨c, hc, hdocument⟩ ↦ ⟨c, hc, hdocument.whole hF⟩
  have hinv : s.Inv F configPath original := by
    refine (Prog.Ensures.reach (Q := fun _ _ ↦ True) (fun s hs ↦ ?_) hq).1
    exact (ensures_mainLoop hF commits pid (Host.Starts.inv hs)).imp fun _ _ _ _ ↦ trivial
  obtain ⟨hentry, hread⟩ : (∃ i, files.entry configPath = some i) ∧
      ∀ text, files.MayRead configPath text → Publishable F original s.sessions text := by
    rcases hfiles with rfl | hcrash
    · exact hinv.secured.read
    · exact hinv.secured.crash hcrash
  exact ⟨hentry, fun text htext ↦ ⟨hread text htext, hwhole text (hread text htext)⟩⟩

/-! ### A host on which everything succeeds -/

/-- A host before the subscriber starts. -/
def startHost (configPath : String) (text : List (BitVec 8)) : Host where
  descriptor _ := none
  files := .single configPath text
  sessions := []
  published := 0

theorem starts_startHost (configPath : String) (text : List (BitVec 8)) :
    (startHost configPath text).Starts configPath (· = text) :=
  ⟨Files.secured_single configPath text, fun _ ↦ rfl, rfl, rfl⟩

/-- The host behind one commit of a database. -/
def hostAfter (c : Snapshot) : Host :=
  ((mainLoop "config.yaml" 1 0).eval (confdAnswer c) (startHost "config.yaml" [])).2

theorem reach_hostAfter (c : Snapshot) :
    ((mainLoop "config.yaml" 1 0).runs (confdWorld noFaults "config.yaml")
      (Host.Starts "config.yaml" (· = []))).Reach (.done (), hostAfter c) :=
  Prog.reach_eval (answers_confdAnswer noFaults "config.yaml" c)
    (.init ⟨rfl, starts_startHost "config.yaml" []⟩)

/-- The configuration file after that commit. -/
theorem configFile_complete_afterCommit : (hostAfter (oneGroup brokenName)).published = 1 ∧
    (∃ i, (hostAfter (oneGroup brokenName)).files.entry "config.yaml" = some i ∧
      ((hostAfter (oneGroup brokenName)).files.inode i).contents =
        some (render (oneGroup brokenName).documentLines)) ∧
      ∀ text, (hostAfter (oneGroup brokenName)).files.MayRead "config.yaml" text →
        text = [] ∨
          ∃ c ∈ (hostAfter (oneGroup brokenName)).sessions, text = render c.documentLines := by
  obtain ⟨-, hread⟩ := configFile_complete (F := noFaults) id
    (reach_hostAfter (oneGroup brokenName)) (.inl rfl)
  refine ⟨by decide +kernel, ⟨1, by decide +kernel, by decide +kernel⟩, fun text htext ↦ ?_⟩
  exact (hread text htext).2 id

/-! ## Streams that are left open -/

section Leaks

variable {F : Faults} {configPath : String}

/-- The path of a temporary file. -/
def temporaryPath (configPath : String) : String := configPath ++ ".tmp." ++ "aaaaaa"

/-- A snapshot whose first write fails leaves its stream open. -/
theorem ends_writeConfigSnapshot {s : Host} (sock : Nat) {fd : Nat}
    (hshort : (configPath ++ ".tmp.XXXXXX").utf8ByteSize < kPathBufSize)
    (hfd : s.descriptor fd = none) (hentry : s.files.entry (temporaryPath configPath) = none) :
    ∃ i s', (writeConfigSnapshot configPath sock).Ends (confdWorld F configPath) s (.error ()) s' ∧
      s'.descriptor = Function.update s.descriptor fd (some (.stream i none)) ∧
      s'.files.entry (temporaryPath configPath) = none := by
  have hopen := (s.createFile_self fd (temporaryPath configPath))
  let s₁ := s.createFile fd (temporaryPath configPath)
  let s₂ := (s₁.setDescriptor fd (some (.stream s.files.next (some [])))).setInode s.files.next
    ⟨none, false⟩
  let s₃ := s₂.setDescriptor fd (some (.stream s.files.next none))
  have hstream : s₂.descriptor fd = some (.stream s.files.next (some [])) :=
    s₁.setDescriptor_self ..
  have hwrite : (writeDocument fd sock).Ends (confdWorld F configPath) s₂ (.error ()) s₃ := by
    refine Prog.Ends.andThen_error (.call false s₃ (fun i w hw ↦ ?_) (.done _ _))
    obtain ⟨rfl, -⟩ := Descriptor.stream.inj (Option.some.inj (hstream.symm.trans hw))
    rfl
  refine ⟨s.files.next, { s₃ with files := s₃.files.unlink (temporaryPath configPath) }, ?_, ?_,
    Function.update_self ..⟩
  · unfold writeConfigSnapshot
    rw [if_neg hshort.not_ge]
    refine .call (some (fd, temporaryPath configPath)) s₁ ?_ (.call true s₂ (fun i hi ↦ ?_) ?_)
    · exact ⟨hfd, hentry, ⟨"aaaaaa", rfl, rfl⟩, rfl⟩
    · obtain rfl := Descriptor.file.inj (Option.some.inj (hopen.symm.trans hi))
      rfl
    · exact (hwrite.andThen_error).bind (.call () _ (.inr rfl) (.done _ _))
  · show Function.update (Function.update (Function.update s.descriptor fd _) fd _) fd _ = _
    rw [Function.update_idem, Function.update_idem]

/-- A commit that leaves a stream open. -/
theorem ends_publishCommit {s : Host} {sock fd : Nat} (pid : Int)
    (hshort : (configPath ++ ".tmp.XXXXXX").utf8ByteSize < kPathBufSize)
    (hsock : s.descriptor sock = none) (hfd : s.descriptor fd = none) (hne : fd ≠ sock)
    (hentry : s.files.entry (temporaryPath configPath) = none) :
    ∃ i s', (publishCommit configPath pid).Ends (confdWorld F configPath) s (.error (), pid) s' ∧
      s'.descriptor = Function.update s.descriptor fd (some (.stream i none)) ∧
      s'.files.entry (temporaryPath configPath) = none := by
  let s₁ := s.setDescriptor sock (some (.socket none))
  let s₂ : Host := { s₁.setDescriptor sock (some (.socket (some .empty))) with
    sessions := s₁.sessions ++ [.empty] }
  have hfd₂ : s₂.descriptor fd = none := by
    show Function.update (Function.update s.descriptor sock _) sock _ fd = none
    rw [Function.update_of_ne hne, Function.update_of_ne hne, hfd]
  obtain ⟨i, s₃, hends, hdescriptor, hentry₃⟩ :=
    ends_writeConfigSnapshot (F := F) (s := s₂) sock hshort hfd₂ hentry
  refine ⟨i, (s₃.setDescriptor sock (some (.socket none))).setDescriptor sock none, ?_, ?_,
    hentry₃⟩
  · have hsession : (readSession configPath sock).Ends (confdWorld F configPath) s₁ (.error ())
        ((s₃.setDescriptor sock (some (.socket none))).setDescriptor sock none) := by
      refine .call true s₂ ?_ (hends.bind ?_)
      · exact ⟨.empty, rfl⟩
      · exact .call () _ rfl (.call () _ rfl (.done _ _))
    have hcommit : (processCommit configPath).Ends (confdWorld F configPath) s (.error ())
        ((s₃.setDescriptor sock (some (.socket none))).setDescriptor sock none) := by
      refine .call (some sock) s₁ ?_ (.call true s₁ rfl hsession)
      exact ⟨hsock, rfl⟩
    exact hcommit.bind (.done _ _)
  · rw [Host.setDescriptor_setDescriptor]
    show Function.update s₃.descriptor sock none = _
    rw [hdescriptor, Function.update_comm hne]
    show Function.update (Function.update (Function.update (Function.update s.descriptor sock _)
      sock _) sock none) fd _ = _
    rw [Function.update_idem, Function.update_idem, ← hsock, Function.update_eq_self]

/-- The streams `l` are open, and nothing else. -/
structure OnlyStreams (configPath : String) (l : List Nat) (s : Host) : Prop where
  nodup : l.Nodup
  stream : ∀ fd ∈ l, ∃ i w, s.descriptor fd = some (.stream i w)
  closed : ∀ fd, fd ∉ l → s.descriptor fd = none
  entry : s.files.entry (temporaryPath configPath) = none

/-- Commits that all leave a stream open. -/
theorem ends_mainLoop (hshort : (configPath ++ ".tmp.XXXXXX").utf8ByteSize < kPathBufSize)
    (commits : Nat) (pid : Int) {s : Host} {l : List Nat} (h : OnlyStreams configPath l s) :
    ∃ s' l', (mainLoop configPath commits pid).Ends (confdWorld F configPath) s () s' ∧
      l'.length = l.length + commits ∧ OnlyStreams configPath l' s' := by
  induction commits generalizing s l with
  | zero => exact ⟨s, l, .done _ _, rfl, h⟩
  | succ commits ih =>
      obtain ⟨fd, hfd⟩ := Infinite.exists_notMem_finset l.toFinset
      obtain ⟨sock, hsock⟩ := Infinite.exists_notMem_finset (insert fd l.toFinset)
      rw [Finset.mem_insert, not_or, List.mem_toFinset] at hsock
      rw [List.mem_toFinset] at hfd
      obtain ⟨i, s₁, hends, hdescriptor, hentry⟩ := ends_publishCommit (F := F) pid hshort
        (h.closed sock hsock.2) (h.closed fd hfd) (Ne.symm hsock.1) h.entry
      have hstreams : OnlyStreams configPath (fd :: l) s₁ := by
        refine ⟨List.nodup_cons.mpr ⟨hfd, h.nodup⟩, List.forall_mem_cons.mpr
          ⟨⟨i, none, by rw [hdescriptor, Function.update_self]⟩, fun fd' hfd' ↦ ?_⟩,
          fun fd' hfd' ↦ ?_, hentry⟩
        · have hne : fd' ≠ fd := by
            rintro rfl
            exact hfd hfd'
          rw [hdescriptor, Function.update_of_ne hne]
          exact h.stream fd' hfd'
        · obtain ⟨hne, hfd'⟩ := List.ne_and_not_mem_of_not_mem_cons hfd'
          rw [hdescriptor, Function.update_of_ne hne, h.closed fd' hfd']
      obtain ⟨s₂, l', hrest, hlength, hl'⟩ := ih hstreams
      refine ⟨s₂, l', ?_, hlength.trans (by rw [List.length_cons]; omega), hl'⟩
      exact .call true s rfl (hends.bind (.call true s₁ rfl hrest))

end Leaks

/-- **Failed commits leave streams open.**  In runs in which no write fails unnoticed, the
subscriber makes no call it may not make: it reads inside of a session, closes nothing twice and
signals the process only when the configuration file holds the last session.  When it ends, no
socket and no session is left, and at most one stream for each commit; and every number of commits
can leave as many streams. -/
theorem commits_leave_streams {F : Faults} (hF : ¬F.unchecked) {configPath : String}
    {original : List (BitVec 8) → Prop}
    (hshort : (configPath ++ ".tmp.XXXXXX").utf8ByteSize < kPathBufSize) (pid : Int) :
    (∀ commits q s, ((mainLoop configPath commits pid).runs (confdWorld F configPath)
        (Host.Starts configPath original)).Reach (q, s) →
      (∀ call next, q = .call call next → (confdWorld F configPath).Allowed s call) ∧
        ∀ a, q = .done a → LeftOpen (fun _ ↦ none) commits s.descriptor) ∧
      ∀ s₀ : Host, s₀.Starts configPath original →
        s₀.files.entry (temporaryPath configPath) = none → ∀ commits, ∃ s, ∃ l : List Nat,
          ((mainLoop configPath commits pid).runs (confdWorld F configPath)
            (Host.Starts configPath original)).Reach (.done (), s) ∧
          l.length = commits ∧ l.Nodup ∧ ∀ fd ∈ l, ∃ i w, s.descriptor fd = some (.stream i w) := by
  constructor
  · intro commits q s hq
    refine (Prog.Ensures.reach (I := Host.Inv F configPath original)
      (Q := fun _ s ↦ LeftOpen (fun _ ↦ none) commits s.descriptor) (fun s hs ↦ ?_) hq).2
    refine (ensures_mainLoop hF commits pid hs.inv).imp fun _ s' _ hleft ↦ ?_
    rwa [show s.descriptor = fun _ ↦ none from funext hs.closed] at hleft
  · intro s₀ hs₀ hentry commits
    have hnothing : OnlyStreams configPath [] s₀ :=
      ⟨List.nodup_nil, nofun, fun fd _ ↦ hs₀.closed fd, hentry⟩
    obtain ⟨s, l, hends, hlength, hl⟩ := ends_mainLoop (F := F) hshort commits pid hnothing
    refine ⟨s, l, hends.reach (.init ⟨rfl, hs₀⟩), ?_, hl.nodup, hl.stream⟩
    rw [hlength, List.length_nil, Nat.zero_add]

/-- Three commits on a fresh host. -/
theorem commits_leave_streams_three :
    LeftOpen (fun _ ↦ none) 1 (hostAfter (oneGroup brokenName)).descriptor ∧ ∃ s, ∃ l : List Nat,
      ((mainLoop "config.yaml" 3 0).runs (confdWorld noFaults "config.yaml")
        (Host.Starts "config.yaml" (· = []))).Reach (.done (), s) ∧
      l.length = 3 ∧ l.Nodup ∧ ∀ fd ∈ l, ∃ i w, s.descriptor fd = some (.stream i w) := by
  obtain ⟨hall, hexists⟩ :=
    @commits_leave_streams noFaults id "config.yaml" (· = []) (by decide +kernel) 0
  exact ⟨(hall 1 _ _ (reach_hostAfter (oneGroup brokenName))).2 () rfl,
    hexists (startHost "config.yaml" []) (starts_startHost _ _) (by decide +kernel) 3⟩

end DpdkSpi
