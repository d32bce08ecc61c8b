import DpdkSpi.Confd.Yaml
import DpdkSpi.Lib.Calls
import DpdkSpi.Lib.Files

/-!
# The calls of the ConfD subscriber

The library and system calls of `fastapi_confd.c`, and a host that answers them: descriptors,
files, and sessions in which a snapshot of the configuration database is read.  Every call may
fail at any time.

Two kinds of failure are told apart from the others, because the code does not see them: a read of
an optional leaf that exists, and a write whose result nobody looks at.
-/

namespace DpdkSpi

open Lib

/-! ## Values -/

/-- A string of C. -/
structure CString where
  bytes : List (BitVec 8)
  noNul : 0 ∉ bytes
deriving DecidableEq

/-- The configuration database, as a session sees it: the leaves that exist, and the number of
instances of a list. -/
structure Snapshot where
  str : String → Option CString
  num : String → Option Nat
  bool : String → Option Bool
  instances : String → Nat

/-- A database without leaves. -/
def Snapshot.empty : Snapshot := ⟨fun _ ↦ none, fun _ ↦ none, fun _ ↦ none, fun _ ↦ 0⟩

/-! ## Calls -/

/-- The calls; what `write` is given is the formatted text of `fputc`, `fputs` or `fprintf`, and
the path of `mkstemp` is that of its template without the letters that are replaced. -/
inductive ConfdCall where
  | socket
  | cdbConnect (sock : Nat)
  | closeSocket (sock : Nat)
  | cdbStartSession (sock : Nat)
  | cdbEndSession (sock : Nat)
  | cdbGetStr (sock : Nat) (path : String)
  | cdbGet (sock : Nat) (path : String)
  | cdbGetBool (sock : Nat) (path : String)
  | cdbNumInstances (sock : Nat) (path : String)
  | mkstemp (stem : String)
  | fdopen (fd : Nat)
  | close (fd : Nat)
  | write (out : Nat) (text : List (BitVec 8))
  /-- An `fprintf` whose result is not looked at. -/
  | writeUnchecked (out : Nat) (text : List (BitVec 8))
  | fflush (out : Nat)
  | fsync (fd : Nat)
  | fclose (out : Nat)
  | unlink (path : String)
  | rename (old new : String)
  /-- `pidof FastAPI`. -/
  | pidof
  | kill (pid : Int)
  | cdbReadSubscriptionSocket
  | cdbSyncSubscriptionSocket

/-- What a call returns: whether it succeeds, or the value if it does. -/
@[reducible] def ConfdCall.Answer : ConfdCall → Type
  | .socket => Option Nat
  | .closeSocket _ | .cdbEndSession _ | .close _ | .writeUnchecked _ _ | .unlink _ => Unit
  | .cdbGetStr _ _ => Option CString
  | .cdbGet _ _ => Option Nat
  | .cdbGetBool _ _ => Option Bool
  | .cdbNumInstances _ _ => Option Nat
  | .mkstemp _ => Option (Nat × String)
  | .pidof => Int
  | _ => Bool

/-- The interface that `fastapi_confd.c` is written against. -/
@[reducible] def Confd : Interface := ⟨ConfdCall, ConfdCall.Answer⟩

/-! ## The host -/

/-- What a descriptor of the process stands for. -/
inductive Descriptor where
  /-- A socket, with what its session reads. -/
  | socket (session : Option Snapshot)
  | file (inode : Nat)
  /-- A file with a stream on it, and what has been written to the stream, if no write failed. -/
  | stream (inode : Nat) (written : Option (List (BitVec 8)))

/-- The host, and what the subscriber has open on it. -/
structure Host where
  descriptor : Nat → Option Descriptor
  files : Files String (BitVec 8)
  /-- The snapshots of all sessions so far. -/
  sessions : List Snapshot
  /-- How many sessions there had been when the configuration file was last replaced. -/
  published : Nat

namespace Host

/-- Another state of a descriptor. -/
def setDescriptor (s : Host) (fd : Nat) (d : Option Descriptor) : Host :=
  { s with descriptor := Function.update s.descriptor fd d }

/-- Another state of a file. -/
def setInode (s : Host) (i : Nat) (v : Inode (BitVec 8)) : Host :=
  { s with files := s.files.setInode i v }

/-- A new file at a path, and a descriptor on it. -/
def createFile (s : Host) (fd : Nat) (path : String) : Host :=
  { s with
    descriptor := Function.update s.descriptor fd (some (.file s.files.next))
    files := s.files.create path }

@[simp] theorem createFile_self (s : Host) (fd : Nat) (path : String) :
    (s.createFile fd path).descriptor fd = some (.file s.files.next) := Function.update_self ..

@[simp] theorem createFile_of_ne (s : Host) {fd fd' : Nat} (h : fd' ≠ fd) (path : String) :
    (s.createFile fd path).descriptor fd' = s.descriptor fd' := Function.update_of_ne h ..

@[simp] theorem setDescriptor_self (s : Host) (fd : Nat) (d : Option Descriptor) :
    (s.setDescriptor fd d).descriptor fd = d := Function.update_self ..

@[simp] theorem setDescriptor_of_ne (s : Host) {fd fd' : Nat} (h : fd' ≠ fd)
    (d : Option Descriptor) : (s.setDescriptor fd d).descriptor fd' = s.descriptor fd' :=
  Function.update_of_ne h ..

@[simp] theorem setDescriptor_setDescriptor (s : Host) (fd : Nat) (d e : Option Descriptor) :
    (s.setDescriptor fd d).setDescriptor fd e = s.setDescriptor fd e :=
  congrArg (fun t ↦ { s with descriptor := t }) (Function.update_idem ..)

@[simp] theorem files_setDescriptor (s : Host) (fd : Nat) (d : Option Descriptor) :
    (s.setDescriptor fd d).files = s.files := rfl

@[simp] theorem descriptor_setInode (s : Host) (i : Nat) (v : Inode (BitVec 8)) :
    (s.setInode i v).descriptor = s.descriptor := rfl

end Host

/-- The failures that the code does not see. -/
structure Faults where
  /-- Reads of leaves that exist may fail. -/
  flaky : Prop
  /-- Writes whose result is not looked at may fail. -/
  unchecked : Prop

/-- How a host answers, for the configuration file at `configPath`. -/
def confdWorld (F : Faults) (configPath : String) : World Confd Host where
  Allowed s c := match c with
    | .cdbConnect sock | .closeSocket sock | .cdbStartSession sock =>
        s.descriptor sock = some (.socket none)
    | .cdbEndSession sock | .cdbGetStr sock _ | .cdbGet sock _ | .cdbGetBool sock _
    | .cdbNumInstances sock _ => ∃ snapshot, s.descriptor sock = some (.socket (some snapshot))
    | .fdopen fd | .close fd => ∃ i, s.descriptor fd = some (.file i)
    | .write out _ | .writeUnchecked out _ | .fflush out | .fsync out | .fclose out =>
        ∃ i w, s.descriptor out = some (.stream i w)
    | .unlink path => path ≠ configPath
    | .rename _ new => new = configPath
    -- the file holds what the last session has read
    | .kill pid => 0 < pid ∧ 0 < s.published ∧ s.published = s.sessions.length
    | .socket | .mkstemp _ | .pidof | .cdbReadSubscriptionSocket | .cdbSyncSubscriptionSocket =>
        True
  Answers s c := match c with
    | .socket => fun r s' ↦ match r with
        | none => s' = s
        | some fd => s.descriptor fd = none ∧ s' = s.setDescriptor fd (some (.socket none))
    | .closeSocket sock => fun _ s' ↦ s' = s.setDescriptor sock none
    | .cdbStartSession sock => fun r s' ↦
        if r then
          ∃ snapshot, s' =
            { s.setDescriptor sock (some (.socket (some snapshot))) with
              sessions := s.sessions ++ [snapshot] }
        else s' = s
    | .cdbEndSession sock => fun _ s' ↦ s' = s.setDescriptor sock (some (.socket none))
    | .cdbGetStr sock path => fun r s' ↦ s' = s ∧
        ∀ snapshot, s.descriptor sock = some (.socket (some snapshot)) →
          r = snapshot.str path ∨ F.flaky ∧ r = none
    | .cdbGet sock path => fun r s' ↦ s' = s ∧
        ∀ snapshot, s.descriptor sock = some (.socket (some snapshot)) →
          r = snapshot.num path ∨ F.flaky ∧ r = none
    | .cdbGetBool sock path => fun r s' ↦ s' = s ∧
        ∀ snapshot, s.descriptor sock = some (.socket (some snapshot)) →
          r = snapshot.bool path ∨ F.flaky ∧ r = none
    | .cdbNumInstances sock path => fun r s' ↦ s' = s ∧
        ∀ snapshot, s.descriptor sock = some (.socket (some snapshot)) →
          r = some (snapshot.instances path) ∨ r = none
    | .mkstemp stem => fun r s' ↦ match r with
        | none => s' = s
        | some (fd, path) =>
            s.descriptor fd = none ∧ s.files.entry path = none ∧
              (∃ letters : String, letters.length = 6 ∧ path = stem ++ letters) ∧
              s' = s.createFile fd path
    | .fdopen fd => fun r s' ↦
        if r then
          ∀ i, s.descriptor fd = some (.file i) →
            s' = (s.setDescriptor fd (some (.stream i (some [])))).setInode i ⟨none, false⟩
        else s' = s
    | .close fd => fun _ s' ↦ s' = s.setDescriptor fd none
    | .write out text => fun r s' ↦ ∀ i w, s.descriptor out = some (.stream i w) →
        s' = s.setDescriptor out (some (.stream i (if r then w.map (· ++ text) else none)))
    | .writeUnchecked out text => fun _ s' ↦ ∀ i w, s.descriptor out = some (.stream i w) →
        s' = s.setDescriptor out (some (.stream i (w.map (· ++ text)))) ∨
          F.unchecked ∧ s' = s.setDescriptor out (some (.stream i none))
    | .fflush out => fun r s' ↦ ∀ i w, s.descriptor out = some (.stream i w) →
        s' = if r then s.setInode i ⟨w, false⟩ else s.setDescriptor out (some (.stream i none))
    | .fsync fd => fun r s' ↦ ∀ i w, s.descriptor fd = some (.stream i w) →
        s' = if r then s.setInode i ⟨(s.files.inode i).contents, true⟩ else s
    -- what is still in the buffer is written when a stream is closed
    | .fclose out => fun r s' ↦ ∀ i w, s.descriptor out = some (.stream i w) →
        s' = if r then
            if (s.files.inode i).contents = w then s.setDescriptor out none
            else (s.setDescriptor out none).setInode i ⟨w, false⟩
          else (s.setDescriptor out none).setInode i ⟨none, false⟩
    | .unlink path => fun _ s' ↦ s' = s ∨ s' = { s with files := s.files.unlink path }
    | .rename old new => fun r s' ↦
        if r then
          s.files.entry old ≠ none ∧
            s' = { s with files := s.files.rename old new, published := s.sessions.length }
        else s' = s
    | .cdbConnect _ | .pidof | .kill _ | .cdbReadSubscriptionSocket
    | .cdbSyncSubscriptionSocket => fun _ s' ↦ s' = s

/-! ## A host on which everything succeeds -/

/-- The stream behind a descriptor. -/
def Host.stream (s : Host) (fd : Nat) : Option (Nat × Option (List (BitVec 8))) :=
  match s.descriptor fd with
  | some (.stream i w) => some (i, w)
  | _ => none

theorem Host.stream_eq {s : Host} {fd i : Nat} {w : Option (List (BitVec 8))}
    (h : s.descriptor fd = some (.stream i w)) : s.stream fd = some (i, w) := by
  unfold stream
  rw [h]

theorem Host.descriptor_of_stream {s : Host} {fd i : Nat} {w : Option (List (BitVec 8))}
    (h : s.stream fd = some (i, w)) : s.descriptor fd = some (.stream i w) := by
  unfold stream at h
  split at h
  · cases h
    assumption
  · cases h

/-- What the session behind a descriptor reads. -/
def Host.session (s : Host) (fd : Nat) : Option Snapshot :=
  match s.descriptor fd with
  | some (.socket session) => session
  | _ => none

theorem Host.session_eq {s : Host} {fd : Nat} {c : Snapshot}
    (h : s.descriptor fd = some (.socket (some c))) : s.session fd = some c := by
  unfold session
  rw [h]

/-- Every call that can succeed does, and the database is `c`. -/
def confdAnswer (c : Snapshot) (s : Host) : (call : ConfdCall) → call.Answer × Host
  | .socket =>
      match s.descriptor 3 with
      | none => (some 3, s.setDescriptor 3 (some (.socket none)))
      | some _ => (none, s)
  | .closeSocket sock => ((), s.setDescriptor sock none)
  | .cdbStartSession sock =>
      (true, { s.setDescriptor sock (some (.socket (some c))) with
        sessions := s.sessions ++ [c] })
  | .cdbEndSession sock => ((), s.setDescriptor sock (some (.socket none)))
  | .cdbGetStr sock path => ((s.session sock).bind (·.str path), s)
  | .cdbGet sock path => ((s.session sock).bind (·.num path), s)
  | .cdbGetBool sock path => ((s.session sock).bind (·.bool path), s)
  | .cdbNumInstances sock path => ((s.session sock).map (·.instances path), s)
  | .mkstemp stem =>
      match s.descriptor 4, s.files.entry (stem ++ "aaaaaa") with
      | none, none => (some (4, stem ++ "aaaaaa"), s.createFile 4 (stem ++ "aaaaaa"))
      | _, _ => (none, s)
  | .fdopen fd =>
      match s.descriptor fd with
      | some (.file i) =>
          (true, (s.setDescriptor fd (some (.stream i (some [])))).setInode i ⟨none, false⟩)
      | _ => (false, s)
  | .close fd => ((), s.setDescriptor fd none)
  | .write out text =>
      match s.stream out with
      | some (i, w) => (true, s.setDescriptor out (some (.stream i (w.map (· ++ text)))))
      | none => (false, s)
  | .writeUnchecked out text =>
      match s.stream out with
      | some (i, w) => ((), s.setDescriptor out (some (.stream i (w.map (· ++ text)))))
      | none => ((), s)
  | .fflush out =>
      match s.stream out with
      | some (i, w) => (true, s.setInode i ⟨w, false⟩)
      | none => (false, s)
  | .fsync fd =>
      match s.stream fd with
      | some (i, _) => (true, s.setInode i ⟨(s.files.inode i).contents, true⟩)
      | none => (false, s)
  | .fclose out =>
      match s.stream out with
      | some (i, w) =>
          (true, if (s.files.inode i).contents = w then s.setDescriptor out none
            else (s.setDescriptor out none).setInode i ⟨w, false⟩)
      | none => (false, s)
  | .unlink path => ((), { s with files := s.files.unlink path })
  | .rename old new =>
      match s.files.entry old with
      | some _ =>
          (true, { s with files := s.files.rename old new, published := s.sessions.length })
      | none => (false, s)
  | .pidof => (1, s)
  | .cdbConnect _ | .kill _ | .cdbReadSubscriptionSocket | .cdbSyncSubscriptionSocket => (true, s)

theorem answers_confdAnswer (F : Faults) (configPath : String) (c : Snapshot) (s : Host)
    (call : ConfdCall) :
    (confdWorld F configPath).Answers s call (confdAnswer c s call).1 (confdAnswer c s call).2 := by
  cases call with
  | cdbStartSession sock => exact ⟨c, rfl⟩
  | socket =>
      cases hfd : s.descriptor 3 with
      | none => simp only [confdAnswer, hfd]; exact ⟨hfd, rfl⟩
      | some d => simp only [confdAnswer, hfd]; rfl
  | cdbGetStr sock path =>
      exact ⟨rfl, fun snapshot h ↦ .inl (congrArg (·.bind (·.str path)) (Host.session_eq h))⟩
  | cdbGet sock path =>
      exact ⟨rfl, fun snapshot h ↦ .inl (congrArg (·.bind (·.num path)) (Host.session_eq h))⟩
  | cdbGetBool sock path =>
      exact ⟨rfl, fun snapshot h ↦ .inl (congrArg (·.bind (·.bool path)) (Host.session_eq h))⟩
  | cdbNumInstances sock path =>
      exact ⟨rfl, fun snapshot h ↦
        .inl (congrArg (·.map (·.instances path)) (Host.session_eq h))⟩
  | mkstemp stem =>
      cases hfd : s.descriptor 4 with
      | some d => simp only [confdAnswer, hfd]; rfl
      | none =>
          cases hentry : s.files.entry (stem ++ "aaaaaa") with
          | some i => simp only [confdAnswer, hfd, hentry]; rfl
          | none =>
              simp only [confdAnswer, hfd, hentry]
              exact ⟨hfd, hentry, ⟨"aaaaaa", rfl, rfl⟩, rfl⟩
  | fdopen fd =>
      rcases hfd : s.descriptor fd with _ | (session | i | ⟨i, w⟩)
      · simp only [confdAnswer, hfd]; rfl
      · simp only [confdAnswer, hfd]; rfl
      · simp only [confdAnswer, hfd]
        intro j hj
        obtain rfl := Descriptor.file.inj (Option.some.inj (hfd.symm.trans hj))
        rfl
      · simp only [confdAnswer, hfd]; rfl
  | write out text =>
      intro i w h
      simp only [confdAnswer, Host.stream_eq h]
      rfl
  | writeUnchecked out text =>
      intro i w h
      simp only [confdAnswer, Host.stream_eq h]
      exact .inl trivial
  | fflush out =>
      intro i w h
      simp only [confdAnswer, Host.stream_eq h]
      rfl
  | fsync fd =>
      intro i w h
      simp only [confdAnswer, Host.stream_eq h]
      rfl
  | fclose out =>
      intro i w h
      simp only [confdAnswer, Host.stream_eq h]
      rfl
  | unlink path => exact .inr rfl
  | rename old new =>
      cases hentry : s.files.entry old with
      | none => simp only [confdAnswer, hentry]; rfl
      | some i =>
          simp only [confdAnswer, hentry]
          exact ⟨by rw [hentry]; exact Option.some_ne_none i, rfl⟩
  | _ => rfl

/-- No failure goes unnoticed. -/
def noFaults : Faults := ⟨False, False⟩

end DpdkSpi
