import DpdkSpi.Confd.Publish

/-!
# From a commit to a reload

The ConfD subscriber and the DPDK process it signals, after `fastapi_confd.c`, `app_signal.cpp` and
the beginning of `MaybeReload` in `spi_pipeline.cpp`: every call of the subscriber and every access
of the process to its flags or to the configuration file is a step of its own, and every
interleaving of the steps is a run.

Signals that come while one is pending, and requests that come while one is, are one signal and
one request.  None of them is lost: when the process has nothing to do, it has read the
configuration file of the last session that it was signalled for, or of a later one, in one piece
(`reload_not_lost`).
-/

namespace DpdkSpi

open Lib

/-! ## The process -/

/-- Where the main lcore is. -/
inductive ReloadPc where
  /-- At the beginning of `MaybeReload`, or outside of it. -/
  | idle
  /-- `exchange(0)` has found a request. -/
  | consumed
  /-- `force_quit` was clear behind that. -/
  | loading
  /-- `LoadConfig` has opened a file. -/
  | opened (inode : Nat)
  /-- The rest of `MaybeReload`, whatever it comes to. -/
  | busy
deriving DecidableEq, Repr

/-- The DPDK process, as far as it is about requests to reload. -/
structure DpdkProcess where
  /-- A `SIGUSR1` has been sent, and the handler has not run. -/
  pending : Bool := false
  reloadRequested : Bool := false
  forceQuit : Bool := false
  pc : ReloadPc := .idle
  /-- The session that the last signal was sent for. -/
  requested : Nat := 0
  /-- The session of the file that was opened last. -/
  loaded : Nat := 0
  /-- What was read last. -/
  lastRead : Option (List (BitVec 8)) := none

/-- The steps of the process. -/
inductive ProcessAction where
  /-- `HandleSignal`, for `SIGUSR1`. -/
  | reloadHandler
  /-- `HandleSignal`, for `SIGINT` or `SIGTERM`. -/
  | quitHandler
  /-- `reload_flag->exchange(0)`. -/
  | exchange
  /-- `force_quit.load` behind it. -/
  | checkQuit
  /-- `LoadConfig` opens the configuration file. -/
  | openFile
  /-- `LoadConfig` reads the file. -/
  | readFile
  /-- `MaybeReload` returns. -/
  | finish
deriving DecidableEq, Repr

/-- One step of the process; `none` when it is not enabled. -/
def DpdkProcess.step (configPath : String) (host : Host) (p : DpdkProcess) :
    ProcessAction → Option DpdkProcess
  | .reloadHandler =>
      if p.pending then some { p with pending := false, reloadRequested := true } else none
  | .quitHandler => some { p with forceQuit := true }
  | .exchange =>
      if p.pc = .idle then
        some (if p.reloadRequested then { p with reloadRequested := false, pc := .consumed } else p)
      else none
  | .checkQuit =>
      if p.pc = .consumed then some { p with pc := if p.forceQuit then .idle else .loading }
      else none
  | .openFile =>
      if p.pc = .loading then
        match host.files.entry configPath with
        | none => some { p with pc := .busy }
        | some i => some { p with pc := .opened i, loaded := host.published }
      else none
  | .readFile =>
      match p.pc with
      | .opened i => some { p with pc := .busy, lastRead := (host.files.inode i).contents }
      | _ => none
  | .finish => if p.pc = .busy then some { p with pc := .idle } else none

/-- The process receives a signal. -/
def DpdkProcess.signal (host : Host) (p : DpdkProcess) : DpdkProcess :=
  { p with pending := true, requested := host.published }

/-- The process has nothing to do: it is not about to read the file, and will not be asked to. -/
def DpdkProcess.Settled (p : DpdkProcess) : Prop :=
  p.forceQuit = false ∧ p.pending = false ∧ p.reloadRequested = false ∧
    (p.pc = .idle ∨ p.pc = .busy)

/-! ## The two together -/

/-- A signal was sent to some process. -/
def ConfdCall.signals : (c : ConfdCall) → c.Answer → Bool
  | .kill _, r => r
  | _, _ => false

/-- The subscriber, the host and the process. -/
structure Publication where
  prog : Prog Confd Unit
  host : Host
  process : DpdkProcess

/-- The runs of both: a step is a call of the subscriber or a step of the process.  A signal may
be sent to another process that has the same number. -/
def publicationRuns (F : Faults) (configPath : String) (original : List (BitVec 8) → Prop)
    (commits : Nat) (pid : Int) : System Publication (ConfdCall ⊕ ProcessAction) where
  init s := s.prog = mainLoop configPath commits pid ∧ s.host.Starts configPath original ∧
    s.process = {}
  step s a s' := match a with
    | .inl c => ∃ next r, s.prog = .call c next ∧ s'.prog = next r ∧
        (confdWorld F configPath).Answers s.host c r s'.host ∧
        (s'.process = s.process ∨
          c.signals r = true ∧ s'.process = s.process.signal s.host)
    | .inr a => s'.prog = s.prog ∧ s'.host = s.host ∧
        s.process.step configPath s.host a = some s'.process

/-! ## What a call cannot change -/

/-- No session is forgotten, no older one is published, and files that have been the configuration
file stay as they are. -/
structure Later (configPath : String) (s s' : Host) : Prop where
  sessions : s.sessions <+: s'.sessions
  published_le : s.published ≤ s'.published
  onDisk : ∀ i, s.files.onDisk configPath (some i) → s'.files.onDisk configPath (some i)
  inode : ∀ i, s.files.onDisk configPath (some i) → s'.files.inode i = s.files.inode i

section Later

variable {F : Faults} {configPath : String} {original : List (BitVec 8) → Prop} {s s' : Host}

/-- Calls that do not touch files. -/
theorem Later.of_files (hfiles : s'.files = s.files) (hsessions : s.sessions <+: s'.sessions)
    (hpublished : s.published ≤ s'.published) : Later configPath s s' :=
  ⟨hsessions, hpublished, fun i h ↦ by rwa [hfiles], fun i _ ↦ by rw [hfiles]⟩

theorem Later.refl (s : Host) : Later configPath s s := .of_files rfl List.prefix_rfl le_rfl

theorem Later.of_eq (h : s' = s) : Later configPath s s' := h ▸ .refl s'

theorem Later.setDescriptor (s : Host) (fd : Nat) (d : Option Descriptor) :
    Later configPath s (s.setDescriptor fd d) :=
  .of_files rfl List.prefix_rfl le_rfl

/-- Calls that change a file without a name. -/
theorem Later.setInode {t : Host} (h : Later configPath s t) {i : Nat}
    (hi : s.files.Unnamed configPath i) (v : Inode (BitVec 8)) :
    Later configPath s (t.setInode i v) where
  sessions := h.sessions
  published_le := h.published_le
  onDisk := h.onDisk
  inode j hj := by
    have hne : j ≠ i := by
      rintro rfl
      exact hi hj
    exact (Function.update_of_ne hne v t.files.inode).trans (h.inode j hj)

/-- What a call leaves as it is. -/
theorem later_of_answers {c : ConfdCall} {r : c.Answer} (h : s.Inv F configPath original)
    (hallowed : (confdWorld F configPath).Allowed s c)
    (hanswers : (confdWorld F configPath).Answers s c r s') : Later configPath s s' := by
  cases c with
  | socket =>
      cases r with
      | none => exact .of_eq hanswers
      | some fd => exact hanswers.2 ▸ .setDescriptor s fd _
  | closeSocket sock => exact hanswers ▸ .setDescriptor s sock _
  | cdbEndSession sock => exact hanswers ▸ .setDescriptor s sock _
  | close fd => exact hanswers ▸ .setDescriptor s fd _
  | cdbStartSession sock =>
      cases r with
      | false => exact .of_eq hanswers
      | true =>
          obtain ⟨c, rfl⟩ := hanswers
          exact .of_files rfl (List.prefix_append _ _) le_rfl
  | cdbGetStr sock path => exact .of_eq hanswers.1
  | cdbGet sock path => exact .of_eq hanswers.1
  | cdbGetBool sock path => exact .of_eq hanswers.1
  | cdbNumInstances sock path => exact .of_eq hanswers.1
  | mkstemp stem =>
      rcases r with _ | ⟨fd, path⟩
      · exact .of_eq hanswers
      · obtain ⟨-, -, -, rfl⟩ := hanswers
        refine ⟨List.prefix_rfl, le_rfl, fun i hi ↦ .inl hi, fun i hi ↦ ?_⟩
        exact Function.update_of_ne (s.files.onDisk_lt configPath i hi).ne _ s.files.inode
  | fdopen fd =>
      obtain ⟨i, hi⟩ := hallowed
      cases r with
      | false => exact .of_eq hanswers
      | true =>
          exact hanswers i hi ▸ (Later.setDescriptor s ..).setInode (h.unnamed fd _ i hi rfl) _
  | write out text =>
      obtain ⟨i, w, hi⟩ := hallowed
      exact hanswers i w hi ▸ .setDescriptor s ..
  | writeUnchecked out text =>
      obtain ⟨i, w, hi⟩ := hallowed
      rcases hanswers i w hi with rfl | ⟨-, rfl⟩
      · exact .setDescriptor s ..
      · exact .setDescriptor s ..
  | fflush out =>
      obtain ⟨i, w, hi⟩ := hallowed
      obtain rfl := hanswers i w hi
      cases r with
      | false => exact .setDescriptor s ..
      | true => exact (Later.refl s).setInode (h.unnamed out _ i hi rfl) _
  | fsync fd =>
      obtain ⟨i, w, hi⟩ := hallowed
      obtain rfl := hanswers i w hi
      cases r with
      | false => exact .refl s
      | true => exact (Later.refl s).setInode (h.unnamed fd _ i hi rfl) _
  | fclose out =>
      obtain ⟨i, w, hi⟩ := hallowed
      have hunnamed := h.unnamed out _ i hi rfl
      obtain rfl := hanswers i w hi
      cases r with
      | false => exact (Later.setDescriptor s ..).setInode hunnamed _
      | true =>
          by_cases hw : (s.files.inode i).contents = w
          · rw [if_pos rfl, if_pos hw]
            exact .setDescriptor s ..
          · rw [if_pos rfl, if_neg hw]
            exact (Later.setDescriptor s ..).setInode hunnamed _
  | unlink path =>
      rcases hanswers with h | h
      · exact .of_eq h
      · exact h ▸ ⟨List.prefix_rfl, le_rfl, fun i hi ↦ .inl hi, fun _ _ ↦ rfl⟩
  | rename old new =>
      cases r with
      | false => exact .of_eq hanswers
      | true =>
          exact hanswers.2 ▸
            ⟨List.prefix_rfl, h.published_le, fun i hi ↦ .inl (.inl hi), fun _ _ ↦ rfl⟩
  | _ => exact .of_eq hanswers

/-- What a file held for a session is what it holds for that session later. -/
theorem HoldsPublished.later {k : Nat} {text : List (BitVec 8)}
    (h : HoldsPublished F original s.sessions k text) (hlater : Later configPath s s') :
    HoldsPublished F original s'.sessions k text := by
  cases k with
  | zero => exact h
  | succ k =>
      obtain ⟨c, hc, htext⟩ := h
      obtain ⟨rest, hrest⟩ := hlater.sessions
      obtain ⟨hk, -⟩ := List.getElem?_eq_some_iff.mp hc
      exact ⟨c, hrest ▸ (List.getElem?_append_left hk).trans hc, htext⟩

end Later

/-! ## No request is lost -/

/-- The file that the process has open is the configuration file of the session `loaded`. -/
structure Opened (F : Faults) (configPath : String) (original : List (BitVec 8) → Prop)
    (s : Host) (loaded i : Nat) : Prop where
  onDisk : s.files.onDisk configPath (some i)
  holds : ∃ text, s.files.inode i = ⟨some text, true⟩ ∧
    HoldsPublished F original s.sessions loaded text

/-- What holds all the time. -/
structure Publication.Inv (F : Faults) (configPath : String) (original : List (BitVec 8) → Prop)
    (s : Publication) : Prop where
  ensures : s.prog.Ensures (confdWorld F configPath) (Host.Inv F configPath original) s.host
    fun _ _ ↦ True
  requested_le : s.process.requested ≤ s.host.published
  loaded_le : s.process.loaded ≤ s.host.published
  request : s.process.forceQuit = false → s.process.requested ≤ s.process.loaded ∨
    s.process.pending = true ∨ s.process.reloadRequested = true ∨
      s.process.pc = .consumed ∨ s.process.pc = .loading
  opened : ∀ i, s.process.pc = .opened i →
    Opened F configPath original s.host s.process.loaded i
  read : (∀ i, s.process.pc ≠ .opened i) → 0 < s.process.loaded → ∃ text,
    s.process.lastRead = some text ∧
      HoldsPublished F original s.host.sessions s.process.loaded text

section Request

variable {F : Faults} {configPath : String} {original : List (BitVec 8) → Prop}
  {s s' : Publication}

theorem Publication.Inv.host (h : s.Inv F configPath original) : s.host.Inv F configPath original :=
  h.ensures.inv

/-- A request that has not been consumed is behind a flag, or was read. -/
theorem Publication.Inv.request_of_pc (h : s.Inv F configPath original)
    (hquit : s.process.forceQuit = false) (hconsumed : s.process.pc ≠ .consumed)
    (hloading : s.process.pc ≠ .loading) (pc : ReloadPc) :
    s.process.requested ≤ s.process.loaded ∨ s.process.pending = true ∨
      s.process.reloadRequested = true ∨ pc = .consumed ∨ pc = .loading := by
  rcases h.request hquit with hle | hpending | hflag | hpc | hpc
  · exact .inl hle
  · exact .inr (.inl hpending)
  · exact .inr (.inr (.inl hflag))
  · exact absurd hpc hconsumed
  · exact absurd hpc hloading

/-- A call of the subscriber, with or without a signal. -/
theorem Publication.Inv.call {c : ConfdCall} {next : c.Answer → Prog Confd Unit} {r : c.Answer}
    (h : s.Inv F configPath original) (hprog : s.prog = .call c next) (hprog' : s'.prog = next r)
    (hanswers : (confdWorld F configPath).Answers s.host c r s'.host)
    (hprocess : s'.process = s.process ∨ s'.process = s.process.signal s.host) :
    s'.Inv F configPath original := by
  have hensures := h.ensures
  rw [hprog] at hensures
  have hlater := later_of_answers h.host hensures.2.1 hanswers
  have hopened : ∀ i, s.process.pc = .opened i →
      Opened F configPath original s'.host s.process.loaded i := by
    intro i hi
    obtain ⟨honDisk, text, hinode, htext⟩ := h.opened i hi
    exact ⟨hlater.onDisk i honDisk, text, (hlater.inode i honDisk).trans hinode,
      htext.later hlater⟩
  have hread : (∀ i, s.process.pc ≠ .opened i) → 0 < s.process.loaded → ∃ text,
      s.process.lastRead = some text ∧
        HoldsPublished F original s'.host.sessions s.process.loaded text := by
    intro hpc hloaded
    obtain ⟨text, hread, htext⟩ := h.read hpc hloaded
    exact ⟨text, hread, htext.later hlater⟩
  have hloaded := h.loaded_le.trans hlater.published_le
  have hnext : s'.prog.Ensures (confdWorld F configPath) (Host.Inv F configPath original) s'.host
      fun _ _ ↦ True := by
    rw [hprog']
    exact hensures.2.2 r s'.host hanswers
  rcases hprocess with hprocess | hprocess
  · exact
      { ensures := hnext
        requested_le := hprocess ▸ h.requested_le.trans hlater.published_le
        loaded_le := hprocess ▸ hloaded
        request := hprocess ▸ h.request
        opened := hprocess ▸ hopened
        read := hprocess ▸ hread }
  · exact
      { ensures := hnext
        requested_le := hprocess ▸ hlater.published_le
        loaded_le := hprocess ▸ hloaded
        request := fun _ ↦ hprocess ▸ .inr (.inl rfl)
        opened := hprocess ▸ hopened
        read := hprocess ▸ hread }

/-- A step of the process. -/
theorem Publication.Inv.process {a : ProcessAction} (h : s.Inv F configPath original)
    {p : DpdkProcess} (hstep : s.process.step configPath s.host a = some p) :
    { s with process := p }.Inv F configPath original := by
  cases a with
  | reloadHandler =>
      obtain ⟨-, hp⟩ := Option.ite_none_right_eq_some.mp hstep
      obtain rfl := Option.some.inj hp
      exact ⟨h.ensures, h.requested_le, h.loaded_le, fun _ ↦ .inr (.inr (.inl rfl)), h.opened,
        h.read⟩
  | quitHandler =>
      obtain rfl := Option.some.inj hstep
      refine ⟨h.ensures, h.requested_le, h.loaded_le, fun hquit ↦ ?_, h.opened, h.read⟩
      cases hquit
  | exchange =>
      obtain ⟨hpc, hp⟩ := Option.ite_none_right_eq_some.mp hstep
      obtain rfl := Option.some.inj hp
      split
      · exact ⟨h.ensures, h.requested_le, h.loaded_le, fun _ ↦ .inr (.inr (.inr (.inl rfl))),
          nofun, fun _ ↦ h.read fun i hi ↦ by rw [hpc] at hi; cases hi⟩
      · exact h
  | checkQuit =>
      obtain ⟨hpc, hp⟩ := Option.ite_none_right_eq_some.mp hstep
      obtain rfl := Option.some.inj hp
      have hread := h.read fun i hi ↦ by rw [hpc] at hi; cases hi
      cases hquit : s.process.forceQuit with
      | true =>
          refine ⟨h.ensures, h.requested_le, h.loaded_le, fun hfalse ↦ ?_, nofun, fun _ ↦ hread⟩
          cases hfalse
      | false =>
          exact ⟨h.ensures, h.requested_le, h.loaded_le,
            fun _ ↦ .inr (.inr (.inr (.inr rfl))), nofun, fun _ ↦ hread⟩
  | openFile =>
      obtain ⟨hpc, hp⟩ := Option.ite_none_right_eq_some.mp hstep
      obtain ⟨i, text, hentry, hinode, htext⟩ := h.host.current
      rw [hentry] at hp
      obtain rfl := Option.some.inj hp
      refine ⟨h.ensures, h.requested_le, le_rfl, fun _ ↦ .inl h.requested_le, ?_,
        fun hne ↦ absurd rfl (hne i)⟩
      intro j hj
      obtain rfl : i = j := ReloadPc.opened.inj hj
      exact ⟨hentry ▸ s.host.files.entry_onDisk configPath, text, hinode, htext⟩
  | readFile =>
      unfold DpdkProcess.step at hstep
      cases hpc : s.process.pc with
      | opened i =>
          rw [hpc] at hstep
          obtain rfl := Option.some.inj hstep
          obtain ⟨-, text, hinode, htext⟩ := h.opened i hpc
          refine ⟨h.ensures, h.requested_le, h.loaded_le, fun hquit ↦ ?_, nofun, fun _ _ ↦
            ⟨text, congrArg Inode.contents hinode, htext⟩⟩
          exact h.request_of_pc hquit (by rw [hpc]; nofun) (by rw [hpc]; nofun) _
      | _ =>
          rw [hpc] at hstep
          cases hstep
  | finish =>
      obtain ⟨hpc, hp⟩ := Option.ite_none_right_eq_some.mp hstep
      obtain rfl := Option.some.inj hp
      refine ⟨h.ensures, h.requested_le, h.loaded_le, fun hquit ↦ ?_, nofun,
        fun _ ↦ h.read fun i hi ↦ by rw [hpc] at hi; cases hi⟩
      exact h.request_of_pc hquit (by rw [hpc]; decide) (by rw [hpc]; decide) _

theorem publication_inv (hF : ¬F.unchecked) {commits : Nat} {pid : Int}
    (h : (publicationRuns F configPath original commits pid).Reach s) :
    s.Inv F configPath original := by
  refine h.invariant ?_ ?_
  · rintro ⟨prog, host, process⟩ ⟨rfl, hhost, rfl⟩
    refine ⟨?_, Nat.zero_le _, Nat.zero_le _, fun _ ↦ .inl le_rfl, nofun,
      fun _ h ↦ absurd h (lt_irrefl 0)⟩
    exact (ensures_mainLoop hF commits pid hhost.inv).imp fun _ _ _ _ ↦ trivial
  · rintro s (c | a) ⟨prog, host, process⟩ hs hstep
    · obtain ⟨next, r, hprog, hprog', hanswers, hprocess⟩ := hstep
      exact hs.call hprog hprog' hanswers (hprocess.imp id And.right)
    · obtain ⟨rfl, rfl, hprocess⟩ := hstep
      exact hs.process hprocess

end Request

/-- When every leaf can be read, what a file held for a session is the whole document. -/
theorem HoldsPublished.whole {F : Faults} {original : List (BitVec 8) → Prop}
    {sessions : List Snapshot} {k : Nat} {text : List (BitVec 8)}
    (h : HoldsPublished F original sessions k text) (hk : 0 < k) (hF : ¬F.flaky) :
    ∃ c, sessions[k - 1]? = some c ∧ text = render c.documentLines := by
  cases k with
  | zero => exact absurd hk (lt_irrefl 0)
  | succ k =>
      obtain ⟨c, hc, htext⟩ := h
      exact ⟨c, hc, htext.whole hF⟩

/-- **No commit that was signalled is lost.**  Whatever the order of the steps of the subscriber
and of the process and whatever fails with notice, when the process has nothing to do, what it has
read last is the document of one session, without optional leaves whose reads failed, and that
session is not older than the last one it was signalled for. -/
theorem reload_not_lost {F : Faults} (hF : ¬F.unchecked) {configPath : String}
    {original : List (BitVec 8) → Prop} {commits : Nat} {pid : Int} {s : Publication}
    (h : (publicationRuns F configPath original commits pid).Reach s)
    (hsettled : s.process.Settled) :
    s.process.requested ≤ s.process.loaded ∧ (0 < s.process.loaded → ∃ text,
      s.process.lastRead = some text ∧
        HoldsPublished F original s.host.sessions s.process.loaded text ∧
        (¬F.flaky → ∃ c, s.host.sessions[s.process.loaded - 1]? = some c ∧
          text = render c.documentLines)) := by
  have hinv := publication_inv hF h
  obtain ⟨hquit, hpending, hflag, hpc⟩ := hsettled
  have hne : s.process.pc ≠ .consumed ∧ s.process.pc ≠ .loading ∧
      ∀ i, s.process.pc ≠ .opened i := by
    rcases hpc with hpc | hpc
    · rw [hpc]
      exact ⟨nofun, nofun, nofun⟩
    · rw [hpc]
      exact ⟨nofun, nofun, nofun⟩
  refine ⟨?_, fun hloaded ↦ ?_⟩
  case refine_2 =>
    obtain ⟨text, hread, htext⟩ := hinv.read hne.2.2 hloaded
    exact ⟨text, hread, htext, htext.whole hloaded⟩
  rcases hinv.request_of_pc hquit hne.1 hne.2.1 .idle with h | h | h | h | h
  · exact h
  · rw [hpending] at h
    cases h
  · rw [hflag] at h
    cases h
  · cases h
  · cases h

/-! ### A commit and a reload -/

/-- Every call succeeds, and every signal reaches the process. -/
def Publication.commit (c : Snapshot) : Prog Confd Unit → Host → DpdkProcess → Publication
  | .done u, host, process => ⟨.done u, host, process⟩
  | .call call next, host, process =>
      let (r, host') := confdAnswer c host call
      commit c (next r) host' (if call.signals r then process.signal host else process)

theorem reach_commit {F : Faults} {configPath : String} {original : List (BitVec 8) → Prop}
    {commits : Nat} {pid : Int} (c : Snapshot) {prog : Prog Confd Unit} {host : Host}
    {process : DpdkProcess}
    (h : (publicationRuns F configPath original commits pid).Reach ⟨prog, host, process⟩) :
    (publicationRuns F configPath original commits pid).Reach
      (Publication.commit c prog host process) := by
  induction prog generalizing host process with
  | done u => exact h
  | call call next ih =>
      have hprocess : ∀ b : Bool, (if b then process.signal host else process) = process ∨
          b = true ∧ (if b then process.signal host else process) = process.signal host
        | false => .inl rfl
        | true => .inr ⟨rfl, rfl⟩
      exact ih _ (h.step (a := .inl call) ⟨next, (confdAnswer c host call).1, rfl, rfl,
        answers_confdAnswer F configPath c host call, hprocess _⟩)

/-- Steps of the process alone. -/
def Publication.processStep (configPath : String) (s : Publication) :
    ConfdCall ⊕ ProcessAction → Option Publication
  | .inl _ => none
  | .inr a => (s.process.step configPath s.host a).map fun process ↦ { s with process }

theorem step_processStep {F : Faults} {configPath : String} {original : List (BitVec 8) → Prop}
    {commits : Nat} {pid : Int} {s s' : Publication} {a : ConfdCall ⊕ ProcessAction}
    (h : s.processStep configPath a = some s') :
    (publicationRuns F configPath original commits pid).step s a s' := by
  cases a with
  | inl c => cases h
  | inr a =>
      obtain ⟨process, hprocess, rfl⟩ := Option.map_eq_some_iff.mp h
      exact ⟨rfl, rfl, hprocess⟩

/-- One commit of a database, and a reload. -/
def afterReload (c : Snapshot) : Option Publication :=
  [ProcessAction.reloadHandler, .exchange, .checkQuit, .openFile, .readFile, .finish].map Sum.inr
    |>.foldlM (Publication.processStep "config.yaml")
      (.commit c (mainLoop "config.yaml" 1 0) (startHost "config.yaml" []) {})

theorem reach_afterReload {c : Snapshot} {s : Publication} (h : s ∈ afterReload c) :
    (publicationRuns noFaults "config.yaml" (· = []) 1 0).Reach s :=
  System.Reach.foldlM (fun _ _ _ ↦ step_processStep)
    (reach_commit c (.init ⟨rfl, starts_startHost "config.yaml" [], rfl⟩)) _ h

/-- The first session is loaded behind that reload. -/
theorem reload_not_lost_afterReload : ∃ s, afterReload (oneGroup brokenName) = some s ∧
    s.process.requested = 1 ∧ s.process.requested ≤ s.process.loaded ∧ ∃ text c,
      s.process.lastRead = some text ∧ s.host.sessions[s.process.loaded - 1]? = some c ∧
        text = render c.documentLines := by
  have hsome : (afterReload (oneGroup brokenName)).isSome := by decide +kernel
  obtain ⟨s, hs⟩ := Option.isSome_iff_exists.mp hsome
  have hprocess : ∀ s ∈ afterReload (oneGroup brokenName), s.process.requested = 1 ∧
      s.process.forceQuit = false ∧ s.process.pending = false ∧
      s.process.reloadRequested = false ∧ s.process.pc = .idle := by
    decide +kernel
  obtain ⟨hrequested, hquit, hpending, hflag, hpc⟩ := hprocess s hs
  obtain ⟨hle, hread⟩ := reload_not_lost (F := noFaults) id (reach_afterReload hs)
    ⟨hquit, hpending, hflag, .inl hpc⟩
  obtain ⟨text, htext, -, hwhole⟩ := hread (by omega)
  obtain ⟨c, hc, hdocument⟩ := hwhole id
  exact ⟨s, hs, hrequested, hle, text, c, htext, hc, hdocument⟩

end DpdkSpi
