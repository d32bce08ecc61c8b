import Mathlib.Logic.Function.Basic

/-!
# Files that survive a crash

Files and the entries of a directory, as a process sees them and as a crash may leave them: an
entry that has changed may be found in any of its states, and a file is found as it was written if
it has been synchronised, else with any contents.

A path is `Secured` when it names a synchronised file with good contents whenever the crash comes.
Replacing the entry by one of another such file keeps it so (`Secured.rename`), and nothing else
that happens to other files and other paths matters.
-/

namespace DpdkSpi.Lib

/-- What a file holds, if that is known, and whether all of it is on the disk. -/
structure Inode (β : Type) where
  contents : Option (List β)
  synced : Bool

/-- Files, and the entries that name them. -/
structure Files (π β : Type) where
  inode : Nat → Inode β
  /-- The number of the next file. -/
  next : Nat
  entry : π → Option Nat
  /-- The states in which a crash may leave an entry. -/
  onDisk : π → Option Nat → Prop
  entry_onDisk : ∀ p, onDisk p (entry p)
  onDisk_lt : ∀ p i, onDisk p (some i) → i < next

namespace Files

variable {π β : Type}

/-! ## Operations -/

/-- Another state of a file. -/
def setInode (f : Files π β) (i : Nat) (v : Inode β) : Files π β :=
  { f with inode := Function.update f.inode i v }

/-- A new and empty file, without an entry. -/
def alloc (f : Files π β) : Files π β :=
  { f with
    inode := Function.update f.inode f.next ⟨some [], false⟩
    next := f.next + 1
    onDisk_lt := fun p i h ↦ Nat.lt_succ_of_lt (f.onDisk_lt p i h) }

section Entries

variable [DecidableEq π]

/-- Another state of an entry, which is on the disk at some later time. -/
def link (f : Files π β) (p : π) (e : Option Nat) (he : ∀ i, e = some i → i < f.next) :
    Files π β :=
  { f with
    entry := Function.update f.entry p e
    onDisk := fun q d ↦ f.onDisk q d ∨ (q = p ∧ d = e)
    entry_onDisk := fun q ↦ by
      by_cases hq : q = p
      · exact .inr ⟨hq, by rw [hq, Function.update_self]⟩
      · rw [Function.update_of_ne hq]
        exact .inl (f.entry_onDisk q)
    onDisk_lt := fun q i h ↦ by
      rcases h with h | ⟨-, h⟩
      · exact f.onDisk_lt q i h
      · exact he i h.symm }

/-- A new file with an entry. -/
def create (f : Files π β) (p : π) : Files π β :=
  f.alloc.link p (some f.next) fun _ h ↦ Option.some.inj h ▸ Nat.lt_succ_self _

/-- A directory with one file, all of which is on the disk. -/
def single (p : π) (c : List β) : Files π β where
  inode _ := ⟨some c, true⟩
  next := 1
  entry q := if q = p then some 0 else none
  onDisk q e := e = if q = p then some 0 else none
  entry_onDisk _ := rfl
  onDisk_lt q i h := by
    split at h
    · exact Option.some.inj h ▸ Nat.zero_lt_one
    · cases h

/-- Removing an entry. -/
def unlink (f : Files π β) (p : π) : Files π β := f.link p none nofun

/-- Giving the entry of a file another path. -/
def rename (f : Files π β) (old new : π) : Files π β :=
  (f.link new (f.entry old) fun i h ↦
    f.onDisk_lt old i (h ▸ f.entry_onDisk old)).link old none nofun

end Entries

/-! ## Crashes -/

/-- What may be left by a crash. -/
structure Crash (f f' : Files π β) : Prop where
  entry : ∀ p, f.onDisk p (f'.entry p)
  synced : ∀ i, (f.inode i).synced = true → f'.inode i = f.inode i

/-- What may be read at a path. -/
def MayRead (f : Files π β) (p : π) (c : List β) : Prop :=
  ∃ i, f.entry p = some i ∧ ((f.inode i).contents = none ∨ (f.inode i).contents = some c)

/-- Whenever the crash comes, the path names a synchronised file with good contents. -/
def Secured (f : Files π β) (P : List β → Prop) (p : π) : Prop :=
  ∀ e, f.onDisk p e → ∃ i c, e = some i ∧ f.inode i = ⟨some c, true⟩ ∧ P c

/-- No crash lets the path name the file. -/
def Unnamed (f : Files π β) (p : π) (i : Nat) : Prop := ¬f.onDisk p (some i)

variable {f : Files π β} {P : List β → Prop} {p : π}

/-- The file is there, and can only be read with good contents. -/
theorem Secured.read (h : f.Secured P p) :
    (∃ i, f.entry p = some i) ∧ ∀ c, f.MayRead p c → P c := by
  obtain ⟨i, c, hi, hinode, hc⟩ := h _ (f.entry_onDisk p)
  refine ⟨⟨i, hi⟩, ?_⟩
  rintro c' ⟨j, hj, hread⟩
  obtain rfl : i = j := Option.some.inj (hi.symm.trans hj)
  rw [hinode] at hread
  rcases hread with hread | hread
  · cases hread
  · obtain rfl : c = c' := Option.some.inj hread
    exact hc

/-- The same holds after a crash. -/
theorem Secured.crash (h : f.Secured P p) {f' : Files π β} (hcrash : f.Crash f') :
    (∃ i, f'.entry p = some i) ∧ ∀ c, f'.MayRead p c → P c := by
  obtain ⟨i, c, hi, hinode, hc⟩ := h _ (hcrash.entry p)
  have hsame : f'.inode i = ⟨some c, true⟩ := by
    rw [hcrash.synced i (by rw [hinode]), hinode]
  refine ⟨⟨i, hi⟩, ?_⟩
  rintro c' ⟨j, hj, hread⟩
  obtain rfl : i = j := Option.some.inj (hi.symm.trans hj)
  rw [hsame] at hread
  rcases hread with hread | hread
  · cases hread
  · obtain rfl : c = c' := Option.some.inj hread
    exact hc

theorem Secured.mono {R : List β → Prop} (h : f.Secured P p) (hPR : ∀ c, P c → R c) :
    f.Secured R p := by
  intro e he
  obtain ⟨i, c, hi, hinode, hc⟩ := h e he
  exact ⟨i, c, hi, hinode, hPR c hc⟩

theorem Secured.setInode (h : f.Secured P p) {i : Nat} (hi : f.Unnamed p i) (v : Inode β) :
    (f.setInode i v).Secured P p := by
  intro e he
  obtain ⟨j, c, rfl, hinode, hc⟩ := h e he
  refine ⟨j, c, rfl, ?_, hc⟩
  have hne : j ≠ i := by
    rintro rfl
    exact hi he
  exact (Function.update_of_ne hne v f.inode).trans hinode

theorem Secured.alloc (h : f.Secured P p) : f.alloc.Secured P p := by
  intro e he
  obtain ⟨j, c, rfl, hinode, hc⟩ := h e he
  refine ⟨j, c, rfl, ?_, hc⟩
  have hne : j ≠ f.next := Nat.ne_of_lt (f.onDisk_lt p j he)
  exact (Function.update_of_ne hne _ f.inode).trans hinode

theorem unnamed_next (f : Files π β) (p : π) : f.Unnamed p f.next :=
  fun h ↦ Nat.lt_irrefl _ (f.onDisk_lt p _ h)

/-! ### Entries -/

variable [DecidableEq π]

theorem secured_single (p : π) (c : List β) : (single p c).Secured (· = c) p :=
  fun _ he ↦ ⟨0, c, he.trans (if_pos rfl), rfl, rfl⟩

theorem Secured.link_of_ne (h : f.Secured P p) {q : π} (hq : p ≠ q) {e : Option Nat}
    (he : ∀ i, e = some i → i < f.next) : (f.link q e he).Secured P p := by
  rintro d (hd | ⟨rfl, -⟩)
  · exact h d hd
  · exact absurd rfl hq

theorem Secured.create (h : f.Secured P p) {q : π} (hq : p ≠ q) : (f.create q).Secured P p :=
  h.alloc.link_of_ne hq _

theorem Secured.unlink (h : f.Secured P p) {q : π} (hq : p ≠ q) : (f.unlink q).Secured P p :=
  h.link_of_ne hq _

/-- **Replacing the entry**: a synchronised file with good contents takes its place. -/
theorem Secured.rename (h : f.Secured P p) {old : π} (hold : p ≠ old) {i : Nat} {c : List β}
    (hentry : f.entry old = some i) (hinode : f.inode i = ⟨some c, true⟩) (hc : P c) :
    (f.rename old p).Secured P p := by
  rintro d ((hd | ⟨-, rfl⟩) | ⟨rfl, -⟩)
  · exact h d hd
  · exact ⟨i, c, hentry, hinode, hc⟩
  · exact absurd rfl hold

theorem Unnamed.create {i : Nat} (h : f.Unnamed p i) {q : π} (hq : p ≠ q) :
    (f.create q).Unnamed p i := by
  rintro (hd | ⟨rfl, -⟩)
  · exact h hd
  · exact hq rfl

theorem Unnamed.unlink {i : Nat} (h : f.Unnamed p i) (q : π) : (f.unlink q).Unnamed p i := by
  rintro (hd | ⟨-, hd⟩)
  · exact h hd
  · cases hd

theorem Unnamed.rename {i : Nat} (h : f.Unnamed p i) {old new : π} (hi : f.entry old ≠ some i) :
    (f.rename old new).Unnamed p i := by
  rintro ((hd | ⟨-, hd⟩) | ⟨-, hd⟩)
  · exact h hd
  · exact hi hd.symm
  · cases hd

end Files

end DpdkSpi.Lib
