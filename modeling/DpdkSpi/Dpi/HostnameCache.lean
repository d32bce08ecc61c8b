import Mathlib.Logic.Function.Basic
import DpdkSpi.Dpi.Table

/-!
# The hostname cache

`HostnameCache`, after `hostname_cache.hpp`: an open-addressed table of 4096 slots that is
probed at four of them and never cleared.  An entry is known by the hash of its hostname and
by the first twelve bytes.

Which insertion wrote an entry last is not part of the cache.  It is kept beside it
(`TaggedCache`), with anything else that is to be known about the insertion, and what the entry
says about its writer is one invariant (`TaggedCache.WellTagged`).  A lookup answers with what
was stored for a hostname of the same hash that starts the same (`TaggedCache.lookup_writer`),
which need not be the hostname that is looked up.
-/

namespace DpdkSpi

/-! ## Entries -/

/-- `kSlots`. -/
def kSlots : Nat := 4096

/-- `kMaxProbes`. -/
def kMaxProbes : Nat := 4

/-- An entry of the cache.  The two words of the key are the bytes they are copied from. -/
structure CacheEntry where
  hash : BitVec 32 := 0
  key32 : List (BitVec 8) := List.replicate 4 0
  key64 : List (BitVec 8) := List.replicate 8 0
  filterIndex : BitVec 16 := kNoMatchIdx
  generation : BitVec 32 := 0
deriving DecidableEq, Repr

/-- `Hash32`: FNV-1a.  A byte is a signed `char`. -/
def hash32 (hostname : List (BitVec 8)) : BitVec 32 :=
  hostname.foldl (fun hash byte ↦ (hash ^^^ byte.signExtend 32) * 16777619) 2166136261

/-- Bytes that are copied over zeros. -/
def zeroPadded (n : Nat) (bytes : List (BitVec 8)) : List (BitVec 8) :=
  bytes ++ List.replicate (n - bytes.length) 0

namespace CacheEntry

/-- `CopyKey`. -/
def copyKey (e : CacheEntry) (hostname : List (BitVec 8)) : CacheEntry :=
  { e with
    key32 := zeroPadded 4 (hostname.take 4)
    key64 := zeroPadded 8 ((hostname.drop 4).take 8) }

/-- `KeyMatches`. -/
def keyMatches (e : CacheEntry) (hostname : List (BitVec 8)) : Bool :=
  if hostname.length < 4 then true
  else if hostname.take 4 ≠ e.key32 then false
  else if hostname.length ≤ 4 then true
  else
    let count := min (hostname.length - 4) 8
    (hostname.drop 4).take count = e.key64.take count

/-- `StoreEntry`. -/
def store (e : CacheEntry) (hash : BitVec 32) (hostname : List (BitVec 8))
    (filterIndex : BitVec 16) (generation : BitVec 32) : CacheEntry :=
  { e.copyKey hostname with hash, filterIndex, generation }

/-- The entry answers a lookup. -/
def answers (e : CacheEntry) (hostname : List (BitVec 8)) (generation : BitVec 32) : Bool :=
  e.hash ≠ 0 && e.hash = hash32 hostname && e.generation = generation && e.keyMatches hostname

/-- The entry takes an insertion: it is empty, or it has the hostname. -/
def takes (e : CacheEntry) (hostname : List (BitVec 8)) : Bool :=
  e.hash = 0 || (e.hash = hash32 hostname && e.keyMatches hostname)

/-- What an insertion leaves in an entry that takes it. -/
def written (e : CacheEntry) (hostname : List (BitVec 8)) (filterIndex : BitVec 16)
    (generation : BitVec 32) : CacheEntry :=
  if e.hash = 0 then e.store (hash32 hostname) hostname filterIndex generation
  else { e with filterIndex, generation }

end CacheEntry

/-! ## The cache -/

/-- `HostnameCache`. -/
structure HostnameCache where
  slots : Fin kSlots → CacheEntry := fun _ ↦ {}

namespace HostnameCache

/-- The slots that are probed for a hash. -/
def probes (hash : BitVec 32) : List (Fin kSlots) :=
  (List.range kMaxProbes).map fun probe ↦
    ⟨(hash.toNat % kSlots + probe) % kSlots, Nat.mod_lt _ (by decide)⟩

/-- The slot that answers a lookup. -/
def lookupSlot (c : HostnameCache) (hostname : List (BitVec 8)) (generation : BitVec 32) :
    Option (Fin kSlots) :=
  if hostname = [] then none
  else (probes (hash32 hostname)).find? fun s ↦ (c.slots s).answers hostname generation

/-- `Lookup`. -/
def lookup (c : HostnameCache) (hostname : List (BitVec 8)) (generation : BitVec 32) : BitVec 16 :=
  (c.lookupSlot hostname generation).elim kNoMatchIdx fun s ↦ (c.slots s).filterIndex

/-- The slot that takes an insertion. -/
def insertSlot (c : HostnameCache) (hostname : List (BitVec 8)) : Option (Fin kSlots) :=
  if hostname = [] then none
  else (probes (hash32 hostname)).find? fun s ↦ (c.slots s).takes hostname

/-- `Insert`. -/
def insert (c : HostnameCache) (hostname : List (BitVec 8)) (filterIndex : BitVec 16)
    (generation : BitVec 32) : HostnameCache :=
  match c.insertSlot hostname with
  | none => c
  | some s =>
      { slots := Function.update c.slots s
          ((c.slots s).written hostname filterIndex generation) }

theorem answers_of_lookupSlot {c : HostnameCache} {hostname : List (BitVec 8)}
    {generation : BitVec 32} {s : Fin kSlots} (h : c.lookupSlot hostname generation = some s) :
    (c.slots s).answers hostname generation = true := by
  unfold lookupSlot at h
  split at h
  · cases h
  · have hfound := List.find?_some h
    exact hfound

theorem takes_of_insertSlot {c : HostnameCache} {hostname : List (BitVec 8)} {s : Fin kSlots}
    (h : c.insertSlot hostname = some s) : (c.slots s).takes hostname = true := by
  unfold insertSlot at h
  split at h
  · cases h
  · have hfound := List.find?_some h
    exact hfound

end HostnameCache

/-! ## Keys -/

namespace CacheEntry

variable {e : CacheEntry} {h h' : List (BitVec 8)}

theorem zeroPadded_of_length {n : Nat} {bytes : List (BitVec 8)} (h : n ≤ bytes.length) :
    zeroPadded n bytes = bytes := by
  rw [zeroPadded, Nat.sub_eq_zero_of_le h, List.replicate_zero, List.append_nil]

/-- A stored hostname has its own key. -/
theorem keyMatches_copyKey (e : CacheEntry) (h : List (BitVec 8)) :
    (e.copyKey h).keyMatches h = true := by
  unfold keyMatches copyKey
  split
  · rfl
  · rename_i hlen
    rw [zeroPadded_of_length (by rw [List.length_take]; omega), if_neg (by simp)]
    split
    · rfl
    · simp only [decide_eq_true_eq]
      rw [zeroPadded, List.take_append_of_le_length, List.take_take]
      · congr 1
        omega
      · simp only [List.length_take, List.length_drop]
        omega

/-- A key is the start of a hostname that it matches. -/
theorem take_eq_key (hkey : e.keyMatches h = true) (hlen : 4 ≤ h.length) {n : Nat}
    (hn : n ≤ min 12 h.length) : h.take n = (e.key32 ++ e.key64).take n := by
  unfold keyMatches at hkey
  rw [if_neg (by omega)] at hkey
  have hfour : h.take 4 = e.key32 := by
    by_contra hne
    rw [if_pos hne] at hkey
    cases hkey
  rw [if_neg (by simpa using hfour)] at hkey
  have hcount : (h.drop 4).take (min (h.length - 4) 8) = e.key64.take (min (h.length - 4) 8) := by
    split at hkey
    · rename_i hle
      rw [show min (h.length - 4) 8 = 0 by omega, List.take_zero, List.take_zero]
    · exact of_decide_eq_true hkey
  have hall : h.take (4 + min (h.length - 4) 8) =
      (e.key32 ++ e.key64).take (4 + min (h.length - 4) 8) := by
    have hlength : e.key32.length = 4 := by
      rw [← hfour, List.length_take]
      omega
    rw [List.take_add, hcount, hfour, List.take_append, hlength, Nat.add_sub_cancel_left,
      List.take_of_length_le (l := e.key32) (by omega)]
  have htake := congrArg (List.take n) hall
  rw [List.take_take, List.take_take] at htake
  rw [show min n (4 + min (h.length - 4) 8) = n by omega] at htake
  exact htake

/-- What two hostnames with one key have in common. -/
theorem take_eq_of_keyMatches (hkey : e.keyMatches h = true) (hkey' : e.keyMatches h' = true)
    (hlen : 4 ≤ h.length) (hlen' : 4 ≤ h'.length) :
    h.take (min 12 (min h.length h'.length)) = h'.take (min 12 (min h.length h'.length)) := by
  rw [take_eq_key hkey hlen (by omega), take_eq_key hkey' hlen' (by omega)]

/-- What an insertion writes. -/
theorem written_spec (htakes : e.takes h = true) (filterIndex : BitVec 16)
    (generation : BitVec 32) :
    (e.written h filterIndex generation).hash = hash32 h ∧
      (e.written h filterIndex generation).filterIndex = filterIndex ∧
      (e.written h filterIndex generation).generation = generation ∧
      (e.written h filterIndex generation).keyMatches h = true := by
  unfold written
  split
  · exact ⟨rfl, rfl, rfl, keyMatches_copyKey e h⟩
  · rename_i hne
    rw [takes, Bool.or_eq_true, Bool.and_eq_true, decide_eq_true_eq, decide_eq_true_eq] at htakes
    obtain ⟨hhash, hkey⟩ := htakes.resolve_left hne
    exact ⟨hhash, rfl, rfl, hkey⟩

theorem answers_iff {generation : BitVec 32} : e.answers h generation = true ↔
    e.hash ≠ 0 ∧ e.hash = hash32 h ∧ e.generation = generation ∧ e.keyMatches h = true := by
  simp only [answers, Bool.and_eq_true, decide_eq_true_eq, and_assoc]

/-- An entry that answers for a hostname would take its insertion. -/
theorem takes_of_answers {generation : BitVec 32} (hanswers : e.answers h generation = true) :
    e.takes h = true := by
  obtain ⟨-, hhash, -, hkey⟩ := answers_iff.mp hanswers
  rw [takes, hkey, hhash, decide_eq_true rfl, Bool.and_self, Bool.or_true]

end CacheEntry

/-- **What was inserted is found**, whatever it is, unless the hash of the hostname is zero. -/
theorem HostnameCache.lookup_insert_self {c : HostnameCache} {hostname : List (BitVec 8)}
    {s : Fin kSlots} (hslot : c.insertSlot hostname = some s) (hhash : hash32 hostname ≠ 0)
    (filterIndex : BitVec 16) (generation : BitVec 32) :
    (c.insert hostname filterIndex generation).lookup hostname generation = filterIndex := by
  obtain ⟨hhash', hidx, hgen, hkey⟩ :=
    CacheEntry.written_spec (takes_of_insertSlot hslot) filterIndex generation
  have hinsert : c.insert hostname filterIndex generation =
      { slots := Function.update c.slots s
          ((c.slots s).written hostname filterIndex generation) } := by
    rw [insert, hslot]
  have hself : (c.insert hostname filterIndex generation).slots s =
      (c.slots s).written hostname filterIndex generation := by
    rw [hinsert]
    exact Function.update_self s _ _
  have hfound : (c.insert hostname filterIndex generation).lookupSlot hostname generation =
      some s := by
    unfold insertSlot at hslot
    unfold lookupSlot
    by_cases hempty : hostname = []
    · rw [if_pos hempty] at hslot
      cases hslot
    rw [if_neg hempty] at hslot ⊢
    obtain ⟨htakes, before, after, hprobes, hbefore⟩ := List.find?_eq_some_iff_append.mp hslot
    refine List.find?_eq_some_iff_append.mpr ⟨?_, before, after, hprobes, fun s' hs' ↦ ?_⟩
    · rw [hself, CacheEntry.answers_iff, hhash']
      exact ⟨hhash, rfl, hgen, hkey⟩
    · -- The slots in front do not take the hostname, so they are others, and do not answer.
      have hfull := hbefore s' hs'
      have hne : s' ≠ s := by
        rintro rfl
        rw [htakes] at hfull
        cases hfull
      have hkept : (c.insert hostname filterIndex generation).slots s' = c.slots s' := by
        rw [hinsert]
        exact Function.update_of_ne hne _ _
      rw [hkept, Bool.not_eq_true', Bool.eq_false_iff]
      intro hanswers
      rw [CacheEntry.takes_of_answers hanswers] at hfull
      cases hfull
  rw [lookup, hfound]
  show ((c.insert hostname filterIndex generation).slots s).filterIndex = filterIndex
  rw [hself, hidx]

/-! ## Writers -/

/-- The arguments of an insertion. -/
structure CacheInsert where
  hostname : List (BitVec 8)
  filterIndex : BitVec 16
  generation : BitVec 32
deriving DecidableEq, Repr

/-- A cache, and for each slot the insertion that wrote it last, with a tag. -/
structure TaggedCache (τ : Type) where
  cache : HostnameCache := {}
  writer : Fin kSlots → Option (CacheInsert × τ) := fun _ ↦ none

namespace TaggedCache

variable {τ : Type}

/-- An insertion with a tag. -/
def insert (c : TaggedCache τ) (op : CacheInsert) (tag : τ) : TaggedCache τ where
  cache := c.cache.insert op.hostname op.filterIndex op.generation
  writer :=
    match c.cache.insertSlot op.hostname with
    | none => c.writer
    | some s => Function.update c.writer s (some (op, tag))

/-- An entry is as its writer left it. -/
def WellTagged (c : TaggedCache τ) : Prop :=
  ∀ s, match c.writer s with
    | none => c.cache.slots s = {}
    | some (op, _) =>
        (c.cache.slots s).hash = hash32 op.hostname ∧
          (c.cache.slots s).filterIndex = op.filterIndex ∧
          (c.cache.slots s).generation = op.generation ∧
          (c.cache.slots s).keyMatches op.hostname = true

theorem wellTagged_empty : WellTagged ({} : TaggedCache τ) := fun _ ↦ rfl

/-- **Insertions keep the writers.** -/
theorem WellTagged.insert {c : TaggedCache τ} (h : WellTagged c) (op : CacheInsert) (tag : τ) :
    WellTagged (c.insert op tag) := by
  unfold TaggedCache.insert HostnameCache.insert
  cases hslot : c.cache.insertSlot op.hostname with
  | none => exact h
  | some s =>
      have htakes := HostnameCache.takes_of_insertSlot hslot
      intro s'
      by_cases hs : s' = s
      · subst hs
        simpa using CacheEntry.written_spec htakes op.filterIndex op.generation
      · simpa [hs] using h s'

/-- A writer is the insertion, or one from before. -/
theorem writer_insert {c : TaggedCache τ} {op : CacheInsert} {tag : τ} {s : Fin kSlots}
    {w : CacheInsert × τ} (h : (c.insert op tag).writer s = some w) :
    c.writer s = some w ∨ w = (op, tag) := by
  unfold TaggedCache.insert at h
  cases hslot : c.cache.insertSlot op.hostname with
  | none =>
      rw [hslot] at h
      exact .inl h
  | some s' =>
      rw [hslot] at h
      dsimp only at h
      by_cases hs : s = s'
      · subst hs
        rw [Function.update_self] at h
        exact .inr (Option.some.inj h).symm
      · rw [Function.update_of_ne hs] at h
        exact .inl h

/-- **What a lookup answers with** was written by an insertion of the same generation and
hash, and with a matching key. -/
theorem WellTagged.lookup {c : TaggedCache τ} (h : WellTagged c) {hostname : List (BitVec 8)}
    {generation : BitVec 32} {s : Fin kSlots}
    (hslot : c.cache.lookupSlot hostname generation = some s) :
    ∃ op tag, c.writer s = some (op, tag) ∧ op.filterIndex = c.cache.lookup hostname generation ∧
      op.generation = generation ∧ hash32 op.hostname = hash32 hostname ∧
      (c.cache.slots s).keyMatches op.hostname = true ∧
      (c.cache.slots s).keyMatches hostname = true := by
  obtain ⟨hne, hhash, hgen, hkey⟩ :=
    CacheEntry.answers_iff.mp (HostnameCache.answers_of_lookupSlot hslot)
  have hs := h s
  cases hwriter : c.writer s with
  | none =>
      rw [hwriter] at hs
      exact absurd (congrArg CacheEntry.hash hs) hne
  | some w =>
      obtain ⟨op, tag⟩ := w
      rw [hwriter] at hs
      obtain ⟨hhash', hidx, hgen', hkey'⟩ := hs
      refine ⟨op, tag, rfl, ?_, hgen'.symm.trans hgen, hhash'.symm.trans hhash, hkey', hkey⟩
      rw [HostnameCache.lookup, hslot]
      exact hidx.symm

/-- A lookup that finds an index found a slot. -/
theorem exists_lookupSlot {c : HostnameCache} {hostname : List (BitVec 8)} {generation : BitVec 32}
    (h : c.lookup hostname generation ≠ kNoMatchIdx) :
    ∃ s, c.lookupSlot hostname generation = some s := by
  cases hslot : c.lookupSlot hostname generation with
  | none =>
      rw [HostnameCache.lookup, hslot] at h
      exact absurd rfl h
  | some s => exact ⟨s, rfl⟩

/-! ## Which hostname an entry is for -/

/-- A cache after insertions under one generation. -/
def ofInserts (generation : BitVec 32) (inserts : List (List (BitVec 8) × BitVec 16)) :
    TaggedCache Unit :=
  inserts.foldl (fun c op ↦
    c.insert { hostname := op.1, filterIndex := op.2, generation } ()) {}

theorem wellTagged_ofInserts (generation : BitVec 32)
    (inserts : List (List (BitVec 8) × BitVec 16)) : WellTagged (ofInserts generation inserts) := by
  unfold ofInserts
  induction inserts using List.reverseRecOn with
  | nil => exact wellTagged_empty
  | append_singleton inserts op ih =>
      rw [List.foldl_append]
      exact ih.insert _ _

/-- **What an answer of the cache was stored for**: a hostname of the same hash, which agrees
with the one that is looked up in the bytes of the key that both have. -/
theorem lookup_writer (generation : BitVec 32) (inserts : List (List (BitVec 8) × BitVec 16))
    {hostname : List (BitVec 8)} (hlen : 4 ≤ hostname.length)
    (hfound : (ofInserts generation inserts).cache.lookup hostname generation ≠ kNoMatchIdx) :
    ∃ s op, (ofInserts generation inserts).cache.lookupSlot hostname generation = some s ∧
      (ofInserts generation inserts).writer s = some (op, ()) ∧
      op.filterIndex = (ofInserts generation inserts).cache.lookup hostname generation ∧
      hash32 op.hostname = hash32 hostname ∧
      (4 ≤ op.hostname.length →
        op.hostname.take (min 12 (min op.hostname.length hostname.length)) =
          hostname.take (min 12 (min op.hostname.length hostname.length))) := by
  obtain ⟨s, hslot⟩ := exists_lookupSlot hfound
  obtain ⟨op, tag, hwriter, hidx, -, hhash, hkey, hkey'⟩ :=
    (wellTagged_ofInserts generation inserts).lookup hslot
  exact ⟨s, op, hslot, hwriter, hidx, hhash,
    fun hlen' ↦ CacheEntry.take_eq_of_keyMatches hkey hkey' hlen' hlen⟩

/-- Two hosts that start with the same twelve bytes and have the same hash. -/
def collidingHosts : List (BitVec 8) × List (BitVec 8) :=
  (hostBytes ['c', 'd', 'n', '.', 'e', 'x', 'a', 'm', 'p', 'l', 'e', '.', 'j', 'w', 'd', 'y'],
    hostBytes ['c', 'd', 'n', '.', 'e', 'x', 'a', 'm', 'p', 'l', 'e', '.', 'o', 'a', 'p', 'g', 'a'])

/-- The second one is looked up behind insertions of another host and of the first one. -/
theorem lookup_writer_colliding :
    let c := ofInserts 7 [(hostBytes ['a', '.', 'c', 'o'], 3), (collidingHosts.1, 5)]
    ∃ s op, c.cache.lookupSlot collidingHosts.2 7 = some s ∧ c.writer s = some (op, ()) ∧
      op.filterIndex = 5 ∧ hash32 op.hostname = hash32 collidingHosts.2 ∧
      (4 ≤ op.hostname.length →
        op.hostname.take (min 12 (min op.hostname.length 17)) =
          collidingHosts.2.take (min 12 (min op.hostname.length 17))) := by
  intro c
  have hfive : c.cache.lookup collidingHosts.2 7 = 5 := by decide +kernel
  obtain ⟨s, op, hslot, hwriter, hindex, hhash, htake⟩ :=
    lookup_writer 7 [(hostBytes ['a', '.', 'c', 'o'], 3), (collidingHosts.1, 5)]
      (by decide : 4 ≤ collidingHosts.2.length) (hfive ▸ by decide)
  exact ⟨s, op, hslot, hwriter, hindex.trans hfive, hhash, htake⟩

/-- One of them inherits the filter that was stored for the other. -/
theorem colliding_host_inherits :
    (ofInserts 0 [(collidingHosts.1, 5)]).cache.lookup collidingHosts.2 0 = 5 ∧
      (5 : BitVec 16) ≠ kNoMatchIdx ∧ collidingHosts.2 ≠ [] ∧
      ∀ s, (ofInserts 0 [(collidingHosts.1, 5)]).cache.lookupSlot collidingHosts.2 0 = some s →
        ∃ op, (ofInserts 0 [(collidingHosts.1, 5)]).writer s = some (op, ()) ∧
          op.hostname = collidingHosts.1 ∧ op.hostname ≠ collidingHosts.2 := by
  have hslot : (ofInserts 0 [(collidingHosts.1, 5)]).cache.lookupSlot collidingHosts.2 0 =
      some ⟨0x46e, by decide⟩ := by decide +kernel
  refine ⟨by decide +kernel, by decide, by decide, fun s hs ↦ ?_⟩
  obtain rfl := Option.some.inj (hslot.symm.trans hs)
  exact ⟨{ hostname := collidingHosts.1, filterIndex := 5, generation := 0 }, by decide +kernel,
    rfl, by decide⟩

end TaggedCache

end DpdkSpi
