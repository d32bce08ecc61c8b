import DpdkSpi.Dpi.HostnameCache
import DpdkSpi.Dpi.Reload

/-!
# Generations

`Swap` gives a table the generation that follows that of the table it replaces, and the first
generation when there is none.  Generations therefore start over when DPI is disabled and
enabled again: the tables of a run have different generations exactly when that does not happen
after a first swap (`generations_iff`).  When they have, an index that the hostname cache finds
under the active generation was stored for the active table.
-/

namespace DpdkSpi

open Lib

variable {δ : Type}

/-- The tables of a run and what is cached for them. -/
structure DpiHistory (δ : Type) where
  manager : DpiRuleTableManager δ
  /-- The generations of the tables that were published, in this order. -/
  published : List (BitVec 32)
  /-- The number of tables that were swapped in. -/
  swapped : Nat := 0
  /-- The hostname cache; an entry is tagged with the number of the table it was stored for. -/
  cached : TaggedCache Nat := {}

namespace DpiHistory

/-- What can happen. -/
inductive Action (δ : Type) where
  /-- `Swap`. -/
  | swap (newTable : Option δ)
  /-- `Insert` by a worker that has loaded the table of a number. -/
  | insert (table : Nat) (hostname : List (BitVec 8)) (filterIndex : BitVec 16)

/-- The action is a swap. -/
def Action.isSwap : Action δ → Bool
  | .swap _ => true
  | .insert _ _ _ => false

/-- After `Init`. -/
def start (table : Option δ) : DpiHistory δ where
  manager := .start table
  published := table.toList.map fun _ ↦ 0

/-- One action. -/
def step (s : DpiHistory δ) : Action δ → DpiHistory δ
  | .swap none => { s with manager := s.manager.swap none }
  | .swap (some table) =>
      { s with
        manager := s.manager.swap (some table)
        published := s.published ++ [s.manager.nextGen]
        swapped := s.swapped + 1 }
  | .insert table hostname filterIndex =>
      match s.published[table]? with
      | none => s
      | some generation =>
          { s with cached := s.cached.insert { hostname, filterIndex, generation } table }

/-- No two tables have one generation, and what is found under the active one was stored for
the active table, the last one that was published. -/
def Sound (s : DpiHistory δ) : Prop :=
  s.published.Nodup ∧ ∀ t, s.manager.active = some t → ∀ hostname slot,
    s.cached.cache.lookupSlot hostname t.generation = some slot →
      ∃ op table, s.cached.writer slot = some (op, table) ∧ table + 1 = s.published.length

/-- DPI is not enabled again after a swap. -/
def NotReenabled (s : DpiHistory δ) : Action δ → Prop
  | .swap (some _) => s.manager.active = none → s.swapped = 0
  | _ => True

/-! ## What every run keeps -/

/-- The tags are right, and the active table is the last one. -/
structure WellFormed (s : DpiHistory δ) : Prop where
  tagged : s.cached.WellTagged
  stored : ∀ slot op table, s.cached.writer slot = some (op, table) →
    s.published[table]? = some op.generation
  last : ∀ t, s.manager.active = some t → s.published.getLast? = some t.generation
  /-- Before the first swap there is at most the initial table. -/
  initial : s.swapped = 0 → ∀ t, s.manager.active = some t → t.generation = 0
  /-- The first table that was swapped in has the first generation. -/
  first : s.swapped ≠ 0 → 1 ∈ s.published

theorem wellFormed_start (table : Option δ) : WellFormed (start table) where
  tagged := TaggedCache.wellTagged_empty
  stored slot op table h := by cases h
  last t ht := by
    cases table with
    | none => cases ht
    | some rules =>
        cases ht
        rfl
  initial _ t ht := by
    cases table with
    | none => cases ht
    | some rules =>
        cases ht
        rfl
  first h := absurd rfl h

/-- The generation of a first swap. -/
theorem WellFormed.nextGen_of_first {s : DpiHistory δ} (h : WellFormed s) (hfirst : s.swapped = 0) :
    s.manager.nextGen = 1 := by
  unfold DpiRuleTableManager.nextGen
  cases hactive : s.manager.active with
  | none => rfl
  | some t =>
      dsimp only
      rw [h.initial hfirst t hactive]
      rfl

theorem WellFormed.step {s : DpiHistory δ} (h : WellFormed s) (a : Action δ) :
    WellFormed (s.step a) := by
  cases a with
  | swap newTable =>
      cases newTable with
      | none =>
          refine ⟨h.tagged, h.stored, fun t ht ↦ ?_, fun _ t ht ↦ ?_, h.first⟩
          · cases ht
          · cases ht
      | some table =>
          refine ⟨h.tagged, fun slot op table hwriter ↦ ?_, fun t ht ↦ ?_, fun hzero ↦ ?_,
            fun _ ↦ ?_⟩
          · have hget := h.stored slot op table hwriter
            exact (List.getElem?_append_left (List.getElem?_eq_some_iff.mp hget).1).trans hget
          · cases ht
            exact List.getLast?_concat
          · exact absurd hzero (Nat.succ_ne_zero _)
          · by_cases hfirst : s.swapped = 0
            · refine List.mem_append_right _ (List.mem_singleton.mpr ?_)
              exact (h.nextGen_of_first hfirst).symm
            · exact List.mem_append_left _ (h.first hfirst)
  | insert table hostname filterIndex =>
      rw [DpiHistory.step]
      cases hget : s.published[table]? with
      | none => exact h
      | some generation =>
          refine ⟨h.tagged.insert _ _, fun slot op table' hwriter ↦ ?_, h.last, h.initial, h.first⟩
          rcases TaggedCache.writer_insert hwriter with hold | hnew
          · exact h.stored slot op table' hold
          · cases hnew
            exact hget

/-- Different generations are enough. -/
theorem WellFormed.sound {s : DpiHistory δ} (h : WellFormed s) (hnodup : s.published.Nodup) :
    Sound s := by
  refine ⟨hnodup, fun t ht hostname slot hslot ↦ ?_⟩
  obtain ⟨op, table, hwriter, -, hgen, -⟩ := h.tagged.lookup hslot
  refine ⟨op, table, hwriter, ?_⟩
  have hstored := h.stored slot op table hwriter
  have hlast := h.last t ht
  rw [List.getLast?_eq_getElem?] at hlast
  rw [hgen] at hstored
  have hlt := (List.getElem?_eq_some_iff.mp hstored).1
  have hsame := (List.getElem?_inj hlt hnodup).mp (hstored.trans hlast.symm)
  omega

/-! ## Runs without a second start -/

/-- The generations count the swaps. -/
structure Counted (s : DpiHistory δ) : Prop where
  ascending : (s.published.map BitVec.toNat).Pairwise (· < ·)
  bounded : ∀ g ∈ s.published, g.toNat ≤ s.swapped
  active : ∀ t, s.manager.active = some t → t.generation.toNat = s.swapped

theorem counted_start (table : Option δ) : Counted (start table) where
  ascending := by cases table <;> simp [start]
  bounded g hg := by
    cases table with
    | none => cases hg
    | some rules =>
        obtain rfl := List.mem_singleton.mp hg
        exact Nat.le_refl 0
  active t ht := by
    cases table with
    | none => cases ht
    | some rules =>
        cases ht
        rfl

theorem Counted.nodup {s : DpiHistory δ} (h : Counted s) : s.published.Nodup := by
  refine List.Nodup.of_map BitVec.toNat ?_
  exact h.ascending.imp fun hlt ↦ Nat.ne_of_lt hlt

/-- The next generation is the next number. -/
theorem Counted.nextGen {s : DpiHistory δ} (h : Counted s)
    (hcond : s.manager.active = none → s.swapped = 0) (hbound : s.swapped + 1 < 2 ^ 32) :
    s.manager.nextGen.toNat = s.swapped + 1 := by
  unfold DpiRuleTableManager.nextGen
  cases hactive : s.manager.active with
  | none => rw [hcond hactive]; rfl
  | some t =>
      have hgen := h.active t hactive
      dsimp only
      rw [BitVec.toNat_add, hgen]
      exact Nat.mod_eq_of_lt hbound

theorem Counted.step {s : DpiHistory δ} (h : Counted s) {a : Action δ} (hcond : NotReenabled s a)
    (hbound : s.swapped + (if a.isSwap then 1 else 0) < 2 ^ 32) : Counted (s.step a) := by
  cases a with
  | swap newTable =>
      cases newTable with
      | none =>
          refine ⟨h.ascending, h.bounded, fun t ht ↦ ?_⟩
          cases ht
      | some table =>
          have hnext := h.nextGen hcond hbound
          refine ⟨?_, fun g hg ↦ ?_, fun t ht ↦ ?_⟩
          · change ((s.published ++ [s.manager.nextGen]).map BitVec.toNat).Pairwise (· < ·)
            rw [List.map_append, List.pairwise_append]
            refine ⟨h.ascending, List.pairwise_singleton _ _, fun x hx y hy ↦ ?_⟩
            obtain ⟨g, hg, rfl⟩ := List.mem_map.mp hx
            obtain rfl := List.mem_singleton.mp hy
            rw [hnext]
            exact Nat.lt_succ_of_le (h.bounded g hg)
          · rcases List.mem_append.mp hg with hg | hg
            · exact Nat.le_succ_of_le (h.bounded g hg)
            · rw [List.mem_singleton.mp hg, hnext]
              exact Nat.le_refl _
          · cases ht
            exact hnext
  | insert table hostname filterIndex =>
      rw [DpiHistory.step]
      split
      · exact h
      · exact ⟨h.ascending, h.bounded, h.active⟩

/-- Swaps are counted. -/
theorem swapped_step (s : DpiHistory δ) (a : Action δ) :
    (s.step a).swapped ≤ s.swapped + if a.isSwap then 1 else 0 := by
  rcases a with (_ | table) | ⟨table, hostname, filterIndex⟩
  · exact Nat.le_succ _
  · exact Nat.le_refl _
  · rw [DpiHistory.step]
    split
    · exact Nat.le_refl _
    · exact Nat.le_refl _

/-- A run without a second start is sound in every state. -/
theorem sound_of_meets {s : DpiHistory δ} (hwf : WellFormed s) (hcounted : Counted s)
    (actions : List (Action δ)) (hbound : s.swapped + actions.countP Action.isSwap < 2 ^ 32)
    (hmeets : System.Meets NotReenabled DpiHistory.step s actions) :
    ∀ before, before <+: actions → Sound (before.foldl DpiHistory.step s) := by
  induction actions generalizing s with
  | nil =>
      intro before hbefore
      rw [List.prefix_nil.mp hbefore]
      exact hwf.sound hcounted.nodup
  | cons a actions ih =>
      intro before hbefore
      cases before with
      | nil => exact hwf.sound hcounted.nodup
      | cons b before =>
          obtain ⟨rfl, hrest⟩ := List.cons_prefix_cons.mp hbefore
          rw [List.countP_cons] at hbound
          have hswapped := s.swapped_step b
          have hnow : s.swapped + (if b.isSwap then 1 else 0) < 2 ^ 32 := by omega
          exact ih (hwf.step b) (hcounted.step hmeets.1 hnow) (by omega) hmeets.2 before hrest

/-- A second start repeats the first generation. -/
theorem meets_of_sound {s : DpiHistory δ} (hwf : WellFormed s) (actions : List (Action δ))
    (hsound : ∀ before, before <+: actions → Sound (before.foldl DpiHistory.step s)) :
    System.Meets NotReenabled DpiHistory.step s actions := by
  induction actions generalizing s with
  | nil => trivial
  | cons a actions ih =>
      refine ⟨?_, ih (hwf.step a) fun before hbefore ↦
        hsound (a :: before) (List.cons_prefix_cons.mpr ⟨rfl, hbefore⟩)⟩
      have hafter : Sound (s.step a) :=
        hsound [a] (List.cons_prefix_cons.mpr ⟨rfl, List.nil_prefix⟩)
      rcases a with (_ | table) | ⟨table, hostname, filterIndex⟩
      · trivial
      · intro hnone
        by_contra hswapped
        have hgen : s.manager.nextGen = 1 := by rw [DpiRuleTableManager.nextGen, hnone]
        have hnodup : (s.published ++ [s.manager.nextGen]).Nodup := hafter.1
        rw [List.nodup_append] at hnodup
        exact hnodup.2.2 1 (hwf.first hswapped) _ List.mem_cons_self hgen.symm
      · trivial

/-- **Generations never repeat exactly when DPI is not enabled again after a swap**, and then
what is cached under the active generation is of the active table. -/
theorem generations_iff (table : Option δ) (actions : List (Action δ))
    (hfew : actions.countP Action.isSwap < 2 ^ 32) :
    (∀ before, before <+: actions → Sound (before.foldl DpiHistory.step (start table))) ↔
      System.Meets NotReenabled DpiHistory.step (start table) actions := by
  constructor
  · exact meets_of_sound (wellFormed_start table) actions
  · refine sound_of_meets (wellFormed_start table) (counted_start table) actions ?_
    rw [start, Nat.zero_add]
    exact hfew

/-- Two reloads of an enabled DPI. -/
theorem generations_two_reloads :
    Sound ([.swap (some 1), .swap (some 2)].foldl DpiHistory.step (start (some 0))) := by
  refine (generations_iff (some 0) [.swap (some 1), .swap (some 2)] (by decide)).mpr
    ⟨?_, ?_, trivial⟩ _ List.prefix_rfl
  · intro h
    cases h
  · intro h
    cases h

/-- DPI is reloaded, disabled and enabled again, with a hostname that is cached in between. -/
def reenabling : List (Action Nat) :=
  [.swap (some 1), .insert 1 (hostBytes ['a', '.', 'c', 'o']) 3, .swap none, .swap (some 2)]

/-- The table that is enabled again has the generation of the one before, and finds what was
stored for it. -/
theorem reenabled_generation_repeats :
    ¬ (reenabling.foldl DpiHistory.step (start (some 0))).published.Nodup ∧
      ∃ t slot op, (reenabling.foldl DpiHistory.step (start (some 0))).manager.active = some t ∧
        (reenabling.foldl DpiHistory.step (start (some 0))).cached.cache.lookupSlot
          (hostBytes ['a', '.', 'c', 'o']) t.generation = some slot ∧
        (reenabling.foldl DpiHistory.step (start (some 0))).cached.writer slot = some (op, 1) ∧
        1 + 1 ≠ (reenabling.foldl DpiHistory.step (start (some 0))).published.length := by
  refine ⟨by decide, ⟨2, 1⟩, (HostnameCache.probes (hash32 (hostBytes ['a', '.', 'c', 'o']))).head
    (by decide), ⟨hostBytes ['a', '.', 'c', 'o'], 3, 1⟩, rfl, ?_, ?_, by decide⟩
  · decide +kernel
  · decide +kernel

end DpiHistory

end DpdkSpi
