import DpdkSpi.Dpi.Match
import DpdkSpi.Lib.System
import DpdkSpi.Reload.Publish

/-!
# Matching across reloads

A thread that matches hostnames against the active table while tables are swapped.  Its
scratch is allocated at the first match and kept for good, so that the table after a swap is
matched with the scratch of another one.  The library refuses that, and the hostname is taken
not to match: the calls of a run are right exactly when this does no harm
(`callsRight_iff`).
-/

namespace DpdkSpi

open Lib

/-- `Init`. -/
def DpiRuleTableManager.start {δ : Type} (table : Option δ) : DpiRuleTableManager δ where
  active := table.map fun rules ↦ { rules }

/-- A thread that matches, and the tables it sees. -/
structure DpiThread where
  manager : DpiRuleTableManager DpiRules
  tlScratch : Option HsScratch := none

/-- What can happen. -/
inductive DpiThread.Action where
  /-- `Swap` by the main core. -/
  | swap (newTable : Option DpiRules)
  /-- `Match` on the active table, if there is one. -/
  | call (hostname : List (BitVec 8))

namespace DpiThread

variable {hs : Hyperscan}

/-- The result of a call and the scratch of the thread behind it. -/
def call (hs : Hyperscan) (s : DpiThread) (t : DpiRules) (hostname : List (BitVec 8)) :
    DpiResult × Option HsScratch :=
  t.matchThread hs hostname s.tlScratch

/-- One event. -/
def step (hs : Hyperscan) (s : DpiThread) : Action → DpiThread
  | .swap newTable => { s with manager := s.manager.swap newTable }
  | .call hostname =>
      match s.manager.active with
      | none => s
      | some t => { s with tlScratch := (s.call hs t.rules hostname).2 }

/-- A call on the active table returns what the table gives with a scratch of its own. -/
def CallRight (hs : Hyperscan) (s : DpiThread) : Action → Prop
  | .swap _ => True
  | .call hostname => ∀ t, s.manager.active = some t →
      (s.call hs t.rules hostname).1 = t.rules.matchOwn hs hostname

/-- The scratch fits: the one of the thread belongs to the active table or the hostname has no
match anyway; and where the thread has none yet, it gets one, or can do without. -/
def ScratchFits (hs : Hyperscan) (s : DpiThread) : Action → Prop
  | .swap _ => True
  | .call hostname => ∀ t db, s.manager.active = some t → t.rules.hsDb = some db →
      hostname ≠ [] →
      match s.tlScratch with
      | some scratch => scratch.db = db ∨ t.rules.matchOwn hs hostname = {}
      | none => (hs.allocScratch db).isSome ∨
          t.rules.matchFallback hostname = t.rules.matchOwn hs hostname

/-- A scan with a scratch for a database. -/
theorem matchScratch_eq (hdoc : hs.Documented) {t : DpiRules} {db : HsDatabase}
    (hdb : t.hsDb = some db) {hostname : List (BitVec 8)} (hne : hostname ≠ [])
    (scratch : HsScratch) :
    t.matchScratch hs hostname (some scratch) =
      if scratch.db = db then t.matchOwn hs hostname else {} := by
  split
  · rename_i hown
    rw [DpiRules.matchOwn, hdb, Option.map_some, ← hown]
  · rename_i hforeign
    rw [DpiRules.matchScratch_of_db hdb hne, hdoc.foreign hostname hforeign]
    rfl

/-- One call. -/
theorem callRight_iff (hdoc : hs.Documented) (s : DpiThread) (a : Action) :
    CallRight hs s a ↔ ScratchFits hs s a := by
  cases a with
  | swap newTable => exact Iff.rfl
  | call hostname =>
      refine ⟨fun h t db ht hdb hne ↦ ?_, fun h t ht ↦ ?_⟩
      · have hcall := h t ht
        unfold call DpiRules.matchThread at hcall
        rw [if_neg hne, hdb] at hcall
        cases hscratch : s.tlScratch with
        | some scratch =>
            rw [hscratch] at hcall
            dsimp only at hcall ⊢
            rw [matchScratch_eq hdoc hdb hne] at hcall
            split at hcall
            · rename_i hown
              exact .inl hown
            · exact .inr hcall.symm
        | none =>
            rw [hscratch] at hcall
            dsimp only at hcall ⊢
            cases halloc : hs.allocScratch db with
            | some scratch => exact .inl rfl
            | none =>
                rw [halloc] at hcall
                exact .inr hcall
      · unfold call DpiRules.matchThread
        by_cases hne : hostname = []
        · subst hne
          rw [if_pos rfl, DpiRules.matchOwn_nil]
        rw [if_neg hne]
        cases hdb : t.rules.hsDb with
        | none => exact (DpiRules.matchOwn_of_none hdb).symm
        | some db =>
            have hfits := h t db ht hdb hne
            cases hscratch : s.tlScratch with
            | some scratch =>
                rw [hscratch] at hfits
                dsimp only at hfits ⊢
                rw [matchScratch_eq hdoc hdb hne]
                split
                · rfl
                · rename_i hforeign
                  exact (hfits.resolve_left hforeign).symm
            | none =>
                rw [hscratch] at hfits
                dsimp only at hfits ⊢
                cases halloc : hs.allocScratch db with
                | some scratch =>
                    dsimp only
                    rw [matchScratch_eq hdoc hdb hne, if_pos (hdoc.allocated halloc)]
                | none =>
                    rw [halloc] at hfits
                    exact hfits.resolve_left (by simp)

/-- **The calls of a run are right exactly when the scratch fits at every one of them.** -/
theorem callsRight_iff (hdoc : hs.Documented) (table : Option DpiRules) (actions : List Action) :
    System.Meets (CallRight hs) (step hs) { manager := .start table } actions ↔
      System.Meets (ScratchFits hs) (step hs) { manager := .start table } actions :=
  System.meets_congr (I := fun _ ↦ True) (fun s a _ ↦ callRight_iff hdoc s a)
    (fun _ _ _ _ ↦ trivial) trivial actions

/-! ### One reload -/

/-- A catch-all alone. -/
def everythingConfig : DpiConfig where
  enabled := true
  filters := [{ hostnamePattern := hostBytes ['*'], filterGroup := "fg_l7_all", priority := 10 }]

/-- A table that was accepted and has filters has a database with their expressions. -/
theorem hsDb_of_compile {sorts : DpiSorts} {config : DpiConfig} {t : DpiRules}
    (hdoc : hs.Documented)
    (h : compileDpiRuleTable hs sorts config = .ok t) (hne : config.filters ≠ []) :
    ∃ db, t.hsDb = some db ∧ db.expressions.length = config.filters.length := by
  obtain ⟨hsDb, rfl, ⟨-, hempty⟩ | ⟨db, rfl, hdb⟩⟩ := compileDpiRuleTable_ok h
  · exact absurd hempty hne
  · refine ⟨db, DpiRules.ofFilters_hsDb _ _ _, ?_⟩
    rw [hdoc.compiled hdb, hsExpressions, List.length_mapIdx, SortBy.length_sort, List.length_map]

/-- The scratch after the first call. -/
theorem tlScratch_of_first {first : Nat} {s : DpiThread} (hscratch : s.tlScratch = none)
    {t : DpiRuleTable DpiRules} (ht : s.manager.active = some t) {db : HsDatabase}
    (hdb : t.rules.hsDb = some db) {hostname : List (BitVec 8)} (hne : hostname ≠ []) :
    (step (.reportingFirst first) s (.call hostname)).tlScratch = some ⟨db⟩ := by
  have hcall : (t.rules.matchThread (.reportingFirst first) hostname none).2 = some ⟨db⟩ := by
    unfold DpiRules.matchThread
    rw [if_neg hne, hdb]
    rfl
  unfold step
  rw [ht]
  dsimp only [call]
  rw [hscratch]
  exact hcall

/-- A table that is swapped in before the thread has a scratch is matched with its own. -/
theorem callsRight_swapped : ∃ t t',
    compileDpiRuleTable (.reportingFirst 0) plainSorts socialConfig = .ok t ∧
      compileDpiRuleTable (.reportingFirst 0) plainSorts everythingConfig = .ok t' ∧
      System.Meets (CallRight (.reportingFirst 0)) (step (.reportingFirst 0))
        { manager := .start (some t) }
        [.swap (some t'), .call (hostBytes ['a']), .call (hostBytes ['b'])] := by
  obtain ⟨t, ht⟩ := compile_social 0 plainSorts
  obtain ⟨t', ht'⟩ := compile_reportingFirst everythingConfig 0 plainSorts (by decide) (by decide)
  have hdoc := Hyperscan.reportingFirst_documented 0
  obtain ⟨db, hdb, -⟩ := hsDb_of_compile hdoc ht' (by decide)
  refine ⟨t, t', ht, ht', (callsRight_iff hdoc (some t) _).mpr ⟨trivial, ?_, ?_, trivial⟩⟩
  · intro u db' hu hdb' hne
    exact .inl rfl
  · intro u db' hu hdb' hne
    obtain rfl := Option.some.inj hu
    obtain rfl := Option.some.inj (hdb.symm.trans hdb')
    rw [tlScratch_of_first rfl rfl hdb (by decide)]
    exact .inl rfl

/-- The table of a reload is not matched. -/
theorem reloaded_table_unmatched : ∃ t t',
    compileDpiRuleTable (.reportingFirst 0) plainSorts socialConfig = .ok t ∧
      compileDpiRuleTable (.reportingFirst 0) plainSorts everythingConfig = .ok t' ∧
      ¬ System.Meets (CallRight (.reportingFirst 0)) (step (.reportingFirst 0))
        { manager := .start (some t) }
        [.call (hostBytes ['a']), .swap (some t'), .call (hostBytes ['a'])] := by
  obtain ⟨t, ht⟩ := compile_social 0 plainSorts
  obtain ⟨t', ht'⟩ := compile_reportingFirst everythingConfig 0 plainSorts (by decide) (by decide)
  have hdoc := Hyperscan.reportingFirst_documented 0
  obtain ⟨db, hdb, hlen⟩ := hsDb_of_compile hdoc ht (by decide)
  obtain ⟨db', hdb', hlen'⟩ := hsDb_of_compile hdoc ht' (by decide)
  refine ⟨t, t', ht, ht', ?_⟩
  rintro ⟨-, -, hcall, -⟩
  have hfits := (callRight_iff hdoc _ _).mp hcall _ db' rfl hdb' (by decide)
  have hkept : (step (.reportingFirst 0) (step (.reportingFirst 0) { manager := .start (some t) }
      (.call (hostBytes ['a']))) (.swap (some t'))).tlScratch = some ⟨db⟩ :=
    tlScratch_of_first rfl rfl hdb (by decide)
  rw [hkept] at hfits
  rcases hfits with hsame | hempty
  · -- the databases have different numbers of expressions
    rw [← hsame] at hlen'
    exact absurd (hlen.symm.trans hlen') (by decide)
  · rcases matchOwn_cases hdoc ht' (by decide : hostBytes ['a'] ≠ []) with
      ⟨-, hall⟩ | ⟨m, c, -, -, -, -, hresult⟩
    · exact absurd (hall _ List.mem_cons_self (by decide)) (by decide)
    · exact absurd (congrArg DpiResult.matched (hempty.symm.trans hresult)) Bool.false_ne_true

end DpiThread

end DpdkSpi
