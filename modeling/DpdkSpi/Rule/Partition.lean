import Mathlib.Data.List.Range
import Mathlib.Algebra.BigOperators.Group.List.Basic
import Mathlib.Algebra.GroupWithZero.Nat
import Mathlib.Algebra.Order.BigOperators.Group.List
import Mathlib.Algebra.Order.Group.Nat
import DpdkSpi.Lib.Ranges

/-!
# Dividing the parse work

`CompileRuleTable` parses the groups on several threads.  Each thread gets a range of
consecutive groups, chosen so that the numbers of rules are about equal and no thread
goes empty.  The loops are given with everything that can go wrong in them: an index out of
bounds, a subtraction below zero, a division by zero and a loop that does not end lead to no
result.  Nothing of this happens, and the ranges cover every group once and in order
(`parseRanges_partition`), so that parsing on threads is parsing in order.
-/

namespace DpdkSpi

open Lib

/-! ## The loops -/

/-- A subtraction of unsigned numbers that must not wrap around. -/
def checkedSub (a b : Nat) : Option Nat := if b ≤ a then some (a - b) else none

/-- A division by a number that must not be zero. -/
def checkedDiv (a b : Nat) : Option Nat := if b = 0 then none else some (a / b)

/-- The inner loop: extend the range from `next`, up to `maxEnd`, while the rules assigned so far
stay within the target.  `group_rule_counts[next_group]` is read by the condition, or else by the
body. -/
def checkedExtendRange (counts : List Nat) (target maxEnd : Nat) :
    (fuel : Nat) → (next assigned : Nat) → Option (Nat × Nat)
  | 0, _, _ => none
  | fuel + 1, next, assigned =>
      if next < maxEnd then
        match counts[next]? with
        | none => none
        | some count =>
            if assigned = 0 ∨ assigned + count ≤ target then
              checkedExtendRange counts target maxEnd fuel (next + 1) (assigned + count)
            else some (next, assigned)
      else some (next, assigned)

/-- A range that is still empty takes the next group. -/
def checkedAdvance (counts : List Nat) (start : Nat) (r : Nat × Nat) : Option (Nat × Nat) :=
  if r.1 = start then (counts[r.1]?).map fun count ↦ (r.1 + 1, r.2 + count) else some r

/-- The body of the loop over the workers: the end of the range, and the remaining rules. -/
def checkedNextRange (counts : List Nat) (workerCount worker next remaining : Nat) :
    Option (Nat × Nat) := do
  let remainingWorkers ← checkedSub workerCount worker
  let reserve ← checkedSub remainingWorkers 1
  let maxEnd ← checkedSub counts.length reserve
  let total ← checkedSub (remaining + remainingWorkers) 1
  let target ← checkedDiv total remainingWorkers
  let r ← checkedExtendRange counts target maxEnd (counts.length + 1) next 0
  let r ← checkedAdvance counts next r
  let remaining ← checkedSub remaining r.2
  return (r.1, remaining)

/-- The loop over the workers; `left` of them have no range yet. -/
def checkedParseRangesLoop (counts : List Nat) (workerCount : Nat) :
    (left : Nat) → (worker next remaining : Nat) → Option (List (Nat × Nat))
  | 0, _, _, _ => some []
  | left + 1, worker, next, remaining => do
      let r ← checkedNextRange counts workerCount worker next remaining
      let ranges ← checkedParseRangesLoop counts workerCount left (worker + 1) r.1 r.2
      return (next, r.1) :: ranges

/-- The computation of `parse_ranges`.  The counts are those of filters in memory, so that their
sum does not overflow. -/
def checkedParseRanges (counts : List Nat) (threads : Nat) : Option (List (Nat × Nat)) :=
  let parseWorkerCount := min threads counts.length
  checkedParseRangesLoop counts parseWorkerCount parseWorkerCount 0 0 counts.sum

/-- The ranges for `threads` threads, given the number of rules of each group. -/
def parseRanges (counts : List Nat) (threads : Nat) : List (Nat × Nat) :=
  (checkedParseRanges counts threads).getD []

theorem checkedSub_of_le {a b : Nat} (h : b ≤ a) : checkedSub a b = some (a - b) := if_pos h

theorem checkedDiv_of_pos {a b : Nat} (h : 0 < b) : checkedDiv a b = some (a / b) :=
  if_neg (Nat.ne_of_gt h)

/-! ## Rules of consecutive groups -/

/-- The number of rules of the groups from `start` to `stop`. -/
def ruleSum (counts : List Nat) (start stop : Nat) : Nat :=
  ((counts.drop start).take (stop - start)).sum

theorem ruleSum_self (counts : List Nat) (start : Nat) : ruleSum counts start start = 0 := by
  simp [ruleSum]

theorem ruleSum_all (counts : List Nat) : ruleSum counts 0 counts.length = counts.sum := by
  simp [ruleSum]

theorem ruleSum_succ {counts : List Nat} {start stop count : Nat} (h : start ≤ stop)
    (hcount : counts[stop]? = some count) :
    ruleSum counts start (stop + 1) = ruleSum counts start stop + count := by
  have hlen : stop + 1 - start = stop - start + 1 := by omega
  have hidx : start + (stop - start) = stop := by omega
  rw [ruleSum, ruleSum, hlen, List.take_add_one, List.sum_append, List.getElem?_drop, hidx, hcount]
  simp

theorem ruleSum_add (counts : List Nat) {start mid stop : Nat} (h₁ : start ≤ mid)
    (h₂ : mid ≤ stop) :
    ruleSum counts start stop = ruleSum counts start mid + ruleSum counts mid stop := by
  have hlen : stop - start = (mid - start) + (stop - mid) := by omega
  have hmid : start + (mid - start) = mid := by omega
  rw [ruleSum, ruleSum, ruleSum, hlen, List.take_add, List.sum_append, List.drop_drop, hmid]

/-! ## The ranges -/

/-- The inner loop reads existing groups only, ends after as many steps as there is room, and has
the rules of the groups it passed.  It uses the room up when the target covers all rules there. -/
theorem checkedExtendRange_spec {counts : List Nat} (target : Nat) {maxEnd start next fuel : Nat}
    (hend : maxEnd ≤ counts.length) (hstart : start ≤ next) (hnext : next ≤ maxEnd)
    (hfuel : maxEnd - next < fuel) :
    ∃ stop, checkedExtendRange counts target maxEnd fuel next (ruleSum counts start next) =
        some (stop, ruleSum counts start stop) ∧
      next ≤ stop ∧ stop ≤ maxEnd ∧ (ruleSum counts start maxEnd ≤ target → stop = maxEnd) := by
  induction fuel generalizing next with
  | zero => exact absurd hfuel (Nat.not_lt_zero _)
  | succ fuel ih =>
      rw [checkedExtendRange]
      by_cases hlt : next < maxEnd
      · obtain ⟨count, hcount⟩ : ∃ count, counts[next]? = some count :=
          ⟨_, List.getElem?_eq_getElem (hlt.trans_le hend)⟩
        have hsucc := ruleSum_succ hstart hcount
        rw [if_pos hlt, hcount]
        dsimp only
        rw [← hsucc]
        split
        · obtain ⟨stop, hloop, hle, hstop⟩ := ih (hstart.trans (Nat.le_succ _)) hlt (by omega)
          exact ⟨stop, hloop, (Nat.le_succ _).trans hle, hstop⟩
        · rename_i htarget
          -- the rules up to the next group do not fit, so neither do all of them
          have hall : ruleSum counts start maxEnd =
              ruleSum counts start (next + 1) + ruleSum counts (next + 1) maxEnd :=
            ruleSum_add counts (hstart.trans (Nat.le_succ _)) hlt
          exact ⟨next, rfl, le_rfl, hnext, fun hfits ↦ absurd (.inr (by omega)) htarget⟩
      · rw [if_neg hlt]
        exact ⟨next, rfl, le_rfl, hnext, fun _ ↦ by omega⟩

/-- The body of the loop over the workers, with `left` workers behind the one at hand: the range is
not empty, comes with its rules and leaves a group for each of the others; the last one leaves
none. -/
theorem checkedNextRange_spec {counts : List Nat} {workerCount worker left next : Nat}
    (hworker : worker + (left + 1) = workerCount) (hroom : next + (left + 1) ≤ counts.length) :
    ∃ stop, checkedNextRange counts workerCount worker next (ruleSum counts next counts.length) =
        some (stop, ruleSum counts stop counts.length) ∧
      next < stop ∧ stop + left ≤ counts.length ∧ (left = 0 → stop = counts.length) := by
  have hworkers : workerCount - worker = left + 1 := by omega
  have hreserve : left + 1 - 1 = left := Nat.add_sub_cancel left 1
  obtain ⟨stop, hloop, hle, hend, hfill⟩ := checkedExtendRange_spec
    ((ruleSum counts next counts.length + (left + 1) - 1) / (left + 1))
    (Nat.sub_le counts.length left) (le_refl next) (by omega)
    (show counts.length - left - next < counts.length + 1 by omega)
  rw [ruleSum_self] at hloop
  -- what the range has after it took a group in any case
  obtain ⟨stop', hadvance, hlt, hend', hlast⟩ :
      ∃ stop', checkedAdvance counts next (stop, ruleSum counts next stop) =
          some (stop', ruleSum counts next stop') ∧
        next < stop' ∧ stop' + left ≤ counts.length ∧ (left = 0 → stop' = counts.length) := by
    unfold checkedAdvance
    split
    · rename_i heq
      obtain rfl : stop = next := heq
      obtain ⟨count, hcount⟩ : ∃ count, counts[stop]? = some count :=
        ⟨_, List.getElem?_eq_getElem (by omega)⟩
      refine ⟨stop + 1, ?_, Nat.lt_succ_self stop, by omega, ?_⟩
      · rw [hcount, ruleSum_succ le_rfl hcount]
        rfl
      · rintro rfl
        rw [Nat.zero_add, Nat.add_sub_cancel, Nat.div_one, Nat.sub_zero] at hfill
        have hstop := hfill le_rfl
        omega
    · rename_i hne
      refine ⟨stop, rfl, lt_of_le_of_ne hle (Ne.symm hne), by omega, ?_⟩
      rintro rfl
      rw [Nat.zero_add, Nat.add_sub_cancel, Nat.div_one, Nat.sub_zero] at hfill
      exact hfill le_rfl
  -- its rules are among the remaining ones
  have hsplit := ruleSum_add counts hlt.le (show stop' ≤ counts.length by omega)
  have hrest : ruleSum counts next counts.length - ruleSum counts next stop' =
      ruleSum counts stop' counts.length := by omega
  refine ⟨stop', ?_, hlt, hend', hlast⟩
  unfold checkedNextRange
  rw [checkedSub_of_le (show worker ≤ workerCount by omega), hworkers]
  simp only [Option.bind_eq_bind, Option.bind_some]
  rw [checkedSub_of_le (Nat.le_add_left 1 left), hreserve, Option.bind_some,
    checkedSub_of_le (show left ≤ counts.length by omega), Option.bind_some,
    checkedSub_of_le (show 1 ≤ ruleSum counts next counts.length + (left + 1) by omega),
    Option.bind_some, checkedDiv_of_pos (Nat.succ_pos left), Option.bind_some, hloop,
    Option.bind_some, hadvance, Option.bind_some, checkedSub_of_le (by omega), hrest]
  rfl

/-- **The ranges follow on each other**, one for each of the remaining workers, from the next group
to the last one, as long as there is a group for each of them. -/
theorem checkedParseRangesLoop_spec {counts : List Nat} {workerCount left worker next : Nat}
    (hworker : worker + left = workerCount) (hroom : next + left ≤ counts.length)
    (hlast : left = 0 → next = counts.length) :
    ∃ ranges, checkedParseRangesLoop counts workerCount left worker next
        (ruleSum counts next counts.length) = some ranges ∧
      ranges.length = left ∧ Consecutive next ranges counts.length := by
  induction left generalizing worker next with
  | zero =>
      obtain rfl := hlast rfl
      exact ⟨[], rfl, rfl, .nil⟩
  | succ left ih =>
      obtain ⟨stop, hnext, hlt, hleft, hend⟩ := checkedNextRange_spec hworker hroom
      obtain ⟨ranges, hranges, hlength, hconsecutive⟩ :=
        ih (show worker + 1 + left = workerCount by omega) hleft hend
      refine ⟨(next, stop) :: ranges, ?_, by rw [List.length_cons, hlength], .cons hlt hconsecutive⟩
      rw [checkedParseRangesLoop, hnext]
      simp only [Option.bind_eq_bind, Option.bind_some, hranges]
      rfl

/-- **Nothing goes wrong**: the computation has the ranges as its result. -/
theorem checkedParseRanges_spec (counts : List Nat) {threads : Nat} (hthreads : 1 ≤ threads) :
    ∃ ranges, checkedParseRanges counts threads = some ranges ∧
      ranges.length = min threads counts.length ∧ Consecutive 0 ranges counts.length := by
  rw [checkedParseRanges, ← ruleSum_all]
  exact checkedParseRangesLoop_spec (Nat.zero_add _) (by omega) (by omega)

/-! ## The partition -/

/-- The groups of a list of ranges, in order. -/
def rangeIndices (ranges : List (Nat × Nat)) : List Nat :=
  ranges.flatMap fun r ↦ List.range' r.1 (r.2 - r.1)

theorem rangeIndices_of_consecutive {ranges : List (Nat × Nat)} {n : Nat}
    (h : Consecutive 0 ranges n) : rangeIndices ranges = List.range n := by
  rw [rangeIndices, h.flatMap_range', List.range_eq_range', Nat.sub_zero]

/-- **The ranges cover every group once, in order.** -/
theorem rangeIndices_parseRanges (counts : List Nat) {threads : Nat} (h : 1 ≤ threads) :
    rangeIndices (parseRanges counts threads) = List.range counts.length := by
  obtain ⟨ranges, hranges, -, hconsecutive⟩ := checkedParseRanges_spec counts h
  rw [parseRanges, hranges]
  exact rangeIndices_of_consecutive hconsecutive

/-- One group has one range. -/
theorem parseRanges_singleton (count : Nat) : parseRanges [count] 1 = [(0, 1)] := by
  obtain ⟨ranges, hranges, -, hconsecutive⟩ := checkedParseRanges_spec [count] le_rfl
  rw [parseRanges, hranges]
  cases hconsecutive with
  | cons hlt hrest =>
      have hle := hrest.le
      rw [List.length_singleton] at hle hrest
      obtain rfl : _ = 1 := le_antisymm hle hlt
      cases hrest with
      | nil => rfl
      | cons hlt hrest => exact absurd (hlt.trans_le hrest.le) (lt_irrefl 1)

/-- **The parse work is divided exactly**: the computation ends without a fault, and its ranges,
one for each worker, are not empty, follow on each other from the first group to the last one, and
have every group once. -/
theorem parseRanges_partition (counts : List Nat) (threads : Nat) (hthreads : 1 ≤ threads) :
    ∃ ranges, checkedParseRanges counts threads = some ranges ∧
      ranges.length = min threads counts.length ∧ Consecutive 0 ranges counts.length ∧
      (∀ r ∈ ranges, r.1 < r.2 ∧ r.2 ≤ counts.length) ∧
      rangeIndices ranges = List.range counts.length ∧
      ∀ group < counts.length, ranges.countP (fun r ↦ r.1 ≤ group ∧ group < r.2) = 1 := by
  obtain ⟨ranges, hranges, hlength, hconsecutive⟩ := checkedParseRanges_spec counts hthreads
  refine ⟨ranges, hranges, hlength, hconsecutive, fun r hr ↦ (hconsecutive.mem hr).2,
    rangeIndices_of_consecutive hconsecutive, ?_⟩
  intro group hgroup
  exact hconsecutive.countP_eq_one ⟨Nat.zero_le _, hgroup⟩

/-- A large group in the middle, empty ones around it and more workers than it is worth. -/
theorem parseRanges_partition_skewed :
    ∃ ranges, checkedParseRanges [0, 0, 9, 0, 1] 3 = some ranges ∧
      ranges = [(0, 3), (3, 4), (4, 5)] ∧ Consecutive 0 ranges 5 := by
  obtain ⟨ranges, hranges, -, hconsecutive, -⟩ :=
    parseRanges_partition [0, 0, 9, 0, 1] 3 (by decide)
  refine ⟨ranges, hranges, ?_, hconsecutive⟩
  exact Option.some.inj (hranges.symm.trans (by decide))

end DpdkSpi
