import DpdkSpi.Pipeline.Forward

/-!
# Paired ports

Without routes a port's partner is its neighbour in the list of active ports.  On a list without
repetition `GetTransmitPort` exchanges the two, so that a port is the transmit port of exactly one
receive port.
-/

namespace DpdkSpi

/-- The index a port is paired with, in a list of `n` ports. -/
def pairIndex (n i : Nat) : Nat :=
  if i % 2 = 0 ∧ i + 1 < n then i + 1 else if i % 2 ≠ 0 then i - 1 else i

theorem pairIndex_pairIndex {n i : Nat} (h : i < n) : pairIndex n (pairIndex n i) = i := by
  unfold pairIndex
  split_ifs <;> omega

/-- Looking for the port at an index of a list without repetition finds that index. -/
theorem findIdx?_of_getElem? {activePorts : List (BitVec 16)} (hnodup : activePorts.Nodup)
    {i : Nat} {p : BitVec 16} (hp : activePorts[i]? = some p) :
    activePorts.findIdx? (fun q ↦ q = p) = some i := by
  obtain ⟨hi, rfl⟩ := List.getElem?_eq_some_iff.mp hp
  rw [List.findIdx?_eq_some_iff_getElem]
  refine ⟨hi, decide_eq_true rfl, fun j hj hjp ↦ ?_⟩
  have hsame := (List.Nodup.getElem_inj_iff hnodup).mp (of_decide_eq_true hjp)
  omega

/-- The partner of the port at an index is the port at the paired index. -/
theorem getElem?_pairIndex {activePorts : List (BitVec 16)} (hnodup : activePorts.Nodup)
    {i : Nat} {p : BitVec 16} (hp : activePorts[i]? = some p) :
    activePorts[pairIndex activePorts.length i]? = some (getTransmitPort activePorts p) := by
  have hlt : i < activePorts.length := (List.getElem?_eq_some_iff.mp hp).1
  unfold getTransmitPort
  rw [findIdx?_of_getElem? hnodup hp]
  by_cases hone : activePorts.length ≤ 1
  · obtain rfl : i = 0 := by omega
    have hself : pairIndex activePorts.length 0 = 0 := by
      rw [pairIndex, if_neg fun h ↦ Nat.not_lt.mpr hone h.2]
      rfl
    rw [if_pos hone, hself, hp]
  · rw [if_neg hone]
    dsimp only
    unfold pairIndex
    split_ifs with heven hodd
    · rw [List.getD_eq_getElem?_getD, List.getElem?_eq_getElem heven.2, Option.getD_some]
    · have hbefore : i - 1 < activePorts.length := by omega
      rw [List.getD_eq_getElem?_getD, List.getElem?_eq_getElem hbefore, Option.getD_some]
    · exact hp

/-- An active port has an active partner. -/
theorem getTransmitPort_mem {activePorts : List (BitVec 16)} (hnodup : activePorts.Nodup)
    {p : BitVec 16} (hp : p ∈ activePorts) : getTransmitPort activePorts p ∈ activePorts := by
  obtain ⟨i, hi⟩ := List.mem_iff_getElem?.mp hp
  exact List.mem_of_getElem? (getElem?_pairIndex hnodup hi)

/-- Partners have each other. -/
theorem getTransmitPort_getTransmitPort {activePorts : List (BitVec 16)}
    (hnodup : activePorts.Nodup) {p : BitVec 16} (hp : p ∈ activePorts) :
    getTransmitPort activePorts (getTransmitPort activePorts p) = p := by
  obtain ⟨i, hi⟩ := List.mem_iff_getElem?.mp hp
  have hlt : i < activePorts.length := (List.getElem?_eq_some_iff.mp hi).1
  have hback := getElem?_pairIndex hnodup (getElem?_pairIndex hnodup hi)
  rw [pairIndex_pairIndex hlt, hi] at hback
  exact (Option.some_inj.mp hback).symm

/-- Two active ports with one partner are the same port. -/
theorem getTransmitPort_injOn {activePorts : List (BitVec 16)} (hnodup : activePorts.Nodup)
    {p q : BitVec 16} (hp : p ∈ activePorts) (hq : q ∈ activePorts)
    (h : getTransmitPort activePorts p = getTransmitPort activePorts q) : p = q := by
  rw [← getTransmitPort_getTransmitPort hnodup hp, h, getTransmitPort_getTransmitPort hnodup hq]

end DpdkSpi
