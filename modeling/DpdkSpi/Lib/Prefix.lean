import Mathlib.Order.Basic
import Mathlib.Data.List.Basic

/-!
# Blocks of addresses and the longest that matches

A block holds the addresses that begin with some bits.  Whether it holds an address can be told
from a mask (`Block.contains_iff_mask`).  In a list whose keys descend, the first element that
answers a question has the greatest key among those that do (`find?_descending`): the longest
match among blocks that are sorted by their lengths.
-/

namespace DpdkSpi.Lib

universe u v

/-- The addresses whose first `length` bits are those of `address`.  Its other bits do not
matter. -/
structure Block (w : Nat) where
  address : BitVec w
  length : Nat

namespace Block

variable {w : Nat}

/-- The block holds an address. -/
def Contains (b : Block w) (x : BitVec w) : Prop :=
  ∀ i < b.length, x.getMsbD i = b.address.getMsbD i

/-- The bits of the block, counted from the left. -/
def mask (b : Block w) : BitVec w := BitVec.allOnes w <<< (w - b.length)

theorem getMsbD_mask (b : Block w) (i : Nat) :
    b.mask.getMsbD i = decide (i < b.length ∧ i < w) := by
  rw [mask, BitVec.getMsbD_shiftLeft, BitVec.getMsbD_allOnes]
  refine decide_eq_decide.mpr ⟨fun h ↦ ?_, fun h ↦ ?_⟩
  · omega
  · omega

/-- A block holds the addresses that agree with its own under the mask. -/
theorem contains_iff_mask {b : Block w} {x : BitVec w} :
    b.Contains x ↔ x &&& b.mask = b.address &&& b.mask := by
  constructor
  · intro h
    refine BitVec.eq_of_getMsbD_eq fun i hi ↦ ?_
    rw [BitVec.getMsbD_and, BitVec.getMsbD_and, getMsbD_mask]
    by_cases hlength : i < b.length
    · rw [h i hlength]
    · rw [decide_eq_false fun hin ↦ hlength hin.1, Bool.and_false, Bool.and_false]
  · intro h i hi
    by_cases hw : i < w
    · have hbit : (x &&& b.mask).getMsbD i = (b.address &&& b.mask).getMsbD i := by rw [h]
      rw [BitVec.getMsbD_and, BitVec.getMsbD_and, getMsbD_mask, decide_eq_true ⟨hi, hw⟩,
        Bool.and_true, Bool.and_true] at hbit
      exact hbit
    · rw [BitVec.getMsbD_of_ge x i (Nat.le_of_not_lt hw),
        BitVec.getMsbD_of_ge b.address i (Nat.le_of_not_lt hw)]

/-- A block of whole addresses holds one. -/
theorem contains_iff_eq {b : Block w} (h : b.length = w) {x : BitVec w} :
    b.Contains x ↔ x = b.address := by
  constructor
  · intro hin
    exact BitVec.eq_of_getMsbD_eq fun i hi ↦ hin i (h.symm ▸ hi)
  · rintro rfl i -
    rfl

end Block

variable {α : Type u} {β : Type v} [Preorder β] {key : α → β} {p : α → Bool}

/-- The first hit has the greatest key of all hits when the keys descend. -/
theorem find?_descending {l : List α} (hsorted : l.Pairwise fun x y ↦ key y ≤ key x) {a : α}
    (h : l.find? p = some a) : a ∈ l ∧ p a ∧ ∀ b ∈ l, p b → key b ≤ key a := by
  obtain ⟨ha, before, after, rfl, hbefore⟩ := List.find?_eq_some_iff_append.mp h
  obtain ⟨-, htail, -⟩ := List.pairwise_append.mp hsorted
  refine ⟨List.mem_append_right before List.mem_cons_self, ha, fun b hb hhit ↦ ?_⟩
  rcases List.mem_append.mp hb with hb | hb
  · have hmiss := hbefore b hb
    rw [hhit] at hmiss
    cases hmiss
  · rcases List.mem_cons.mp hb with rfl | hb
    · exact le_rfl
    · exact (List.pairwise_cons.mp htail).1 b hb

end DpdkSpi.Lib
