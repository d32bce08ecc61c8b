import Mathlib.Data.BitVec

/-!
# Serial number arithmetic

Numbers of `w` bits that count modulo `2 ^ w` and are compared through their signed
difference, as sequence numbers of protocols are.  The difference of two numbers is that of
the positions they stand for as long as the positions are less than `2 ^ (w - 1)` apart.
-/

namespace DpdkSpi.Lib.Serial

variable {w : Nat}

/-- The signed difference of two serial numbers. -/
def distance (lhs rhs : BitVec w) : Int := (lhs - rhs).toInt

/-- A difference that fits in `w` signed bits. -/
def Fits (w : Nat) (k : Int) : Prop := -2 ^ (w - 1) ≤ k ∧ k < 2 ^ (w - 1)

theorem fits_distance (a b : BitVec w) : Fits w (distance a b) :=
  ⟨BitVec.le_toInt _, BitVec.toInt_lt⟩

/-- Going the difference from `b` leads to `a`. -/
theorem add_distance (a b : BitVec w) : b + BitVec.ofInt w (distance a b) = a := by
  rw [distance, BitVec.ofInt_toInt, BitVec.add_comm, BitVec.sub_add_cancel]

/-- The difference between a number and the one `k` further on. -/
theorem distance_add_ofInt (hw : 0 < w) (b : BitVec w) {k : Int} (hk : Fits w k) :
    distance (b + BitVec.ofInt w k) b = k := by
  rw [distance, BitVec.add_comm, BitVec.add_sub_cancel]
  exact BitVec.toInt_ofInt_eq_self hw hk.1 hk.2

theorem distance_eq_zero_iff {a b : BitVec w} : distance a b = 0 ↔ a = b := by
  constructor
  · intro h
    rw [← add_distance a b, h]
    exact BitVec.add_zero b
  · rintro rfl
    rw [distance, BitVec.sub_self, BitVec.toInt_zero]

/-- Moving the first number moves the difference, as long as it fits. -/
theorem distance_add_left (hw : 0 < w) (a b : BitVec w) {n : Nat}
    (h : Fits w (distance a b + n)) :
    distance (a + BitVec.ofNat w n) b = distance a b + n := by
  have ha : a + BitVec.ofNat w n = b + BitVec.ofInt w (distance a b + n) := by
    rw [BitVec.ofInt_add, ← BitVec.add_assoc, add_distance, BitVec.ofInt_natCast]
  rw [ha, distance_add_ofInt hw b h]

/-! ## Positions

Numbers that stand for positions of less than `2 ^ (w - 1)`, counted from a first number. -/

/-- The number of a position. -/
def nth (first : BitVec w) (position : Nat) : BitVec w := first + BitVec.ofNat w position

theorem nth_add (first : BitVec w) (m n : Nat) :
    nth first m + BitVec.ofNat w n = nth first (m + n) := by
  rw [nth, nth, BitVec.add_assoc, ← BitVec.ofNat_add]

theorem distance_nth (hw : 0 < w) (first : BitVec w) {m n : Nat} (hm : m < 2 ^ (w - 1))
    (hn : n < 2 ^ (w - 1)) : distance (nth first m) (nth first n) = m - n := by
  have hm' : (m : Int) < 2 ^ (w - 1) := by exact_mod_cast hm
  have hn' : (n : Int) < 2 ^ (w - 1) := by exact_mod_cast hn
  have hstep : nth first m = nth first n + BitVec.ofInt w (m - n) := by
    rw [nth, nth, BitVec.add_assoc, ← BitVec.ofInt_natCast, ← BitVec.ofInt_natCast,
      ← BitVec.ofInt_add, add_sub_cancel]
  rw [hstep]
  exact distance_add_ofInt hw _ ⟨by omega, by omega⟩

theorem nth_inj (hw : 0 < w) {first : BitVec w} {m n : Nat} (hm : m < 2 ^ (w - 1))
    (hn : n < 2 ^ (w - 1)) : nth first m = nth first n ↔ m = n := by
  rw [← distance_eq_zero_iff, distance_nth hw first hm hn]
  omega

/-- Positions below `2 ^ w` have different numbers. -/
theorem nth_inj_of_lt {first : BitVec w} {m n : Nat} (hm : m < 2 ^ w) (hn : n < 2 ^ w) :
    nth first m = nth first n ↔ m = n := by
  rw [nth, nth, BitVec.add_right_inj]
  constructor
  · intro h
    have hnat := congrArg BitVec.toNat h
    rwa [BitVec.toNat_ofNat, BitVec.toNat_ofNat, Nat.mod_eq_of_lt hm, Nat.mod_eq_of_lt hn] at hnat
  · rintro rfl
    rfl

end DpdkSpi.Lib.Serial
