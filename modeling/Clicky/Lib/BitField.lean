import Mathlib.Data.Nat.Bitwise

/-! Single bits and bit ranges of fixed-width words, with the reading and the
writing operation of each. A write returns the new word. A position past the width is
harmless here: it reads as clear, and writing it changes nothing. -/
namespace BitVec

variable {w : Nat}

def getBit (x : BitVec w) (i : Nat) : Bool := x.getLsbD i

def setBit (x : BitVec w) (i : Nat) (v : Bool) : BitVec w :=
  if v then x ||| (1#w <<< i) else x &&& ~~~(1#w <<< i)

/-- The bits `lo` to `hi`, both included, moved down to position 0. -/
def getBits (x : BitVec w) (lo hi : Nat) : BitVec w :=
  (x >>> lo) &&& BitVec.ofNat w (2 ^ (hi + 1 - lo) - 1)

/-- The bits `lo` to `hi`, both included, replaced by the lowest ones of `v`. -/
def setBits (x : BitVec w) (lo hi : Nat) (v : BitVec w) : BitVec w :=
  (x &&& ~~~(BitVec.ofNat w (2 ^ (hi + 1 - lo) - 1) <<< lo)) ||| (v.getBits 0 (hi - lo) <<< lo)

@[simp] theorem getBit_setBit (x : BitVec w) (i j : Nat) (v : Bool) :
    (x.setBit i v).getBit j = if i = j ∧ i < w then v else x.getBit j := by
  unfold setBit getBit
  by_cases hj : j < w
  · by_cases hij : i = j
    · subst hij
      cases v <;> simp [hj]
    · have apart : j < i ∨ ¬ j - i = 0 := by omega
      cases v
      · simp only [Bool.false_eq_true, if_false, BitVec.getLsbD_and, BitVec.getLsbD_not,
          BitVec.getLsbD_shiftLeft, BitVec.getLsbD_one, hj, hij]
        rcases apart with h | h <;> simp [h]
      · simp only [if_true, BitVec.getLsbD_or, BitVec.getLsbD_shiftLeft, BitVec.getLsbD_one, hij]
        rcases apart with h | h <;> simp [h]
  · have low : ¬ (i = j ∧ i < w) := by omega
    cases v <;> simp [BitVec.getLsbD_of_ge _ _ (Nat.le_of_not_lt hj), low]

@[simp] theorem getBit_zero (i : Nat) : (0#w).getBit i = false := by simp [getBit]

@[simp] theorem getBit_and (x y : BitVec w) (i : Nat) :
    (x &&& y).getBit i = (x.getBit i && y.getBit i) := by simp [getBit]

@[simp] theorem getBit_or (x y : BitVec w) (i : Nat) :
    (x ||| y).getBit i = (x.getBit i || y.getBit i) := by simp [getBit]

theorem getLsbD_getBits (x : BitVec w) (lo hi i : Nat) :
    (x.getBits lo hi).getLsbD i = (decide (i < hi + 1 - lo) && x.getLsbD (lo + i)) := by
  rw [getBits, BitVec.getLsbD_and, BitVec.getLsbD_ushiftRight, BitVec.getLsbD_ofNat,
    Nat.testBit_two_pow_sub_one]
  by_cases inside : i < w
  · simp [inside, Bool.and_comm]
  · simp [BitVec.getLsbD_of_ge x (lo + i) (by omega)]

theorem getLsbD_setBits (x v : BitVec w) {lo hi i : Nat} (range : lo ≤ hi) (bound : i < w) :
    (x.setBits lo hi v).getLsbD i =
      if lo ≤ i ∧ i ≤ hi then v.getLsbD (i - lo) else x.getLsbD i := by
  rw [setBits, BitVec.getLsbD_or, BitVec.getLsbD_and, BitVec.getLsbD_not,
    BitVec.getLsbD_shiftLeft, BitVec.getLsbD_shiftLeft, BitVec.getLsbD_ofNat, getLsbD_getBits,
    Nat.testBit_two_pow_sub_one, Nat.zero_add]
  by_cases below : i < lo
  · simp [below, bound, show ¬ lo ≤ i by omega]
  · by_cases inside : i ≤ hi
    · simp [below, bound, show lo ≤ i by omega, inside, show i - lo < hi + 1 - lo by omega,
        show i - lo < hi - lo + 1 by omega, show i - lo < w by omega]
    · simp [below, bound, inside, show ¬ i - lo < hi + 1 - lo by omega,
        show ¬ i - lo < hi - lo + 1 by omega]

/-- What is written to a range is read from it, as far as it fits. -/
theorem getBits_setBits (x v : BitVec w) {lo hi : Nat} (range : lo ≤ hi) (bound : hi < w) :
    (x.setBits lo hi v).getBits lo hi = v.getBits 0 (hi - lo) := by
  apply BitVec.eq_of_getLsbD_eq
  intro i _
  rw [getLsbD_getBits, getLsbD_getBits, Nat.zero_add]
  by_cases inside : i < hi + 1 - lo
  · rw [getLsbD_setBits x v range (by omega), if_pos ⟨by omega, by omega⟩, Nat.add_sub_cancel_left]
    simp [inside, show i < hi - lo + 1 by omega]
  · simp [inside, show ¬ i < hi - lo + 1 by omega]

@[simp] theorem getBits_getBits (x : BitVec w) (hi : Nat) :
    (x.getBits 0 hi).getBits 0 hi = x.getBits 0 hi := by
  apply BitVec.eq_of_getLsbD_eq
  intro i _
  rw [getLsbD_getBits, Nat.zero_add, getLsbD_getBits, Nat.zero_add, ← Bool.and_assoc, Bool.and_self]

/-- A bit above a range does not show in it. -/
theorem getBits_setBit_of_lt (x : BitVec w) {hi i : Nat} (above : hi < i) (v : Bool) :
    (x.setBit i v).getBits 0 hi = x.getBits 0 hi := by
  apply BitVec.eq_of_getLsbD_eq
  intro j _
  rw [getLsbD_getBits, getLsbD_getBits, Nat.zero_add]
  by_cases inside : j < hi + 1 - 0
  · have same := getBit_setBit x i j v
    rw [if_neg (by omega)] at same
    rw [show (x.setBit i v).getLsbD j = x.getLsbD j from same]
  · rw [decide_eq_false inside, Bool.false_and, Bool.false_and]

theorem ne_zero_iff_getBit (x : BitVec w) : x ≠ 0#w ↔ ∃ i, i < w ∧ x.getBit i = true := by
  constructor
  · intro nonzero
    by_contra none
    apply nonzero
    apply BitVec.eq_of_getLsbD_eq
    intro i hi
    have clear : x.getBit i ≠ true := fun set => none ⟨i, hi, set⟩
    simpa [getBit] using clear
  · rintro ⟨i, _, set⟩ zero
    simp [zero] at set

end BitVec
