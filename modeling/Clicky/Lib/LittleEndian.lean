import Mathlib.Data.Nat.Bitwise

/-! Words as lists of bytes, the lowest byte first. -/
namespace BitVec

variable {w : Nat}

def leByte (x : BitVec w) (i : Nat) : BitVec 8 := (x >>> (8 * i)).setWidth 8

def toLeBytes (x : BitVec w) : Nat → List (BitVec 8)
  | 0 => []
  | count + 1 => x.setWidth 8 :: (x >>> 8).toLeBytes count

def ofLeBytes (w : Nat) : List (BitVec 8) → BitVec w
  | [] => 0
  | b :: bs => (ofLeBytes w bs <<< 8) ||| b.setWidth w

@[simp] theorem length_toLeBytes (x : BitVec w) (count : Nat) :
    (x.toLeBytes count).length = count := by
  induction count generalizing x with
  | zero => rfl
  | succ count ih => rw [toLeBytes, List.length_cons, ih]

theorem getElem?_toLeBytes (x : BitVec w) (count i : Nat) (inside : i < count) :
    (x.toLeBytes count)[i]? = some (x.leByte i) := by
  induction count generalizing x i with
  | zero => exact absurd inside (Nat.not_lt_zero i)
  | succ count ih =>
    cases i with
    | zero => rfl
    | succ i =>
      have shift : (x >>> 8).leByte i = x.leByte (i + 1) := by
        rw [leByte, leByte, ← BitVec.shiftRight_add, Nat.mul_succ, Nat.add_comm]
      rw [toLeBytes, List.getElem?_cons_succ, ih _ _ (Nat.lt_of_succ_lt_succ inside), shift]

theorem leByte_ofLeBytes (bs : List (BitVec 8)) (i : Nat) (inside : 8 * (i + 1) ≤ w) :
    (ofLeBytes w bs).leByte i = bs.getD i 0 := by
  induction bs generalizing i with
  | nil => simp [ofLeBytes, leByte]
  | cons b bs ih =>
    cases i with
    | zero =>
      apply BitVec.eq_of_getLsbD_eq
      intro j low
      have fits : j < w := by omega
      simp [ofLeBytes, leByte, low, fits]
    | succ i =>
      rw [List.getD_cons_succ, ← ih i (by omega)]
      apply BitVec.eq_of_getLsbD_eq
      intro j low
      have fits : 8 * (i + 1) + j < w := by omega
      have past : ¬ 8 * (i + 1) + j < 8 := by omega
      have back : 8 * (i + 1) + j - 8 = 8 * i + j := by omega
      have empty : b.getLsbD (8 * (i + 1) + j) = false := BitVec.getLsbD_of_ge b _ (by omega)
      simp only [ofLeBytes, leByte, BitVec.getLsbD_setWidth, BitVec.getLsbD_ushiftRight,
        BitVec.getLsbD_or, BitVec.getLsbD_shiftLeft, low, fits, past, back, empty, decide_true,
        decide_false, Bool.not_false, Bool.true_and, Bool.and_false, Bool.or_false]

theorem getLsbD_ofLeBytes_toLeBytes (x : BitVec w) (count i : Nat) :
    (ofLeBytes w (x.toLeBytes count)).getLsbD i = (decide (i < 8 * count) && x.getLsbD i) := by
  induction count generalizing x i with
  | zero => simp [toLeBytes, ofLeBytes]
  | succ count ih =>
    rw [toLeBytes, ofLeBytes, BitVec.getLsbD_or, BitVec.getLsbD_shiftLeft, ih,
      BitVec.getLsbD_ushiftRight, BitVec.getLsbD_setWidth, BitVec.getLsbD_setWidth]
    by_cases fits : i < w
    · by_cases low : i < 8
      · have inside : i < 8 * (count + 1) := by omega
        simp [fits, low, inside]
      · have back : 8 + (i - 8) = i := by omega
        have same : i - 8 < 8 * count ↔ i < 8 * (count + 1) := by omega
        simp only [fits, low, back, same, decide_true, decide_false, Bool.not_false, Bool.true_and,
          Bool.false_and, Bool.and_false, Bool.or_false]
    · simp [fits, BitVec.getLsbD_of_ge x i (Nat.not_lt.mp fits)]

theorem ofLeBytes_toLeBytes (x : BitVec w) {count : Nat} (whole : w ≤ 8 * count) :
    ofLeBytes w (x.toLeBytes count) = x := by
  apply BitVec.eq_of_getLsbD_eq
  intro i inside
  have covered : i < 8 * count := by omega
  rw [getLsbD_ofLeBytes_toLeBytes, decide_eq_true covered, Bool.true_and]

end BitVec
