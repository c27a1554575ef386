import Clicky.Lib.BitField

/-! Words put together from fields, and the patterns that tell them apart. -/
namespace BitVec

variable {v w : Nat}

/-- The bits that `mask` selects are those of `test`. -/
def maskMatch (x mask test : BitVec w) : Bool := (x ^^^ test) &&& mask == 0#w

/-- A field at its place in a word. -/
def field (w : Nat) (lo : Nat) (x : BitVec v) : BitVec w := x.setWidth w <<< lo

section field

variable {x : BitVec v} {lo start n i : Nat}

theorem getLsbD_field (x : BitVec v) (lo i : Nat) :
    (field w lo x).getLsbD i = (decide (i < w) && (decide (lo ≤ i) && x.getLsbD (i - lo))) := by
  rw [field, getLsbD_shiftLeft, getLsbD_setWidth]
  by_cases bound : i < w
  · by_cases above : lo ≤ i
    · simp [bound, above, show ¬ i < lo by omega, show i - lo < w by omega]
    · simp [above, show i < lo by omega]
  · simp [bound]

theorem getLsbD_field_apart (apart : i < lo ∨ lo + v ≤ i) : (field w lo x).getLsbD i = false := by
  rw [getLsbD_field]
  rcases apart with below | above
  · simp [show ¬ lo ≤ i by omega]
  · rw [getLsbD_of_ge x (i - lo) (by omega), Bool.and_false, Bool.and_false]

@[simp] theorem extractLsb'_field_apart (apart : start + n ≤ lo ∨ lo + v ≤ start) :
    (field w lo x).extractLsb' start n = 0#n := by
  apply eq_of_getLsbD_eq
  intro i bound
  rw [getLsbD_extractLsb', getLsbD_field_apart (by omega), getLsbD_zero, Bool.and_false]

/-- A field, seen through a window that starts where it does. -/
@[simp] theorem extractLsb'_field_self (fits : lo + n ≤ w) :
    (field w lo x).extractLsb' lo n = x.setWidth n := by
  apply eq_of_getLsbD_eq
  intro i bound
  rw [getLsbD_extractLsb', getLsbD_field, getLsbD_setWidth]
  simp [bound, show lo + i < w by omega]

/-- A field, seen through a window that starts below it. -/
@[simp] theorem extractLsb'_field_above (below : start < lo) (_inside : lo < start + n)
    (fits : start + n ≤ w) : (field w lo x).extractLsb' start n = field n (lo - start) x := by
  apply eq_of_getLsbD_eq
  intro i bound
  rw [getLsbD_extractLsb', getLsbD_field, getLsbD_field]
  by_cases here : lo ≤ start + i
  · simp [bound, here, show start + i < w by omega, show lo - start ≤ i by omega,
      show start + i - lo = i - (lo - start) by omega]
  · simp [bound, here, show ¬ lo - start ≤ i by omega]

@[simp] theorem getBit_field_apart (apart : i < lo ∨ lo + v ≤ i) : (field w lo x).getBit i = false :=
  getLsbD_field_apart apart

@[simp] theorem getBit_ofNat (n i : Nat) : (BitVec.ofNat w n).getBit i = (BitVec.ofNat w n).getLsbD i :=
  rfl

theorem maskMatch_iff {x mask test : BitVec w} :
    x.maskMatch mask test ↔ ∀ i < w, mask.getLsbD i → x.getLsbD i = test.getLsbD i := by
  rw [maskMatch, beq_iff_eq]
  constructor
  · intro same i _ selected
    have bit : ((x ^^^ test) &&& mask).getLsbD i = false := by rw [same, getLsbD_zero]
    simpa [selected] using bit
  · intro bits
    apply eq_of_getLsbD_eq
    intro i bound
    rw [getLsbD_and, getLsbD_xor, getLsbD_zero]
    cases selected : mask.getLsbD i with
    | true => rw [bits i bound selected, Bool.xor_self, Bool.false_and]
    | false => rw [Bool.and_false]

@[simp] theorem maskMatch_zero (x test : BitVec w) : x.maskMatch 0#w test = true :=
  maskMatch_iff.mpr (by simp)

@[simp] theorem maskMatch_ofNat (n : Nat) (mask test : BitVec w) :
    (BitVec.ofNat w n).maskMatch mask test = ((BitVec.ofNat w n ^^^ test) &&& mask == 0#w) := rfl

/-- A pattern looks at a word beside a field, and at the field. -/
@[simp] theorem maskMatch_or_field (range : lo + v ≤ w) (y mask test : BitVec w) :
    (y ||| field w lo x).maskMatch mask test =
      (y.maskMatch (mask &&& ~~~((allOnes v).setWidth w <<< lo)) test &&
        (y.extractLsb' lo v ||| x).maskMatch (mask.extractLsb' lo v) (test.extractLsb' lo v)) := by
  have beside {i : Nat} (bound : i < w) : (mask &&& ~~~((allOnes v).setWidth w <<< lo)).getLsbD i =
      (mask.getLsbD i && !decide (lo ≤ i ∧ i < lo + v)) := by
    rw [getLsbD_and, getLsbD_not, ← field, getLsbD_field, getLsbD_allOnes]
    by_cases above : lo ≤ i
    · simp [bound, above, show i - lo < v ↔ i < lo + v by omega]
    · simp [bound, above]
  rw [Bool.eq_iff_iff, Bool.and_eq_true_iff, maskMatch_iff, maskMatch_iff, maskMatch_iff]
  constructor
  · intro fits
    refine ⟨fun i bound selected => ?_, fun i bound selected => ?_⟩
    · rw [beside bound, Bool.and_eq_true_iff, Bool.not_eq_true', decide_eq_false_iff_not] at selected
      have bit := fits i bound selected.1
      rwa [getLsbD_or, getLsbD_field_apart (by omega), Bool.or_false] at bit
    · rw [getLsbD_extractLsb', Bool.and_eq_true_iff] at selected
      have bit := fits (lo + i) (by omega) selected.2
      rw [getLsbD_or, getLsbD_field] at bit
      rw [getLsbD_or, getLsbD_extractLsb', getLsbD_extractLsb']
      simpa [bound, show lo + i < w by omega] using bit
  · rintro ⟨outside, inside⟩ i bound selected
    by_cases within : lo ≤ i ∧ i < lo + v
    · have bit := inside (i - lo) (by omega) (by
        rw [getLsbD_extractLsb', show lo + (i - lo) = i by omega, selected]
        simp
        omega)
      rw [getLsbD_or, getLsbD_extractLsb', getLsbD_extractLsb', show lo + (i - lo) = i by omega] at bit
      rw [getLsbD_or, getLsbD_field]
      simpa [show i - lo < v by omega, bound, within] using bit
    · rw [getLsbD_or, getLsbD_field_apart (by omega), Bool.or_false]
      refine outside i bound ?_
      rw [beside bound, selected, decide_eq_false within]
      rfl

end field

theorem getLsbD_of_maskMatch {x mask test : BitVec w} (fits : x.maskMatch mask test) {i : Nat}
    (selected : mask.getLsbD i) : x.getLsbD i = test.getLsbD i :=
  maskMatch_iff.mp fits i (lt_of_getLsbD selected) selected

/-- The two words are the same but for the bits of a mask. -/
def AgreeOutside (mask x y : BitVec w) : Prop := x &&& ~~~mask = y &&& ~~~mask

theorem AgreeOutside.trans {mask x y z : BitVec w} (first : AgreeOutside mask x y)
    (second : AgreeOutside mask y z) : AgreeOutside mask x z := Eq.trans first second

theorem AgreeOutside.getLsbD {mask x y : BitVec w} (agree : AgreeOutside mask x y) {i : Nat}
    (bound : i < w) (outside : mask.getLsbD i = false) : x.getLsbD i = y.getLsbD i := by
  have bit : (x &&& ~~~mask).getLsbD i = (y &&& ~~~mask).getLsbD i := by rw [agree]
  simpa only [getLsbD_and, getLsbD_not, outside, bound, decide_true, Bool.true_and, Bool.not_false,
    Bool.and_true] using bit

theorem agreeOutside_of_getLsbD {mask x y : BitVec w}
    (bits : ∀ i < w, mask.getLsbD i = false → x.getLsbD i = y.getLsbD i) : AgreeOutside mask x y := by
  apply eq_of_getLsbD_eq
  intro i bound
  rw [getLsbD_and, getLsbD_and, getLsbD_not]
  cases outside : mask.getLsbD i with
  | true => simp
  | false => rw [bits i bound outside]

/-- Outside a mask that contains it, a word is clear. -/
theorem getLsbD_of_inside {x mask : BitVec w} (inside : x &&& ~~~mask = 0#w) {i : Nat} (bound : i < w)
    (outside : mask.getLsbD i = false) : x.getLsbD i = false := by
  have bit : (x &&& ~~~mask).getLsbD i = false := by rw [inside, getLsbD_zero]
  simpa only [getLsbD_and, getLsbD_not, outside, bound, decide_true, Bool.true_and, Bool.not_false,
    Bool.and_true] using bit

theorem AgreeOutside.mono {inner outer x y : BitVec w} (agree : AgreeOutside inner x y)
    (inside : inner &&& ~~~outer = 0#w) : AgreeOutside outer x y :=
  agreeOutside_of_getLsbD fun _ bound outside => agree.getLsbD bound (getLsbD_of_inside inside bound outside)

/-- Through a mask that is apart, the two words look the same. -/
theorem AgreeOutside.and_eq {mask x y : BitVec w} (agree : AgreeOutside mask x y) {window : BitVec w}
    (apart : mask &&& window = 0#w) : x &&& window = y &&& window := by
  apply eq_of_getLsbD_eq
  intro i bound
  have bit : (mask &&& window).getLsbD i = false := by rw [apart, getLsbD_zero]
  rw [getLsbD_and] at bit
  rw [getLsbD_and, getLsbD_and]
  cases seen : window.getLsbD i with
  | true =>
    rw [seen, Bool.and_true] at bit
    rw [agree.getLsbD bound bit]
  | false => simp

theorem agreeOutside_merge {outer mask : BitVec w} (inside : mask &&& ~~~outer = 0#w)
    (x y : BitVec w) : AgreeOutside outer ((x &&& ~~~mask) ||| (y &&& mask)) x := by
  refine agreeOutside_of_getLsbD fun i bound outside => ?_
  rw [getLsbD_or, getLsbD_and, getLsbD_and, getLsbD_not, getLsbD_of_inside inside bound outside]
  simp only [bound, decide_true, Bool.not_false, Bool.and_true, Bool.and_false, Bool.or_false]

theorem agreeOutside_or {mask y : BitVec w} (inside : y &&& ~~~mask = 0#w) (x : BitVec w) :
    AgreeOutside mask (x ||| y) x := by
  refine agreeOutside_of_getLsbD fun i bound outside => ?_
  rw [getLsbD_or, getLsbD_of_inside inside bound outside, Bool.or_false]

/-- What a mask lets in from another word. -/
theorem merge_and (x y mask : BitVec w) : ((x &&& ~~~mask) ||| (y &&& mask)) &&& mask = y &&& mask := by
  ext i bound
  simp only [getElem_and, getElem_or, getElem_not]
  cases x[i] <;> cases y[i] <;> cases mask[i] <;> rfl

/-- A mask does not see what another mask, apart from it, lets in. -/
theorem or_and_of_disjoint {y mask z : BitVec w} (inside : y &&& z = y)
    (apart : z &&& mask = 0#w) (x : BitVec w) : (x ||| y) &&& mask = x &&& mask := by
  have none : y &&& mask = 0#w := by rw [← inside, BitVec.and_assoc, apart, BitVec.and_zero]
  rw [← BitVec.or_zero (x := x &&& mask), ← none]
  ext i bound
  simp only [getElem_and, getElem_or, Bool.and_or_distrib_right]

end BitVec
