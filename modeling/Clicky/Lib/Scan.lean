import Mathlib.Init

/-! Scanning a list: what a pattern finds at each position, in order. -/
namespace List

variable {α β : Type} {f : List α → Option β}

/-- The pattern is tried on what lies ahead of each position. -/
def findAll (f : List α → Option β) : List α → List β
  | [] => []
  | a :: l => (f (a :: l)).toList ++ findAll f l

theorem findAll_eq (f : List α → Option β) (l : List α) :
    l.findAll f = (range l.length).filterMap fun i => f (l.drop i) := by
  induction l with
  | nil => rfl
  | cons a l ih =>
    rw [findAll, ih, length_cons, range_succ_eq_map, filterMap_cons, filterMap_map]
    cases found : f (a :: l) with
    | none =>
      rw [drop_zero, found]
      rfl
    | some b =>
      rw [drop_zero, found]
      rfl

/-- Positions where nothing can be found may be skipped. -/
theorem findAll_skip {l : List α} {n : Nat} (nothing : ∀ j < n, f (l.drop j) = none) :
    l.findAll f = (l.drop n).findAll f := by
  induction n generalizing l with
  | zero => rfl
  | succ n ih =>
    cases l with
    | nil => rfl
    | cons a l =>
      have here : f (a :: l) = none := nothing 0 (Nat.zero_lt_succ n)
      rw [findAll, here, drop_succ_cons]
      exact ih fun j before => nothing (j + 1) (Nat.succ_lt_succ before)

end List
