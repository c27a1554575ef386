import Mathlib.Init

/-! Grids that are kept row by row, and loops that go over them and may fail: the invariant rule for
one loop, and for one in another. -/

namespace Nat

variable {width height x y : Nat}

theorem place_lt (row : y < height) (column : x < width) : y * width + x < height * width :=
  calc y * width + x < y * width + width := Nat.add_lt_add_left column _
    _ = (y + 1) * width := (Nat.succ_mul y width).symm
    _ ≤ height * width := Nat.mul_le_mul_right width row

theorem place_lt_iff (column : x < width) : y * width + x < height * width ↔ y < height := by
  refine ⟨fun before => ?_, fun row => place_lt row column⟩
  exact Nat.lt_of_mul_lt_mul_right (Nat.lt_of_le_of_lt (Nat.le_add_right _ x) before)

/-- A place has one row and one column. -/
theorem place_eq_iff {r c : Nat} (column : x < width) (column' : c < width) :
    y * width + x = r * width + c ↔ y = r ∧ x = c := by
  constructor
  · intro same
    have row : y = r := by
      have below : y < r + 1 := (place_lt_iff column).mp
        (same ▸ place_lt (Nat.lt_succ_self r) column')
      have above : r < y + 1 := (place_lt_iff column').mp
        (same ▸ place_lt (Nat.lt_succ_self y) column)
      omega
    subst row
    exact ⟨rfl, Nat.add_left_cancel same⟩
  · rintro ⟨rfl, rfl⟩
    rfl

end Nat

namespace List

variable {α ε σ : Type}

/-- Two grids are the same if they have the same in each row and column. -/
theorem ext_places {width height : Nat} {l m : List α} (full : l.length = width * height)
    (full' : m.length = width * height)
    (each : ∀ y < height, ∀ x < width, l[y * width + x]? = m[y * width + x]?) : l = m := by
  refine ext_getElem? fun i => ?_
  by_cases inside : i < width * height
  · have columns : 0 < width := Nat.pos_of_lt_mul_right inside
    have place : i = i / width * width + i % width := (Nat.div_add_mod' i width).symm
    have row : i / width < height := Nat.div_lt_of_lt_mul inside
    rw [place]
    exact each _ row _ (Nat.mod_lt i columns)
  · rw [getElem?_eq_none (by omega), getElem?_eq_none (by omega)]

theorem foldlM_range_ok {step : σ → Nat → Except ε σ} (Inv : Nat → σ → Prop) {n : Nat} {s : σ}
    (init : Inv 0 s)
    (each : ∀ i < n, ∀ s, Inv i s → ∃ s', step s i = .ok s' ∧ Inv (i + 1) s') :
    ∃ s', (range n).foldlM step s = .ok s' ∧ Inv n s' := by
  induction n with
  | zero => exact ⟨s, rfl, init⟩
  | succ n ih =>
    obtain ⟨before, ran, inv⟩ := ih fun i below => each i (Nat.lt_succ_of_lt below)
    obtain ⟨after, last, inv'⟩ := each n (Nat.lt_succ_self n) before inv
    refine ⟨after, ?_, inv'⟩
    rw [range_succ, foldlM_append, ran]
    change [n].foldlM step before = _
    rw [foldlM_cons, last]
    rfl

/-- The invariant counts the places that the loops have been to. -/
theorem foldlM_grid_ok {step : Nat → σ → Nat → Except ε σ} (Inv : Nat → σ → Prop)
    {width height : Nat} {s : σ} (init : Inv 0 s)
    (each : ∀ y < height, ∀ x < width, ∀ s, Inv (y * width + x) s →
      ∃ s', step y s x = .ok s' ∧ Inv (y * width + x + 1) s') :
    ∃ s', (range height).foldlM (fun s y => (range width).foldlM (step y) s) s = .ok s' ∧
      Inv (height * width) s' := by
  refine foldlM_range_ok (fun y => Inv (y * width)) (by rwa [Nat.zero_mul]) ?_
  intro y row s inv
  rw [Nat.succ_mul]
  exact foldlM_range_ok (fun x => Inv (y * width + x)) inv (each y row)

end List
