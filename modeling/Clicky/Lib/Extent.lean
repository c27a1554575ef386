import Mathlib.Init

/-! Extents of a list: reading one, and writing one in place. A write past the end is cut
off there, so the length never changes. -/
namespace List

variable {α : Type}

def slice (xs : List α) (pos len : Nat) : List α := (xs.drop pos).take len

def overwrite (xs : List α) (pos : Nat) (ys : List α) : List α :=
  xs.take pos ++ ys.take (xs.length - pos) ++ xs.drop (pos + ys.length)

@[simp] theorem length_overwrite (xs ys : List α) (pos : Nat) :
    (xs.overwrite pos ys).length = xs.length := by
  simp only [overwrite, length_append, length_take, length_drop]
  omega

@[simp] theorem overwrite_nil (xs : List α) (pos : Nat) : xs.overwrite pos [] = xs := by
  simp [overwrite, take_append_drop]

theorem length_slice {xs : List α} {pos len : Nat} (inside : pos + len ≤ xs.length) :
    (xs.slice pos len).length = len := by
  simp only [slice, length_take, length_drop]
  omega

@[simp] theorem slice_zero (xs : List α) (pos : Nat) : xs.slice pos 0 = [] := by simp [slice]

theorem slice_append_slice (xs : List α) (pos m n : Nat) :
    xs.slice pos m ++ xs.slice (pos + m) n = xs.slice pos (m + n) := by
  simp only [slice, take_add, drop_drop]

theorem getElem?_slice (xs : List α) (pos len i : Nat) :
    (xs.slice pos len)[i]? = if i < len then xs[pos + i]? else none := by
  simp only [slice, getElem?_take, getElem?_drop]

theorem slice_append_left {xs : List α} {pos len : Nat} (inside : pos + len ≤ xs.length)
    (ys : List α) : (xs ++ ys).slice pos len = xs.slice pos len := by
  rw [slice, drop_append_of_le_length (by omega), take_append_of_le_length]
  · rfl
  · rw [length_drop]
    omega

theorem slice_succ {xs : List α} {pos : Nat} (inside : pos < xs.length) (len : Nat) :
    xs.slice pos (len + 1) = xs[pos] :: xs.slice (pos + 1) len := by
  rw [slice, drop_eq_getElem_cons inside, take_succ_cons, slice]

theorem slice_four {xs : List α} {pos : Nat} (inside : pos + 4 ≤ xs.length) :
    xs.slice pos 4 = [xs[pos], xs[pos + 1], xs[pos + 2], xs[pos + 3]] := by
  rw [slice_succ (by omega), slice_succ (by omega), slice_succ (by omega), slice_succ (by omega),
    slice_zero]

theorem getElem?_overwrite (xs ys : List α) (pos i : Nat) :
    (xs.overwrite pos ys)[i]? =
      if pos ≤ i ∧ i < pos + ys.length ∧ i < xs.length then ys[i - pos]? else xs[i]? := by
  have len_take : (xs.take pos).length = min pos xs.length := length_take
  simp only [overwrite, append_assoc]
  by_cases before : i < pos
  · rw [if_neg (by omega)]
    by_cases inside : i < xs.length
    · rw [getElem?_append_left (by omega), getElem?_take, if_pos before]
    · have none_left : xs[i]? = none := getElem?_eq_none (by omega)
      rw [none_left]
      apply getElem?_eq_none
      simp only [length_append, length_take, length_drop]
      omega
  · by_cases inside : i < xs.length
    · have start : (xs.take pos).length = pos := by omega
      rw [getElem?_append_right (by omega), start]
      by_cases written : i < pos + ys.length
      · rw [if_pos ⟨by omega, written, inside⟩, getElem?_append_left, getElem?_take,
          if_pos (by omega)]
        simp only [length_take]
        omega
      · have all : (ys.take (xs.length - pos)).length = ys.length := by
          rw [length_take]
          omega
        rw [if_neg (by omega), getElem?_append_right (by omega), all, getElem?_drop]
        congr 1
        omega
    · have none_left : xs[i]? = none := getElem?_eq_none (by omega)
      rw [if_neg (by omega), none_left]
      apply getElem?_eq_none
      simp only [length_append, length_take, length_drop]
      omega

theorem set_eq_overwrite (xs : List α) (pos : Nat) (a : α) :
    xs.set pos a = xs.overwrite pos [a] := by
  apply ext_getElem?
  intro i
  rw [getElem?_overwrite, getElem?_set]
  by_cases here : pos = i
  · subst here
    by_cases inside : pos < xs.length
    · simp [inside]
    · simp [inside]
  · rw [if_neg here, if_neg]
    simp only [length_singleton]
    omega

theorem overwrite_overwrite (xs ys zs : List α) (pos : Nat) :
    (xs.overwrite pos ys).overwrite (pos + ys.length) zs = xs.overwrite pos (ys ++ zs) := by
  apply ext_getElem?
  intro i
  simp only [getElem?_overwrite, length_overwrite, length_append]
  by_cases second : pos + ys.length ≤ i ∧ i < pos + ys.length + zs.length ∧ i < xs.length
  · rw [if_pos second, if_pos (by omega), getElem?_append_right (by omega)]
    congr 1
    omega
  · rw [if_neg second]
    by_cases first : pos ≤ i ∧ i < pos + ys.length ∧ i < xs.length
    · rw [if_pos first, if_pos (by omega), getElem?_append_left (by omega)]
    · rw [if_neg first, if_neg (by omega)]

theorem slice_overwrite {xs ys : List α} {pos : Nat} (inside : pos + ys.length ≤ xs.length) :
    (xs.overwrite pos ys).slice pos ys.length = ys := by
  apply ext_getElem?
  intro i
  rw [getElem?_slice, getElem?_overwrite]
  by_cases short : i < ys.length
  · rw [if_pos short, if_pos (by omega)]
    congr 1
    omega
  · rw [if_neg short, getElem?_eq_none (by omega)]

theorem slice_overwrite_apart {xs ys : List α} {pos p len : Nat}
    (apart : p + len ≤ pos ∨ pos + ys.length ≤ p) :
    (xs.overwrite pos ys).slice p len = xs.slice p len := by
  apply ext_getElem?
  intro i
  rw [getElem?_slice, getElem?_slice]
  split
  · rw [getElem?_overwrite, if_neg (by omega)]
  · rfl

theorem overwrite_full {xs ys : List α} (same : ys.length = xs.length) :
    xs.overwrite 0 ys = ys := by
  have rest : xs.drop (0 + ys.length) = [] := drop_eq_nil_of_le (by omega)
  rw [overwrite, rest, ← same]
  simp

end List
