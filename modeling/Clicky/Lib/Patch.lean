import Clicky.Lib.Extent

/-! A list patched at several places. Patches that are apart do not disturb each other: each of
them is in the result, and what none of them covers is what it was. -/
namespace List

variable {α : Type}

/-- A patch is a place and what goes there. These two have no element in common. -/
def Apart (p q : Nat × List α) : Prop := p.1 + p.2.length ≤ q.1 ∨ q.1 + q.2.length ≤ p.1

def patch (xs : List α) : List (Nat × List α) → List α
  | [] => xs
  | p :: ps => (xs.overwrite p.1 p.2).patch ps

@[simp] theorem length_patch (xs : List α) (ps : List (Nat × List α)) :
    (xs.patch ps).length = xs.length := by
  induction ps generalizing xs with
  | nil => rfl
  | cons p ps ih => rw [patch, ih, length_overwrite]

theorem getElem?_patch_of_outside {ps : List (Nat × List α)} {i : Nat}
    (outside : ∀ p ∈ ps, i < p.1 ∨ p.1 + p.2.length ≤ i) (xs : List α) :
    (xs.patch ps)[i]? = xs[i]? := by
  induction ps generalizing xs with
  | nil => rfl
  | cons p ps ih =>
    have here := outside p mem_cons_self
    rw [patch, ih fun q member => outside q (mem_cons_of_mem p member), getElem?_overwrite,
      if_neg (by omega)]

theorem slice_patch_of_apart {ps : List (Nat × List α)} {p : Nat × List α}
    (apart : ∀ q ∈ ps, Apart p q) (xs : List α) :
    (xs.patch ps).slice p.1 p.2.length = xs.slice p.1 p.2.length := by
  induction ps generalizing xs with
  | nil => rfl
  | cons q ps ih =>
    rw [patch, ih fun r member => apart r (mem_cons_of_mem q member)]
    exact slice_overwrite_apart (apart q mem_cons_self)

theorem slice_patch {ps : List (Nat × List α)} (apart : ps.Pairwise Apart) {p : Nat × List α}
    (member : p ∈ ps) {xs : List α} (inside : p.1 + p.2.length ≤ xs.length) :
    (xs.patch ps).slice p.1 p.2.length = p.2 := by
  induction ps generalizing xs with
  | nil => exact absurd member not_mem_nil
  | cons q ps ih =>
    obtain ⟨first, later⟩ := pairwise_cons.mp apart
    rw [patch]
    rcases mem_cons.mp member with rfl | tail
    · rw [slice_patch_of_apart first]
      exact slice_overwrite inside
    · exact ih later tail ((length_overwrite ..).symm ▸ inside)

end List
