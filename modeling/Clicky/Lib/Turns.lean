import Mathlib.Data.List.Nodup

/-! A fold over a list of indices in which the turn of an index settles what is at that index, and
leaves alone what is at the others. -/
namespace List

variable {S I B : Type} {turn : S → I → S} (place want : S → I → B)

/-- `want` is what a turn puts in its place. The turns of other indices do not change it. -/
theorem foldl_turns (puts : ∀ s i, place (turn s i) i = want s i)
    (keeps : ∀ s i j, i ≠ j → place (turn s i) j = place s j ∧ want (turn s i) j = want s j)
    {is : List I} (once : is.Nodup) (s : S) (j : I) :
    (j ∈ is → place (is.foldl turn s) j = want s j) ∧
      (j ∉ is → place (is.foldl turn s) j = place s j) := by
  induction is generalizing s with
  | nil => exact ⟨fun impossible => absurd impossible not_mem_nil, fun _ => rfl⟩
  | cons i is ih =>
    obtain ⟨fresh, rest⟩ := nodup_cons.mp once
    obtain ⟨inside, outside⟩ := ih rest (turn s i)
    rw [foldl_cons]
    constructor
    · intro member
      rcases mem_cons.mp member with rfl | later
      · exact (outside fresh).trans (puts s j)
      · have apart : i ≠ j := fun same => fresh (same ▸ later)
        exact (inside later).trans (keeps s i j apart).2
    · intro absent
      have apart : i ≠ j := fun same => absent (mem_cons.mpr (.inl same.symm))
      exact (outside fun later => absent (mem_cons_of_mem i later)).trans (keeps s i j apart).1

end List
