import Mathlib.Init

/-! Lists in which two values take turns. -/
namespace List

variable {α : Type}

/-- `a` first, then `b`, then `a` again. -/
def Alternates : α → α → List α → Prop
  | _, _, [] => True
  | a, b, x :: xs => x = a ∧ Alternates b a xs

/-- The value whose turn it is after the list. -/
def turn : α → α → List α → α
  | a, _, [] => a
  | a, b, _ :: xs => turn b a xs

theorem alternates_concat (a b : α) (xs : List α) (x : α) :
    Alternates a b (xs ++ [x]) ↔ Alternates a b xs ∧ x = turn a b xs := by
  induction xs generalizing a b with
  | nil => exact ⟨fun h => ⟨trivial, h.1⟩, fun h => ⟨h.2, trivial⟩⟩
  | cons y xs ih =>
    rw [List.cons_append, Alternates, Alternates, ih, turn]
    exact and_assoc.symm

theorem turn_concat (a b : α) (xs : List α) (x : α) :
    turn a b xs = a ∧ turn a b (xs ++ [x]) = b ∨ turn a b xs = b ∧ turn a b (xs ++ [x]) = a := by
  induction xs generalizing a b with
  | nil => exact .inl ⟨rfl, rfl⟩
  | cons y xs ih => exact (ih b a).symm

theorem turn_concat_first {a b : α} (differ : a ≠ b) {xs : List α} (here : turn a b xs = a) (x : α) :
    turn a b (xs ++ [x]) = b := by
  rcases turn_concat a b xs x with ⟨_, next⟩ | ⟨other, _⟩
  · exact next
  · exact absurd (here.symm.trans other) differ

theorem turn_concat_second {a b : α} (differ : a ≠ b) {xs : List α} (here : turn a b xs = b) (x : α) :
    turn a b (xs ++ [x]) = a := by
  rcases turn_concat a b xs x with ⟨other, _⟩ | ⟨_, next⟩
  · exact absurd (other.symm.trans here) differ
  · exact next

/-- It is the turn of `b` exactly if `a` was last. -/
theorem Alternates.getLast?_eq_iff {a b : α} (differ : a ≠ b) {xs : List α}
    (alternates : Alternates a b xs) : xs.getLast? = some a ↔ turn a b xs = b := by
  rcases List.eq_nil_or_concat xs with rfl | ⟨before, last, rfl⟩
  · exact iff_of_false nofun differ
  · rw [List.concat_eq_append] at alternates ⊢
    have its_turn := ((alternates_concat a b before last).mp alternates).2
    rw [List.getLast?_concat, Option.some.injEq]
    rcases turn_concat a b before last with ⟨here, next⟩ | ⟨here, next⟩
    · exact iff_of_true (its_turn.trans here) next
    · rw [next]
      exact iff_of_false (fun same => differ (same.symm.trans (its_turn.trans here))) differ

end List
