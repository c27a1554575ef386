import Mathlib.Data.List.SplitBy
import Mathlib.Data.List.Forall2

/-! The maximal runs of neighbours with the same key in a list, and how they grow at its end. -/
namespace List

variable {α β κ : Type} [DecidableEq κ] {key : α → κ}

def runsOf (key : α → κ) (l : List α) : List (List α) := l.splitBy fun a b => key a == key b

@[simp] theorem runsOf_nil : ([] : List α).runsOf key = [] := rfl

@[simp] theorem flatten_runsOf (key : α → κ) (l : List α) : (l.runsOf key).flatten = l :=
  flatten_splitBy _ l

theorem ne_nil_of_mem_runsOf {l run : List α} (member : run ∈ l.runsOf key) : run ≠ [] :=
  ne_nil_of_mem_splitBy member

theorem key_eq_of_mem_runsOf {l run : List α} (member : run ∈ l.runsOf key) {a b : α}
    (left : a ∈ run) (right : b ∈ run) : key a = key b := by
  have chain : run.IsChain fun a b => key a = key b :=
    (isChain_of_mem_splitBy member).imp fun _ _ same => beq_iff_eq.mp same
  have pairs : run.Pairwise fun a b => key a = key b := chain.pairwise
  have back : run.Pairwise fun a b => key b = key a := pairs.imp fun same => same.symm
  have all : ∀ ⦃x⦄, x ∈ run → ∀ ⦃y⦄, y ∈ run → (fun x y => key x = key y) x y :=
    Pairwise.forall_of_forall_of_flip (fun _ _ => rfl) pairs back
  exact all left right

theorem mem_last_of_getLast? {l run : List α} {runs : List (List α)} {x : α}
    (parts : l.runsOf key = runs ++ [run]) (ending : l.getLast? = some x) : x ∈ run := by
  have nonempty : run ≠ [] := ne_nil_of_mem_runsOf (parts ▸ mem_concat_self)
  rw [← flatten_runsOf key l, parts, flatten_concat, getLast?_append_of_ne_nil _ nonempty] at ending
  exact mem_of_getLast? ending

theorem runsOf_concat_new {l : List α} {a : α} (other : ∀ x, l.getLast? = some x → key x ≠ key a) :
    (l ++ [a]).runsOf key = l.runsOf key ++ [[a]] := by
  refine splitBy_append fun x last y first => ?_
  cases Option.mem_some_iff.mp (head?_cons (a := a) (l := []) ▸ first)
  exact beq_eq_false_iff_ne.mpr (other x last)

theorem runsOf_concat_same {l run : List α} {runs : List (List α)} {a : α}
    (before : l.runsOf key = runs ++ [run]) (same : ∀ x ∈ run, key x = key a) :
    (l ++ [a]).runsOf key = runs ++ [run ++ [a]] := by
  have member : run ∈ l.runsOf key := before ▸ mem_append_right _ mem_cons_self
  obtain ⟨whole, nonempty, chains, breaks⟩ := splitBy_eq_iff.mp before
  have last : run ≠ [] := ne_nil_of_mem_runsOf member
  refine splitBy_eq_iff.mpr ⟨?_, ?_, ?_, ?_⟩
  · rw [whole]
    simp
  · intro empty
    rcases mem_append.mp empty with old | new
    · exact nonempty (mem_append_left _ old)
    · simp at new
  · intro run' member'
    rcases mem_append.mp member' with old | new
    · exact chains run' (mem_append_left _ old)
    · rw [mem_singleton.mp new]
      refine (chains run (mem_append_right _ mem_cons_self)).append (isChain_singleton a) ?_
      intro x here y there
      cases Option.mem_some_iff.mp (head?_cons (a := a) (l := []) ▸ there)
      exact beq_iff_eq.mpr (same x (mem_of_mem_getLast? here))
  · rw [isChain_append] at breaks ⊢
    obtain ⟨inner, _, joint⟩ := breaks
    refine ⟨inner, isChain_singleton _, fun x here y there => ?_⟩
    cases Option.mem_some_iff.mp (head?_cons (a := run ++ [a]) (l := []) ▸ there)
    obtain ⟨left, right, apart⟩ := joint x here run rfl
    exact ⟨left, by simp, by rwa [head_append_of_ne_nil right]⟩

theorem length_flatMap_le {l : List α} {f g : α → List β}
    (shorter : ∀ x ∈ l, (f x).length ≤ (g x).length) :
    (l.flatMap f).length ≤ (l.flatMap g).length := by
  induction l with
  | nil => exact Nat.le_refl _
  | cons a l ih =>
    rw [flatMap_cons, flatMap_cons, length_append, length_append]
    exact Nat.add_le_add (shorter a mem_cons_self) (ih fun x member => shorter x (.tail a member))

/-- Where the blocks on the left are never longer, the wholes are the same only if all blocks
are. -/
theorem flatMap_eq_iff {l : List α} {f g : α → List β} (shorter : ∀ x ∈ l, (f x).length ≤ (g x).length) :
    l.flatMap f = l.flatMap g ↔ ∀ x ∈ l, f x = g x := by
  constructor
  · intro same
    induction l with
    | nil => exact fun x member => absurd member not_mem_nil
    | cons a l ih =>
      have rest : (l.flatMap f).length ≤ (l.flatMap g).length :=
        length_flatMap_le fun x member => shorter x (.tail a member)
      have first := shorter a mem_cons_self
      have total := congrArg length same
      simp only [flatMap_cons, length_append] at total
      obtain ⟨here, later⟩ := append_inj same (by omega)
      intro x member
      rcases mem_cons.mp member with rfl | other
      · exact here
      · exact ih (fun y inside => shorter y (.tail a inside)) later x other
  · exact fun blocks => flatMap_congr blocks

theorem forall₂_concat {R : α → β → Prop} {l : List α} {m : List β} {a : α} {b : β} :
    Forall₂ R (l ++ [a]) (m ++ [b]) ↔ Forall₂ R l m ∧ R a b := by
  rw [← forall₂_reverse_iff, reverse_concat, reverse_concat, forall₂_cons, forall₂_reverse_iff,
    and_comm]

end List
