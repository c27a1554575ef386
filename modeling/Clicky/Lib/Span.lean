import Mathlib.Data.List.Basic
import Mathlib.Data.List.TakeWhile

/-! The maximal runs of elements with a property, and where they are in a list. -/
namespace List

variable {α : Type} {p : α → Bool}

/-- A run at position `start` that goes on neither to the left nor to the right. -/
structure IsSpan (p : α → Bool) (l : List α) (start : Nat) (run : List α) : Prop where
  nonempty : run ≠ []
  all : ∀ a ∈ run, p a = true
  place : ∃ before after, l = before ++ run ++ after ∧ before.length = start ∧
    (∀ a ∈ before.getLast?, p a = false) ∧ ∀ a ∈ after.head?, p a = false

theorem IsSpan.lt_length {l run : List α} {start : Nat} (span : IsSpan p l start run) :
    start < l.length := by
  obtain ⟨before, after, rfl, rfl, _⟩ := span.place
  have some_run := length_pos_iff.mpr span.nonempty
  rw [length_append, length_append]
  omega

/-- All of them, where the list starts at position `i`. -/
def spansFrom (p : α → Bool) (i : Nat) : List α → List (Nat × List α)
  | [] => []
  | a :: l =>
    if p a then
      (i, a :: l.takeWhile p) :: spansFrom p (i + (l.takeWhile p).length + 1) (l.dropWhile p)
    else spansFrom p (i + 1) l
termination_by l => l.length
decreasing_by
  · exact Nat.lt_succ_of_le (dropWhile_suffix p).length_le
  · exact Nat.lt_succ_self _

@[simp] theorem spansFrom_nil (i : Nat) : spansFrom p i [] = [] := by rw [spansFrom]

theorem spansFrom_cons_pos {a : α} (here : p a = true) (i : Nat) (l : List α) :
    spansFrom p i (a :: l) = (i, (a :: l).takeWhile p) ::
      spansFrom p (i + ((a :: l).takeWhile p).length) ((a :: l).dropWhile p) := by
  rw [spansFrom, if_pos here, takeWhile_cons_of_pos here, dropWhile_cons_of_pos here, length_cons,
    Nat.add_assoc]

theorem spansFrom_cons_neg {a : α} (other : ¬ p a = true) (i : Nat) (l : List α) :
    spansFrom p i (a :: l) = spansFrom p (i + 1) l := by rw [spansFrom, if_neg other]

/-- A run takes all it can. -/
theorem IsSpan.takeWhile_eq {run after : List α} (all : ∀ a ∈ run, p a = true)
    (ends : ∀ a ∈ after.head?, p a = false) : (run ++ after).takeWhile p = run := by
  rw [takeWhile_append_of_pos all]
  cases after with
  | nil => simp
  | cons a after => simp [ends a rfl]

theorem IsSpan.dropWhile_eq {run after : List α} (all : ∀ a ∈ run, p a = true)
    (ends : ∀ a ∈ after.head?, p a = false) : (run ++ after).dropWhile p = after := by
  rw [dropWhile_append_of_pos all]
  cases after with
  | nil => rfl
  | cons a after => simp [ends a rfl]

/-- What is in front still ends outside of a run. -/
theorem getLast?_cons_neg {a : α} (other : p a = false) (before : List α) :
    (∀ b ∈ (a :: before).getLast?, p b = false) ↔ ∀ b ∈ before.getLast?, p b = false := by
  cases before with
  | nil =>
    refine iff_of_true ?_ nofun
    rintro b ⟨⟩
    exact other
  | cons b before => rw [getLast?_cons_cons]

theorem isSpan_cons_neg {a : α} (other : p a = false) {l run : List α} {start : Nat} :
    IsSpan p (a :: l) start run ↔ ∃ j, start = j + 1 ∧ IsSpan p l j run := by
  constructor
  · rintro ⟨nonempty, all, before, after, parts, rfl, left, right⟩
    cases before with
    | nil =>
      cases run with
      | nil => exact absurd rfl nonempty
      | cons b run =>
        cases parts
        rw [all a mem_cons_self] at other
        cases other
    | cons b before =>
      rw [cons_append, cons_append, cons.injEq] at parts
      obtain ⟨rfl, parts⟩ := parts
      rw [getLast?_cons_neg other] at left
      exact ⟨before.length, rfl, nonempty, all, before, after, parts, rfl, left, right⟩
  · rintro ⟨j, rfl, nonempty, all, before, after, rfl, rfl, left, right⟩
    rw [← getLast?_cons_neg other] at left
    exact ⟨nonempty, all, a :: before, after, rfl, rfl, left, right⟩

/-- A run behind another one, and behind what ends that, is a run of the rest. -/
theorem IsSpan.of_append {first rest run : List α} (all_first : ∀ a ∈ first, p a = true)
    (ends : ∀ a ∈ rest.head?, p a = false) {start : Nat} (span : IsSpan p (first ++ rest) start run) :
    start = 0 ∧ run = first ∨ ∃ j, start = first.length + j ∧ IsSpan p rest j run := by
  obtain ⟨nonempty, all, before, after, parts, rfl, left, right⟩ := span
  rcases eq_nil_or_concat before with rfl | ⟨before, last, rfl⟩
  · left
    refine ⟨rfl, ?_⟩
    rw [← IsSpan.takeWhile_eq all right, ← IsSpan.takeWhile_eq all_first ends, parts, nil_append]
  · right
    rw [concat_eq_append] at *
    have outside : p last = false := left last (by simp)
    -- What is in front ends outside of the first run, so all of that run is in front.
    rw [append_assoc, append_eq_append_iff] at parts
    rcases parts with ⟨between, split, later⟩ | ⟨between, split, _⟩
    · refine ⟨between.length, by rw [split, length_append], nonempty, all, between, after, ?_, rfl,
        fun a final => ?_, right⟩
      · rw [later, append_assoc]
      · cases between with
        | nil => cases final
        | cons b between =>
          rw [← getLast?_append_of_ne_nil first (cons_ne_nil b between), ← split] at final
          exact left a final
    · have member : last ∈ first := by
        rw [split]
        simp
      rw [all_first last member] at outside
      cases outside

theorem IsSpan.append_left {rest run : List α} {j : Nat} (span : IsSpan p rest j run)
    (ends : ∀ a ∈ rest.head?, p a = false) (first : List α) :
    IsSpan p (first ++ rest) (first.length + j) run := by
  obtain ⟨nonempty, all, before, after, rfl, rfl, left, right⟩ := span
  refine ⟨nonempty, all, first ++ before, after, by simp, by simp, fun a final => ?_, right⟩
  cases before with
  | nil =>
    cases run with
    | nil => exact absurd rfl nonempty
    | cons b run =>
      have outside := ends b rfl
      rw [all b mem_cons_self] at outside
      cases outside
  | cons b before =>
    rw [getLast?_append_of_ne_nil first (cons_ne_nil b before)] at final
    exact left a final

theorem isSpan_append {first rest run : List α} (all_first : ∀ a ∈ first, p a = true)
    (nonempty_first : first ≠ []) (ends : ∀ a ∈ rest.head?, p a = false) {start : Nat} :
    IsSpan p (first ++ rest) start run ↔
      start = 0 ∧ run = first ∨ ∃ j, start = first.length + j ∧ IsSpan p rest j run := by
  constructor
  · exact IsSpan.of_append all_first ends
  · rintro (⟨rfl, rfl⟩ | ⟨j, rfl, span⟩)
    · exact ⟨nonempty_first, all_first, [], rest, by simp, rfl, nofun, ends⟩
    · exact span.append_left ends first

theorem not_isSpan_nil {start : Nat} {run : List α} : ¬ IsSpan p [] start run := by
  rintro ⟨nonempty, _, before, after, parts, _⟩
  rw [eq_comm, append_eq_nil_iff, append_eq_nil_iff] at parts
  exact nonempty parts.1.2

/-- Exactly the maximal runs are found. -/
theorem mem_spansFrom {i k : Nat} {l run : List α} :
    (k, run) ∈ spansFrom p i l ↔ ∃ j, k = i + j ∧ IsSpan p l j run := by
  induction i, l using spansFrom.induct p with
  | case1 i =>
    rw [spansFrom_nil]
    exact iff_of_false not_mem_nil fun ⟨_, _, span⟩ => not_isSpan_nil span
  | case2 i a l here ih =>
    have parts : a :: l = (a :: l.takeWhile p) ++ l.dropWhile p := by
      rw [cons_append, takeWhile_append_dropWhile]
    have all : ∀ b ∈ a :: l.takeWhile p, p b = true := by
      rintro b (_ | ⟨_, member⟩)
      · exact here
      · exact mem_takeWhile_imp member
    have ends : ∀ b ∈ (l.dropWhile p).head?, p b = false := fun b first => by
      have outside := head?_dropWhile_not p l
      rw [Option.mem_def.mp first] at outside
      exact outside
    have one (j : Nat) : IsSpan p (a :: l) j run ↔ j = 0 ∧ run = a :: l.takeWhile p ∨
        ∃ k, j = (l.takeWhile p).length + 1 + k ∧ IsSpan p (l.dropWhile p) k run := by
      rw [parts]
      exact isSpan_append all (cons_ne_nil a _) ends
    rw [spansFrom, if_pos here, mem_cons, ih, Prod.mk.injEq]
    constructor
    · rintro (⟨rfl, rfl⟩ | ⟨j, rfl, span⟩)
      · exact ⟨0, rfl, (one 0).mpr (.inl ⟨rfl, rfl⟩)⟩
      · exact ⟨_, by omega, (one _).mpr (.inr ⟨j, rfl, span⟩)⟩
    · rintro ⟨j, rfl, span⟩
      rcases (one j).mp span with ⟨rfl, rfl⟩ | ⟨k, rfl, later⟩
      · exact .inl ⟨rfl, rfl⟩
      · exact .inr ⟨k, by omega, later⟩
  | case3 i a l other ih =>
    have other : p a = false := by simpa using other
    rw [spansFrom_cons_neg (by simp [other]), ih]
    constructor
    · rintro ⟨j, rfl, span⟩
      exact ⟨j + 1, by omega, (isSpan_cons_neg other).mpr ⟨j, rfl, span⟩⟩
    · rintro ⟨_, rfl, span⟩
      obtain ⟨j, rfl, later⟩ := (isSpan_cons_neg other).mp span
      exact ⟨j, by omega, later⟩

/-- They are found from left to right. -/
theorem pairwise_spansFrom (i : Nat) (l : List α) :
    (spansFrom p i l).Pairwise fun first second => first.1 < second.1 := by
  induction i, l using spansFrom.induct p with
  | case1 i =>
    rw [spansFrom_nil]
    exact Pairwise.nil
  | case2 i a l here ih =>
    rw [spansFrom, if_pos here]
    refine Pairwise.cons (fun ⟨k, run⟩ member => ?_) ih
    obtain ⟨j, rfl, _⟩ := mem_spansFrom.mp member
    exact Nat.lt_of_lt_of_le (by omega) (Nat.le_add_right _ j)
  | case3 i a l other ih =>
    rw [spansFrom_cons_neg other]
    exact ih

end List
