import Mathlib.Init

/-! Computations that give a value, find nothing, or fail. What follows on nothing is nothing, and
a failure ends everything. -/

abbrev Attempt (ε α : Type) := OptionT (Except ε) α

namespace Attempt

variable {ε α β : Type}

def fail (e : ε) : Attempt ε α := OptionT.mk (.error e)

/-- Whether there is something to be found, with what it is. -/
def found (x : Attempt ε α) : Attempt ε (Option α) := OptionT.mk (some <$> x.run)

def orDefault (x : Attempt ε α) (a : α) : Attempt ε α := (·.getD a) <$> x.found

def toOption (x : Attempt ε α) : Option α := x.run.toOption.join

def Gives (x : Attempt ε α) (a : α) : Prop := x.run = .ok (some a)

theorem gives_pure (a b : α) : Gives (pure a : Attempt ε α) b ↔ a = b := by
  constructor
  · intro gives
    cases gives
    rfl
  · rintro rfl
    rfl

theorem not_gives_failure (b : β) : ¬ Gives (failure : Attempt ε β) b := by
  intro gives
  cases gives

theorem Gives.eq {x : Attempt ε α} {a b : α} (gives : x.Gives a) (again : x.Gives b) : a = b := by
  simpa [Gives] using gives.symm.trans again

theorem Gives.toOption {x : Attempt ε α} {a : α} (gives : x.Gives a) : x.toOption = some a := by
  unfold Attempt.toOption
  rw [gives]
  rfl

theorem Gives.run_bind {x : Attempt ε α} {a : α} (gives : x.Gives a) (f : α → Attempt ε β) :
    (x >>= f).run = (f a).run := by
  rw [OptionT.run_bind, gives]
  rfl

theorem run_bind_none {x : Attempt ε α} (nothing : x.run = .ok none) (f : α → Attempt ε β) :
    (x >>= f).run = .ok none := by
  rw [OptionT.run_bind, nothing]
  rfl

/-- The rule of sequencing: both computations give something. -/
theorem gives_bind (x : Attempt ε α) (f : α → Attempt ε β) (b : β) :
    (x >>= f).Gives b ↔ ∃ a, x.Gives a ∧ (f a).Gives b := by
  unfold Gives
  rw [OptionT.run_bind]
  cases x.run with
  | error e => exact iff_of_false nofun nofun
  | ok found =>
    cases found with
    | none => exact iff_of_false nofun nofun
    | some a =>
      constructor
      · exact fun rest => ⟨a, rfl, rest⟩
      · rintro ⟨_, same, rest⟩
        cases same
        exact rest

theorem gives_orDefault (x : Attempt ε α) (a b : α) :
    (x.orDefault a).Gives b ↔ ∃ found, x.run = .ok found ∧ found.getD a = b := by
  unfold Gives orDefault found
  cases x.run with
  | error e => exact iff_of_false nofun nofun
  | ok found => exact ⟨fun same => ⟨found, rfl, by cases same; rfl⟩, by rintro ⟨_, ⟨⟩, rfl⟩; rfl⟩

/-- After a check, the rest gives something exactly if the check succeeds. -/
theorem gives_guard_bind (p : Prop) [Decidable p] (f : Unit → Attempt ε β) (b : β) :
    ((guard p : Attempt ε Unit) >>= f).Gives b ↔ p ∧ (f ()).Gives b := by
  rw [gives_bind]
  by_cases holds : p
  · have passes : (guard p : Attempt ε Unit) = pure () := if_pos holds
    rw [passes]
    constructor
    · rintro ⟨_, _, rest⟩
      exact ⟨holds, rest⟩
    · rintro ⟨_, rest⟩
      exact ⟨(), (gives_pure () ()).mpr rfl, rest⟩
  · have stops : (guard p : Attempt ε Unit) = failure := if_neg holds
    rw [stops]
    constructor
    · rintro ⟨_, gives, _⟩
      exact absurd gives (not_gives_failure _)
    · exact fun both => absurd both.1 holds

end Attempt

theorem Except.ok_bind {ε α β : Type} (a : α) (f : α → Except ε β) :
    ((.ok a : Except ε α) >>= f) = f a := rfl

/-- Where no call fails, the results are those of the calls. -/
theorem List.mapM_ok {ε α β : Type} {f : α → Except ε β} {g : α → β} {as : List α}
    (all : ∀ a ∈ as, f a = .ok (g a)) : as.mapM f = .ok (as.map g) := by
  induction as with
  | nil => rfl
  | cons a as ih =>
    have rest := ih fun b member => all b (mem_cons_of_mem a member)
    rw [mapM_cons, all a mem_cons_self, rest]
    rfl

/-- Where no call fails, there are results if each call has one. -/
theorem Attempt.run_mapM {ε α β : Type} {f : α → Attempt ε β} {g : α → Option β} {as : List α}
    (all : ∀ a ∈ as, (f a).run = .ok (g a)) : (as.mapM f).run = .ok (as.mapM g) := by
  induction as with
  | nil => rfl
  | cons a as ih =>
    have rest := ih fun b member => all b (List.mem_cons_of_mem a member)
    have here := all a List.mem_cons_self
    rw [List.mapM_cons, List.mapM_cons]
    cases first : g a with
    | none =>
      rw [first] at here
      exact run_bind_none here _
    | some b =>
      rw [first] at here
      rw [Gives.run_bind here]
      cases later : as.mapM g with
      | none =>
        rw [later] at rest
        exact run_bind_none rest _
      | some bs =>
        rw [later] at rest
        exact Gives.run_bind rest _

theorem Attempt.gives_mapM {ε α β : Type} {f : α → Attempt ε β} {g : α → β} {as : List α}
    (all : ∀ a ∈ as, (f a).Gives (g a)) : (as.mapM f).Gives (as.map g) := by
  have results : as.mapM (fun a => some (g a)) = some (as.map g) := List.mapM_pure
  rw [Gives, run_mapM all, results]

/-- All or nothing. -/
theorem List.mapM_ite {α β : Type} (p : α → Prop) [DecidablePred p] (f : α → β) (as : List α) :
    (as.mapM fun a => if p a then some (f a) else none) =
      if ∀ a ∈ as, p a then some (as.map f) else none := by
  induction as with
  | nil => rfl
  | cons a as ih =>
    rw [mapM_cons, ih]
    by_cases here : p a
    · rw [if_pos here]
      by_cases rest : ∀ b ∈ as, p b
      · rw [if_pos rest, if_pos (forall_mem_cons.mpr ⟨here, rest⟩)]
        rfl
      · rw [if_neg rest, if_neg fun all => rest (forall_mem_cons.mp all).2]
        rfl
    · rw [if_neg here, if_neg fun all => here (forall_mem_cons.mp all).1]
      rfl
