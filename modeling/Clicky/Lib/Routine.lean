import Mathlib.Order.Defs.Unbundled
import Clicky.Lib.Outcome

/-! Routines with a state of their own. They may panic, and raise no exceptions. What holds between the
states before and after each part of a routine holds for the whole, if it is a preorder. -/
def Routine (σ α : Type) := σ → Outcome Empty σ α

namespace Routine

variable {σ τ α β : Type}

instance : Monad (Routine σ) where
  pure a := fun s => .ok s a
  bind part next := fun s => (part s).bind fun s a => next a s

/-- A look at the state, which stays as it is. -/
def look (f : σ → α) : Routine σ α := fun s => .ok s (f s)

def modify (f : σ → σ) : Routine σ Unit := fun s => .ok (f s) ()

/-- A routine on a part of the state. -/
def focus (part : τ → σ) (put : τ → σ → τ) (inner : Routine σ α) : Routine τ α := fun t =>
  (inner (part t)).zoom (put t)

@[simp] theorem pure_run (a : α) (s : σ) : (pure a : Routine σ α) s = .ok s a := rfl

@[simp] theorem bind_run (part : Routine σ α) (next : α → Routine σ β) (s : σ) :
    (part >>= next) s = (part s).bind fun s a => next a s := rfl

@[simp] theorem look_run (f : σ → α) (s : σ) : look f s = .ok s (f s) := rfl

theorem look_bind_run (f : σ → α) (next : α → Routine σ β) (s : σ) :
    (look f >>= next) s = next (f s) s := rfl

@[simp] theorem modify_run (f : σ → σ) (s : σ) : modify f s = .ok (f s) () := rfl

theorem bind_eq_ok {part : Routine σ α} {next : α → Routine σ β} {s s' : σ} {b : β} :
    (part >>= next) s = .ok s' b ↔ ∃ mid a, part s = .ok mid a ∧ next a mid = .ok s' b :=
  Outcome.bind_eq_ok

/-- The state after the routine, if there is one, is in the relation to the state before it. -/
def Respects (R : σ → σ → Prop) (r : Routine σ α) : Prop := ∀ s, (r s).Leaves (R s)

section Respects

variable {R : σ → σ → Prop}

theorem Respects.of_ok {r : Routine σ α} (respects : r.Respects R) {s s' : σ} {a : α}
    (ran : r s = .ok s' a) : R s s' := respects s s' (by simp [ran])

theorem leaves_of_ok {r : Routine σ α} {s : σ} {P : σ → Prop} (each : ∀ s' a, r s = .ok s' a → P s') :
    (r s).Leaves P := by
  rcases ran : r s with ⟨s', never | a⟩ | m
  · exact never.elim
  · simpa using each s' a ran
  · simp

theorem respects_of_ok {r : Routine σ α} (each : ∀ s s' a, r s = .ok s' a → R s s') :
    r.Respects R := fun s => leaves_of_ok (each s)

theorem Respects.mono {R' : σ → σ → Prop} {r : Routine σ α} (respects : r.Respects R)
    (weaker : ∀ s s', R s s' → R' s s') : r.Respects R' := fun s => (respects s).mono (weaker s)

theorem Respects.and {R' : σ → σ → Prop} {r : Routine σ α} (here : r.Respects R)
    (there : r.Respects R') : r.Respects fun s s' => R s s' ∧ R' s s' := fun s s' after =>
  ⟨here s s' after, there s s' after⟩

theorem respects_modify {f : σ → σ} (each : ∀ s, R s (f s)) : (modify f).Respects R := by
  intro s
  simpa using each s

theorem Respects.ite {c : Prop} [Decidable c] {yes no : Routine σ α} (here : c → yes.Respects R)
    (there : ¬ c → no.Respects R) : (if c then yes else no : Routine σ α).Respects R := by
  split
  · exact here ‹_›
  · exact there ‹_›

theorem Respects.focus {Q : τ → τ → Prop} {part : τ → σ} {put : τ → σ → τ} {inner : Routine σ α}
    (respects : inner.Respects R) (whole : ∀ t s, R (part t) s → Q t (put t s)) :
    (inner.focus part put).Respects Q := by
  intro t
  simpa [Routine.focus] using (respects (part t)).mono (whole t)

/-- One part after the other, with a relation for each and one for the whole. -/
theorem Respects.comp {Q T : σ → σ → Prop} {part : Routine σ α} {next : α → Routine σ β}
    (first : part.Respects R) (second : ∀ a, (next a).Respects Q)
    (both : ∀ s mid s', R s mid → Q mid s' → T s s') : (part >>= next).Respects T := by
  intro s
  refine (first s).andThen fun mid a here => ?_
  exact (second a mid).mono fun s' there => both s mid s' here there

variable [IsPreorder σ R]

theorem Respects.pure (a : α) : (pure a : Routine σ α).Respects R := by
  intro s
  simpa using Std.Refl.refl s

theorem respects_look (f : σ → α) : (look f).Respects R := by
  intro s
  simpa using Std.Refl.refl s

theorem Respects.bind {part : Routine σ α} {next : α → Routine σ β} (first : part.Respects R)
    (second : ∀ a, (next a).Respects R) : (part >>= next).Respects R :=
  first.comp second IsTrans.trans

end Respects

/-- What an invariant says of two states, one after the other. -/
def Keeping (I : σ → Prop) (s s' : σ) : Prop := I s → I s'

instance (I : σ → Prop) : IsPreorder σ (Keeping I) where
  refl _ := id
  trans _ _ _ first second inside := second (first inside)

/-- From a state with `P` the routine comes to one with `Q`, if it comes to an end. -/
def Leads (P Q : σ → Prop) (r : Routine σ α) : Prop := ∀ s, P s → (r s).Leaves Q

section Leads

variable {P Q I : σ → Prop} {r : Routine σ α}

theorem Respects.leads (respects : r.Respects (Keeping I)) : r.Leads I I :=
  fun s inside => (respects s).mono fun _ kept => kept inside

theorem Leads.respects (leads : r.Leads I I) : r.Respects (Keeping I) := fun s s' after inside =>
  leads s inside s' after

theorem Leads.bind {next : α → Routine σ β} {M : σ → Prop} (first : r.Leads P M)
    (second : ∀ a, (next a).Leads M Q) : (r >>= next).Leads P Q := by
  intro s before
  exact (first s before).andThen fun mid a here => second a mid here

theorem Leads.pure (weaker : ∀ s, P s → Q s) (a : α) : (pure a : Routine σ α).Leads P Q := by
  intro s before
  simpa using weaker s before

theorem leads_modify {f : σ → σ} (each : ∀ s, P s → Q (f s)) : (modify f).Leads P Q := by
  intro s before
  simpa using each s before

theorem Leads.ite {c : Prop} [Decidable c] {yes no : Routine σ α} (here : c → yes.Leads P Q)
    (there : ¬ c → no.Leads P Q) : (if c then yes else no : Routine σ α).Leads P Q := by
  split
  · exact here ‹_›
  · exact there ‹_›

end Leads
end Routine
