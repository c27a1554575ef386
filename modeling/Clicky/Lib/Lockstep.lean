import Clicky.Lib.Outcome
import Clicky.Lib.Runs

/-! Two systems that are asked the same things, one after the other, and what their callers see. -/

/-- What the caller sees of a call: a value, that there was an exception, or a panic. -/
inductive Reply (α : Type) where
  | value (a : α)
  | refused
  | panicked
  deriving DecidableEq, Repr

namespace Outcome

variable {ε η S T E A : Type}

def reply : Outcome ε S A → Reply A
  | .ok _ a => .value a
  | .raise _ _ => .refused
  | .panic _ => .panicked

theorem reply_eq_panicked_iff (o : Outcome ε S A) : o.reply = .panicked ↔ o.state? = none := by
  rcases o with ⟨s, e | a⟩ | m <;> simp [reply, state?]

/-- All replies of a system. After a panic there are none. -/
def replies (call : S → E → Outcome ε S A) : S → List E → List (Reply A)
  | _, [] => []
  | s, e :: es => (call s e).reply :: (call s e).state?.elim [] fun s' => replies call s' es

variable {call : S → E → Outcome ε S A} {call' : T → E → Outcome η T A}

/-- Systems in related states reply the same to a sequence exactly as long as they do so to each
call, if they stay related where they reply the same. -/
theorem replies_eq_iff {R : S → T → Prop} {Q : T → E → Prop}
    (same_iff : ∀ s t e, R s t → ((call s e).reply = (call' t e).reply ↔ Q t e))
    (keeps : ∀ s t e s' t', R s t → Q t e → (call s e).state? = some s' →
      (call' t e).state? = some t' → R s' t')
    {s : S} {t : T} (es : List E) (related : R s t) :
    replies call s es = replies call' t es ↔
      Runs.BeforeEach (fun t e => (call' t e).state?) Q t es := by
  induction es generalizing s t with
  | nil => exact iff_of_true rfl trivial
  | cons e es ih =>
    rw [replies, replies, List.cons.injEq, same_iff s t e related, Runs.BeforeEach]
    apply and_congr_right
    intro here
    have replied := (same_iff s t e related).mpr here
    cases first : (call s e).state? with
    | none =>
      have panics := (reply_eq_panicked_iff _).mpr first
      rw [(reply_eq_panicked_iff _).mp (replied.symm.trans panics)]
      refine iff_of_true rfl fun _ found => ?_
      cases found
    | some s' =>
      cases second : (call' t e).state? with
      | none =>
        have panics := (reply_eq_panicked_iff _).mpr second
        rw [(reply_eq_panicked_iff _).mp (replied.trans panics)] at first
        cases first
      | some t' =>
        rw [Option.elim, Option.elim, ih (keeps s t e s' t' related here first second)]
        constructor
        · rintro later _ ⟨⟩
          exact later
        · exact fun later => later t' rfl

end Outcome
