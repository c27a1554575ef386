import Mathlib.Init

/-! Calls on a state that may fail in two ways. A raised exception is a value the
caller sees, together with the state the callee left; a panic ends everything. -/

/-- What a call on a state of type `σ` comes to. -/
inductive Outcome (ε σ α : Type) where
  | done (state : σ) (result : Except ε α)
  | panic (message : String)

namespace Outcome

variable {ε η σ τ α β : Type}

@[match_pattern] abbrev ok (s : σ) (a : α) : Outcome ε σ α := .done s (.ok a)
@[match_pattern] abbrev raise (s : σ) (e : ε) : Outcome ε σ α := .done s (.error e)

def bind (o : Outcome ε σ α) (next : σ → α → Outcome ε σ β) : Outcome ε σ β :=
  match o with
  | .ok s a => next s a
  | .raise s e => .raise s e
  | .panic m => .panic m

def map (f : α → β) (o : Outcome ε σ α) : Outcome ε σ β := o.bind fun s a => .ok s (f a)

/-- A call on a part, seen as a call on the whole the part is put back into. -/
def zoom (put : σ → τ) : Outcome ε σ α → Outcome ε τ α
  | .done s r => .done (put s) r
  | .panic m => .panic m

def state? : Outcome ε σ α → Option σ
  | .done s _ => some s
  | .panic _ => none

/-- A caller that panics where the call raises an exception. -/
def orPanic (message : String) : Outcome ε σ α → Outcome η σ α
  | .ok s a => .ok s a
  | .raise _ _ => .panic message
  | .panic m => .panic m

/-- A caller that only asks whether the call succeeds. -/
def succeeds : Outcome ε σ α → Outcome η σ Bool
  | .ok s _ => .ok s true
  | .raise s _ => .ok s false
  | .panic m => .panic m

/-- The call does not panic, and what it leaves and returns satisfies `Q`. -/
def Ensures (o : Outcome ε σ α) (Q : σ → Except ε α → Prop) : Prop :=
  match o with
  | .done s r => Q s r
  | .panic _ => False

@[simp] theorem ensures_done (s : σ) (r : Except ε α) (Q : σ → Except ε α → Prop) :
    (Outcome.done s r).Ensures Q ↔ Q s r := Iff.rfl

@[simp] theorem ensures_panic (m : String) (Q : σ → Except ε α → Prop) :
    ¬ (Outcome.panic m : Outcome ε σ α).Ensures Q := id

theorem Ensures.mono {o : Outcome ε σ α} {Q R : σ → Except ε α → Prop} (h : o.Ensures Q)
    (weaker : ∀ s r, Q s r → R s r) : o.Ensures R := by
  cases o with
  | done s r => exact weaker s r h
  | panic m => exact h.elim

/-- The rule of sequencing: the second call starts where the first one returned,
and an exception of the first is the exception of both. -/
theorem ensures_bind {o : Outcome ε σ α} {next : σ → α → Outcome ε σ β}
    {Q : σ → Except ε β → Prop} :
    (o.bind next).Ensures Q ↔ o.Ensures fun s r =>
      match r with
      | .ok a => (next s a).Ensures Q
      | .error e => Q s (.error e) := by
  cases o with
  | done s r => cases r <;> exact Iff.rfl
  | panic m => exact Iff.rfl

@[simp] theorem ensures_zoom {put : σ → τ} {o : Outcome ε σ α} {Q : τ → Except ε α → Prop} :
    (o.zoom put).Ensures Q ↔ o.Ensures fun s r => Q (put s) r := by
  cases o <;> exact Iff.rfl

@[simp] theorem ensures_map {f : α → β} {o : Outcome ε σ α} {Q : σ → Except ε β → Prop} :
    (o.map f).Ensures Q ↔ o.Ensures fun s r => Q s (r.map f) := by
  cases o with
  | done s r => cases r <;> exact Iff.rfl
  | panic m => exact Iff.rfl

theorem Ensures.exists_done {o : Outcome ε σ α} {Q : σ → Except ε α → Prop} (h : o.Ensures Q) :
    ∃ s r, o = .done s r ∧ Q s r := by
  cases o with
  | done s r => exact ⟨s, r, rfl, h⟩
  | panic m => exact h.elim

@[simp] theorem bind_ok (s : σ) (a : α) (next : σ → α → Outcome ε σ β) :
    (ok s a).bind next = next s a := rfl

@[simp] theorem bind_raise (s : σ) (e : ε) (next : σ → α → Outcome ε σ β) :
    (raise s e).bind next = raise s e := rfl

@[simp] theorem map_ok (f : α → β) (s : σ) (a : α) :
    (ok s a : Outcome ε σ α).map f = ok s (f a) := rfl

@[simp] theorem map_done (f : α → β) (s : σ) (r : Except ε α) :
    (Outcome.done s r).map f = .done s (r.map f) := by
  cases r <;> rfl

@[simp] theorem zoom_done (put : σ → τ) (s : σ) (r : Except ε α) :
    (Outcome.done s r).zoom put = .done (put s) r := rfl

theorem bind_map (o : Outcome ε σ α) (f : α → β) {γ : Type} (next : σ → β → Outcome ε σ γ) :
    (o.map f).bind next = o.bind fun s a => next s (f a) := by
  rcases o with ⟨s, e | a⟩ | m <;> rfl

theorem bind_eq_ok {o : Outcome ε σ α} {next : σ → α → Outcome ε σ β} {s : σ} {b : β} :
    o.bind next = .ok s b ↔ ∃ s' a, o = .ok s' a ∧ next s' a = .ok s b := by
  rcases o with ⟨s', e | a⟩ | m <;> simp [Outcome.bind, and_assoc]

theorem bind_eq_raise {o : Outcome ε σ α} {next : σ → α → Outcome ε σ β} {s : σ} {e : ε} :
    o.bind next = .raise s e ↔
      o = .raise s e ∨ ∃ s' a, o = .ok s' a ∧ next s' a = .raise s e := by
  rcases o with ⟨s', e' | a⟩ | m <;> simp [Outcome.bind, and_assoc]

theorem bind_eq_done {o : Outcome ε σ α} {next : σ → α → Outcome ε σ β} {s : σ} {r : Except ε β}
    (done : o.bind next = .done s r) :
    (∃ e, o = .raise s e ∧ r = .error e) ∨ ∃ mid a, o = .ok mid a ∧ next mid a = .done s r := by
  rcases o with ⟨mid, e | a⟩ | m
  · cases done
    exact .inl ⟨e, rfl, rfl⟩
  · exact .inr ⟨mid, a, rfl, done⟩
  · cases done

/-- The call does not raise an exception. It may panic. -/
def Calm (o : Outcome ε σ α) : Prop := ∀ s e, o ≠ .raise s e

theorem calm_ok (s : σ) (a : α) : (ok s a : Outcome ε σ α).Calm := by
  intro _ _ impossible
  cases impossible

theorem calm_panic (m : String) : (Outcome.panic m : Outcome ε σ α).Calm := by
  intro _ _ impossible
  cases impossible

theorem calm_orPanic (o : Outcome ε σ α) (message : String) :
    (o.orPanic message : Outcome η σ α).Calm := by
  rcases o with ⟨s, e | a⟩ | m
  · exact calm_panic message
  · exact calm_ok s a
  · exact calm_panic m

theorem Calm.bind {o : Outcome ε σ α} {next : σ → α → Outcome ε σ β} (first : o.Calm)
    (second : ∀ s a, (next s a).Calm) : (o.bind next).Calm := by
  intro s e raised
  obtain here | ⟨s', a, _, later⟩ := bind_eq_raise.mp raised
  · exact first s e here
  · exact second s' a s e later

theorem Calm.zoom {o : Outcome ε σ α} (calm : o.Calm) (put : σ → τ) : (o.zoom put).Calm := by
  rcases o with ⟨s, e | a⟩ | m
  · exact absurd rfl (calm s e)
  · exact calm_ok (put s) a
  · exact calm_panic m

/-- The call does not raise this exception. It may raise others, and it may panic. -/
def Spares (e : ε) (o : Outcome ε σ α) : Prop := ∀ s, o ≠ .raise s e

section Spares

variable {e : ε}

@[simp] theorem spares_ok (s : σ) (a : α) : (ok s a : Outcome ε σ α).Spares e := by
  intro _ impossible
  cases impossible

@[simp] theorem spares_panic (m : String) : (Outcome.panic m : Outcome ε σ α).Spares e := by
  intro _ impossible
  cases impossible

@[simp] theorem spares_raise (s : σ) (e' : ε) :
    (raise s e' : Outcome ε σ α).Spares e ↔ e' ≠ e := by
  constructor
  · rintro spared rfl
    exact spared s rfl
  · intro other s' same
    cases same
    exact other rfl

@[simp] theorem spares_zoom {put : σ → τ} {o : Outcome ε σ α} :
    (o.zoom put).Spares e ↔ o.Spares e := by
  rcases o with ⟨s, e' | a⟩ | m <;> simp [zoom]

@[simp] theorem spares_map {f : α → β} {o : Outcome ε σ α} :
    (o.map f).Spares e ↔ o.Spares e := by
  rcases o with ⟨s, e' | a⟩ | m <;> simp [map, Outcome.bind]

theorem Spares.bind {o : Outcome ε σ α} {next : σ → α → Outcome ε σ β} (first : o.Spares e)
    (second : ∀ s a, (next s a).Spares e) : (o.bind next).Spares e := by
  intro s raised
  obtain here | ⟨s', a, _, later⟩ := bind_eq_raise.mp raised
  · exact first s here
  · exact second s' a s later

/-- After a first call that can raise it, the whole can. -/
theorem Spares.of_bind {o : Outcome ε σ α} {next : σ → α → Outcome ε σ β}
    (spared : (o.bind next).Spares e) : o.Spares e := by
  intro s raised
  exact spared s (bind_eq_raise.mpr (.inl raised))

end Spares

/-- The call does not panic. -/
def Ends (o : Outcome ε σ α) : Prop := ∃ s r, o = .done s r

@[simp] theorem ends_done (s : σ) (r : Except ε α) : (Outcome.done s r).Ends := ⟨s, r, rfl⟩

@[simp] theorem ends_panic (m : String) : ¬ (Outcome.panic m : Outcome ε σ α).Ends := by
  rintro ⟨_, _, impossible⟩
  cases impossible

/-- A loop over a list: the first exception or panic of the body ends it. -/
def forEach (body : σ → α → Outcome ε σ Unit) : σ → List α → Outcome ε σ Unit
  | s, [] => .ok s ()
  | s, a :: as => (body s a).bind fun s _ => forEach body s as

theorem forEach_append (body : σ → α → Outcome ε σ Unit) (s : σ) (as bs : List α) :
    forEach body s (as ++ bs) = (forEach body s as).bind fun s _ => forEach body s bs := by
  induction as generalizing s with
  | nil => rfl
  | cons a as ih =>
    rw [List.cons_append, forEach, forEach]
    rcases body s a with ⟨s', e | done⟩ | m
    · rfl
    · exact ih s'
    · rfl

theorem forEach_map (body : σ → α → Outcome ε σ Unit) (f : β → α) (s : σ) (bs : List β) :
    forEach body s (bs.map f) = forEach (fun s b => body s (f b)) s bs := by
  induction bs generalizing s with
  | nil => rfl
  | cons b bs ih =>
    rw [List.map_cons, forEach, forEach]
    congr 1
    funext s' _
    exact ih s'

/-- A loop in a loop is one loop. -/
theorem forEach_flatMap (body : σ → α → Outcome ε σ Unit) (f : β → List α) (s : σ) (bs : List β) :
    forEach body s (bs.flatMap f) = forEach (fun s b => forEach body s (f b)) s bs := by
  induction bs generalizing s with
  | nil => rfl
  | cons b bs ih =>
    rw [List.flatMap_cons, forEach_append, forEach]
    congr 1
    funext s' _
    exact ih s'

theorem forEach_ok {body : σ → α → Outcome ε σ Unit} {I : σ → Prop} {as : List α}
    (good : ∀ s, ∀ a ∈ as, I s → ∃ s', body s a = .ok s' () ∧ I s') {s : σ} (initial : I s) :
    ∃ s', forEach body s as = .ok s' () ∧ I s' := by
  induction as generalizing s with
  | nil => exact ⟨s, rfl, initial⟩
  | cons a as ih =>
    obtain ⟨mid, first, kept⟩ := good s a List.mem_cons_self initial
    obtain ⟨s', last, inside⟩ := ih (fun s b member => good s b (.tail a member)) kept
    refine ⟨s', ?_, inside⟩
    rw [forEach, first]
    exact last

/-- Where the body succeeds on the elements with `P` and panics on the others, the loop comes to
an end exactly when all elements have `P`. -/
theorem forEach_ends_iff {body : σ → α → Outcome ε σ Unit} {I : σ → Prop} {P : α → Prop}
    {as : List α} (good : ∀ s, ∀ a ∈ as, I s → P a → ∃ s', body s a = .ok s' () ∧ I s')
    (bad : ∀ s, ∀ a ∈ as, I s → ¬ P a → ¬ (body s a).Ends) {s : σ} (initial : I s) :
    (forEach body s as).Ends ↔ ∀ a ∈ as, P a := by
  constructor
  · intro ends a member
    induction as generalizing s with
    | nil => exact absurd member List.not_mem_nil
    | cons b as ih =>
      by_cases here : P b
      · obtain ⟨mid, first, kept⟩ := good s b List.mem_cons_self initial here
        rw [forEach, first] at ends
        rcases List.mem_cons.mp member with rfl | later
        · exact here
        · exact ih (fun s c inside => good s c (.tail b inside))
            (fun s c inside => bad s c (.tail b inside)) kept ends later
      · refine absurd ?_ (bad s b List.mem_cons_self initial here)
        obtain ⟨s', r, done⟩ := ends
        rw [forEach] at done
        cases first : body s b with
        | done mid r' => exact ends_done mid r'
        | panic m =>
          rw [first] at done
          cases done
  · intro all
    obtain ⟨s', done, _⟩ := forEach_ok (fun s a member inside => good s a member inside (all a member))
      initial
    rw [done]
    exact ends_done s' (.ok ())

def Returns (o : Outcome ε σ α) : Prop := ∃ s a, o = .ok s a

@[simp] theorem returns_ok (s : σ) (a : α) : (ok s a : Outcome ε σ α).Returns := ⟨s, a, rfl⟩

@[simp] theorem returns_raise (s : σ) (e : ε) : ¬ (raise s e : Outcome ε σ α).Returns := by
  rintro ⟨_, _, impossible⟩
  cases impossible

@[simp] theorem returns_panic (m : String) : ¬ (Outcome.panic m : Outcome ε σ α).Returns := by
  rintro ⟨_, _, impossible⟩
  cases impossible

theorem returns_bind {o : Outcome ε σ α} {next : σ → α → Outcome ε σ β} :
    (o.bind next).Returns ↔ o.Returns ∧ ∀ s a, o = .ok s a → (next s a).Returns := by
  constructor
  · rintro ⟨s, b, both⟩
    obtain ⟨s', a, rfl, second⟩ := bind_eq_ok.mp both
    refine ⟨returns_ok s' a, fun t c same => ?_⟩
    cases same
    exact ⟨s, b, second⟩
  · rintro ⟨⟨s, a, rfl⟩, second⟩
    exact second s a rfl

@[simp] theorem returns_zoom {put : σ → τ} {o : Outcome ε σ α} :
    (o.zoom put).Returns ↔ o.Returns := by
  rcases o with ⟨s, e | a⟩ | m <;> simp [zoom]

@[simp] theorem returns_map {f : α → β} {o : Outcome ε σ α} : (o.map f).Returns ↔ o.Returns := by
  rcases o with ⟨s, e | a⟩ | m <;> simp [map, Outcome.bind]

@[simp] theorem returns_orPanic {o : Outcome ε σ α} {message : String} :
    (o.orPanic message : Outcome η σ α).Returns ↔ o.Returns := by
  rcases o with ⟨s, e | a⟩ | m <;> simp [orPanic]

theorem zoom_eq_done {put : σ → τ} {o : Outcome ε σ α} {t : τ} {r : Except ε α} :
    o.zoom put = .done t r ↔ ∃ s, o = .done s r ∧ put s = t := by
  cases o with
  | done s' r' =>
    constructor
    · intro same
      cases same
      exact ⟨s', rfl, rfl⟩
    · rintro ⟨_, same, rfl⟩
      cases same
      rfl
  | panic m => simp [zoom]

@[simp] theorem isSome_state?_zoom (put : σ → τ) (o : Outcome ε σ α) :
    (o.zoom put).state?.isSome = o.state?.isSome := by
  cases o <;> rfl

@[simp] theorem state?_done (s : σ) (r : Except ε α) : (Outcome.done s r).state? = some s := rfl

theorem state?_eq_some {o : Outcome ε σ α} {s : σ} : o.state? = some s ↔ ∃ r, o = .done s r := by
  cases o <;> simp [state?, eq_comm]

@[simp] theorem state?_map (f : α → β) (o : Outcome ε σ α) : (o.map f).state? = o.state? := by
  rcases o with ⟨s, e | a⟩ | m <;> rfl

/-- If the call returns, the state it leaves satisfies `P`. -/
def Leaves (o : Outcome ε σ α) (P : σ → Prop) : Prop := ∀ s, o.state? = some s → P s

@[simp] theorem leaves_done (s : σ) (r : Except ε α) (P : σ → Prop) :
    (Outcome.done s r).Leaves P ↔ P s := by
  simp [Leaves]

@[simp] theorem leaves_panic (m : String) (P : σ → Prop) :
    (Outcome.panic m : Outcome ε σ α).Leaves P := by
  intro s impossible
  cases impossible

theorem Leaves.mono {o : Outcome ε σ α} {P Q : σ → Prop} (h : o.Leaves P)
    (weaker : ∀ s, P s → Q s) : o.Leaves Q := fun s after => weaker s (h s after)

theorem Ensures.leaves {o : Outcome ε σ α} {Q : σ → Except ε α → Prop} {P : σ → Prop}
    (h : o.Ensures Q) (weaker : ∀ s r, Q s r → P s) : o.Leaves P := by
  obtain ⟨s, r, rfl, q⟩ := h.exists_done
  exact (leaves_done s r P).mpr (weaker s r q)

theorem Leaves.bind {o : Outcome ε σ α} {next : σ → α → Outcome ε σ β} {P Q : σ → Prop}
    (first : o.Leaves P) (raised : ∀ s, P s → Q s)
    (second : ∀ s a, o = .ok s a → P s → (next s a).Leaves Q) : (o.bind next).Leaves Q := by
  cases o with
  | done s r =>
    have here : P s := (leaves_done s r P).mp first
    cases r with
    | ok a => exact second s a rfl here
    | error e => exact (leaves_done s _ Q).mpr (raised s here)
  | panic m => exact leaves_panic m Q

/-- Sequencing where there are no exceptions. -/
theorem Leaves.andThen {o : Outcome Empty σ α} {next : σ → α → Outcome Empty σ β}
    {P Q : σ → Prop} (first : o.Leaves P) (second : ∀ s a, P s → (next s a).Leaves Q) :
    (o.bind next).Leaves Q := by
  rcases o with ⟨s, e | a⟩ | m
  · exact e.elim
  · exact second s a ((leaves_done s _ P).mp first)
  · exact leaves_panic m Q

@[simp] theorem leaves_zoom {put : σ → τ} {o : Outcome ε σ α} {P : τ → Prop} :
    (o.zoom put).Leaves P ↔ o.Leaves fun s => P (put s) := by
  cases o <;> simp [zoom]

@[simp] theorem leaves_map {f : α → β} {o : Outcome ε σ α} {P : σ → Prop} :
    (o.map f).Leaves P ↔ o.Leaves P := by
  rcases o with ⟨s, e | a⟩ | m <;> simp [map, Outcome.bind]

@[simp] theorem leaves_succeeds {o : Outcome ε σ α} {P : σ → Prop} :
    (o.succeeds : Outcome η σ Bool).Leaves P ↔ o.Leaves P := by
  rcases o with ⟨s, e | a⟩ | m <;> simp [succeeds]

theorem Leaves.forEach {body : σ → α → Outcome ε σ Unit} {I : σ → Prop}
    (kept : ∀ s a, I s → (body s a).Leaves I) {s : σ} (initial : I s) (as : List α) :
    (forEach body s as).Leaves I := by
  induction as generalizing s with
  | nil => exact (leaves_done s _ I).mpr initial
  | cons a as ih => exact (kept s a initial).bind (fun _ h => h) fun mid _ _ here => ih here

theorem Leaves.orPanic {o : Outcome ε σ α} {P : σ → Prop} (h : o.Leaves P) (message : String) :
    (o.orPanic message : Outcome η σ α).Leaves P := by
  rcases o with ⟨s, e | a⟩ | m
  · exact leaves_panic _ P
  · exact (leaves_done s (.ok a) P).mpr ((leaves_done s _ P).mp h)
  · exact leaves_panic _ P

theorem orPanic_zoom (put : σ → τ) (o : Outcome ε σ α) (message : String) :
    ((o.zoom put).orPanic message : Outcome η τ α) = (o.orPanic message).zoom put := by
  rcases o with ⟨s, e | a⟩ | m <;> rfl

theorem orPanic_eq_ok {o : Outcome ε σ α} {message : String} {s : σ} {a : α} :
    (o.orPanic message : Outcome η σ α) = .ok s a ↔ o = .ok s a := by
  rcases o with ⟨s', e | a'⟩ | m <;> simp [orPanic]

theorem Ensures.state? {o : Outcome ε σ α} {Q : σ → Except ε α → Prop} (h : o.Ensures Q)
    {s : σ} (after : o.state? = some s) : ∃ r, Q s r := by
  cases o with
  | done s' r =>
    cases after
    exact ⟨r, h⟩
  | panic m => cases after

/-- Two calls that come to the same, up to a relation between the states they leave. All panics
are alike. -/
def Alike (R : σ → σ → Prop) : Outcome ε σ α → Outcome ε σ α → Prop
  | .done s r, .done s' r' => R s s' ∧ r = r'
  | .panic _, .panic _ => True
  | _, _ => False

theorem alike_eq (o : Outcome ε σ α) : o.Alike (· = ·) o := by
  cases o with
  | done s r => exact ⟨rfl, rfl⟩
  | panic m => trivial

theorem Alike.zoom {R : σ → σ → Prop} {Q : τ → τ → Prop} {put put' : σ → τ} {o o' : Outcome ε σ α}
    (alike : o.Alike R o') (same : ∀ s s', R s s' → Q (put s) (put' s')) :
    (o.zoom put).Alike Q (o'.zoom put') := by
  cases o with
  | done s r =>
    cases o' with
    | done s' r' => exact ⟨same s s' alike.1, alike.2⟩
    | panic m => exact alike.elim
  | panic m =>
    cases o' with
    | done s' r' => exact alike.elim
    | panic m' => trivial

/-- One call on a part of two wholes that are otherwise alike. -/
theorem alike_zoom {R : τ → τ → Prop} {put put' : σ → τ} (same : ∀ s, R (put s) (put' s))
    (o : Outcome ε σ α) : (o.zoom put).Alike R (o.zoom put') := by
  refine (alike_eq o).zoom ?_
  rintro s _ rfl
  exact same s

theorem Alike.bind {R : σ → σ → Prop} {o o' : Outcome ε σ α}
    {next next' : σ → α → Outcome ε σ β} (first : o.Alike R o')
    (second : ∀ s s' a, R s s' → (next s a).Alike R (next' s' a)) :
    (o.bind next).Alike R (o'.bind next') := by
  cases o with
  | done s r =>
    cases o' with
    | done s' r' =>
      obtain ⟨states, rfl⟩ := first
      cases r with
      | ok a => exact second s s' a states
      | error e => exact ⟨states, rfl⟩
    | panic m => exact first.elim
  | panic m =>
    cases o' with
    | done s' r' => exact first.elim
    | panic m' => trivial

/-- Where exceptions are panics, what counts is whether the calls return, and with what. -/
theorem alike_orPanic_iff {R : σ → σ → Prop} {o o' : Outcome ε σ α} (message : String) :
    (o.orPanic message : Outcome η σ α).Alike R (o'.orPanic message) ↔ (o.Returns ↔ o'.Returns) ∧
      ∀ s a s' a', o = .ok s a → o' = .ok s' a' → R s s' ∧ a = a' := by
  rcases o with ⟨s, e | a⟩ | m <;> rcases o' with ⟨s', e' | a'⟩ | m' <;>
    simp [orPanic, Alike]
  exact ⟨by rintro h _ _ _ _ rfl rfl rfl rfl; exact h, fun h => h s a s' a' rfl rfl rfl rfl⟩

theorem alike_of_refused {R : σ → σ → Prop} {o o' : Outcome ε σ α} (refused : ¬ o.Returns)
    (refused' : ¬ o'.Returns) (message : String) :
    (o.orPanic message : Outcome η σ α).Alike R (o'.orPanic message) := by
  refine (alike_orPanic_iff message).mpr ⟨iff_of_false refused refused', ?_⟩
  rintro s a s' a' rfl _
  exact absurd (returns_ok s a) refused

theorem alike_zoom_of_refused {R : τ → τ → Prop} {put put' : σ → τ} {o o' : Outcome ε σ α}
    (refused : ¬ o.Returns) (refused' : ¬ o'.Returns) (message : String) :
    ((o.zoom put).orPanic message : Outcome η τ α).Alike R ((o'.zoom put').orPanic message) :=
  alike_of_refused (fun h => refused (returns_zoom.mp h)) (fun h => refused' (returns_zoom.mp h)) message

theorem Alike.orPanic {R : σ → σ → Prop} {o o' : Outcome ε σ α} (alike : o.Alike R o')
    (message : String) : (o.orPanic message : Outcome η σ α).Alike R (o'.orPanic message) := by
  refine (alike_orPanic_iff message).mpr ?_
  rcases o with ⟨s, r⟩ | m
  · rcases o' with ⟨s', r'⟩ | m'
    · obtain ⟨states, rfl⟩ := alike
      refine ⟨?_, ?_⟩
      · cases r <;> simp
      · intro s₁ a s₂ b one two
        cases one
        cases two
        exact ⟨states, rfl⟩
    · exact alike.elim
  · rcases o' with ⟨s', r'⟩ | m'
    · exact alike.elim
    · simp

end Outcome
