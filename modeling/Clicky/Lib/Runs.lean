import Mathlib.Data.List.Induction

/-! Finite runs of a system that takes one event after the other. A step may be
missing (`none`): the run ends there. The rules below lift what one step does to
every state and every step of a run. -/
namespace Runs

variable {S E : Type} (step : S → E → Option S)

def run : S → List E → Option S
  | s, [] => some s
  | s, e :: es => (step s e).bind fun s' => run s' es

/-- `P` holds of every state the run goes through, the first and the last included. -/
def Always (P : S → Prop) : S → List E → Prop
  | s, [] => P s
  | s, e :: es => P s ∧ ∀ s', step s e = some s' → Always P s' es

/-- Every step the run takes starts in a state and on an event related by `Q`. -/
def EveryStep (Q : S → E → Prop) : S → List E → Prop
  | _, [] => True
  | s, e :: es => ∀ s', step s e = some s' → Q s e ∧ EveryStep Q s' es

/-- Before every step of the run, taken or not, state and event are related by `Q`. -/
def BeforeEach (Q : S → E → Prop) : S → List E → Prop
  | _, [] => True
  | s, e :: es => Q s e ∧ ∀ s', step s e = some s' → BeforeEach Q s' es

variable {step}

theorem Always.start {P : S → Prop} {s : S} {es : List E} (always : Always step P s es) : P s := by
  cases es with
  | nil => exact always
  | cons _ _ => exact always.1

theorem Always.run {P : S → Prop} {s s' : S} {es : List E} (always : Always step P s es)
    (reached : run step s es = some s') : P s' := by
  induction es generalizing s with
  | nil =>
    cases reached
    exact always
  | cons e es ih =>
    obtain ⟨mid, first, last⟩ := Option.bind_eq_some_iff.mp reached
    exact ih (always.2 mid first) last

theorem Always.after {P : S → Prop} {s mid : S} {first rest : List E}
    (always : Always step P s (first ++ rest)) (taken : Runs.run step s first = some mid) :
    Always step P mid rest := by
  induction first generalizing s with
  | nil =>
    cases taken
    exact always
  | cons e first ih =>
    obtain ⟨s', one, others⟩ := Option.bind_eq_some_iff.mp taken
    exact ih (always.2 s' one) others

theorem Always.init {P : S → Prop} {s : S} {first rest : List E}
    (always : Always step P s (first ++ rest)) : Always step P s first := by
  induction first generalizing s with
  | nil => exact always.start
  | cons e first ih => exact ⟨always.1, fun mid one => ih (always.2 mid one)⟩

theorem run_append (s : S) (first rest : List E) :
    run step s (first ++ rest) = (run step s first).bind fun mid => run step mid rest := by
  induction first generalizing s with
  | nil => rfl
  | cons e first ih =>
    rw [List.cons_append, run, run, Option.bind_assoc]
    exact congrArg _ (funext ih)

theorem run_total {I : S → Prop} (progress : ∀ s e, I s → ∃ s', step s e = some s' ∧ I s')
    {s : S} (initial : I s) (es : List E) : ∃ s', run step s es = some s' ∧ I s' := by
  induction es generalizing s with
  | nil => exact ⟨s, rfl, initial⟩
  | cons e es ih =>
    obtain ⟨mid, first, kept⟩ := progress s e initial
    obtain ⟨s', last, hs⟩ := ih kept
    exact ⟨s', by simp only [run, first, Option.bind_some, last], hs⟩

theorem run_of_everyStep {I : S → Prop} {Q : S → E → Prop}
    (preserved : ∀ s e s', I s → Q s e → step s e = some s' → I s') {s s' : S} {es : List E}
    (initial : I s) (good : EveryStep step Q s es) (reached : run step s es = some s') :
    I s' := by
  induction es generalizing s with
  | nil => cases reached; exact initial
  | cons e es ih =>
    obtain ⟨mid, first, last⟩ := Option.bind_eq_some_iff.mp reached
    have here := good mid first
    exact ih (preserved s e mid initial here.1 first) here.2 last

theorem always_of_everyStep {I P : S → Prop} {Q : S → E → Prop}
    (preserved : ∀ s e s', I s → Q s e → step s e = some s' → I s')
    (enough : ∀ s, I s → P s) {s : S} {es : List E} (initial : I s)
    (good : EveryStep step Q s es) : Always step P s es := by
  induction es generalizing s with
  | nil => exact enough s initial
  | cons e es ih =>
    refine ⟨enough s initial, fun mid first => ?_⟩
    have here := good mid first
    exact ih (preserved s e mid initial here.1 first) here.2

theorem everyStep_of_invariant {I : S → Prop} {Q : S → E → Prop}
    (preserved : ∀ s e s', I s → step s e = some s' → I s') (here : ∀ s e, I s → Q s e)
    {s : S} (initial : I s) (es : List E) : EveryStep step Q s es := by
  induction es generalizing s with
  | nil => trivial
  | cons e es ih => exact fun mid first => ⟨here s e initial, ih (preserved s e mid initial first)⟩

theorem always_of_invariant {I P : S → Prop}
    (preserved : ∀ s e s', I s → step s e = some s' → I s') (enough : ∀ s, I s → P s)
    {s : S} (initial : I s) (es : List E) : Always step P s es := by
  have unconditional : EveryStep step (fun _ _ => True) s es :=
    everyStep_of_invariant preserved (fun _ _ _ => trivial) initial es
  exact always_of_everyStep (fun s e s' inside _ => preserved s e s' inside) enough initial
    unconditional

/-- Where one step keeps `P` exactly when it meets `Q`, a run keeps `P` throughout
exactly when all its steps meet `Q`. -/
theorem always_iff_everyStep {I P : S → Prop} {Q : S → E → Prop}
    (preserved : ∀ s e s', I s → step s e = some s' → I s')
    (exact_step : ∀ s e s', I s → P s → step s e = some s' → (P s' ↔ Q s e))
    {s : S} (es : List E) (inside : I s) (initial : P s) :
    Always step P s es ↔ EveryStep step Q s es := by
  induction es generalizing s with
  | nil => exact ⟨fun _ => trivial, fun _ => initial⟩
  | cons e es ih =>
    constructor
    · rintro ⟨_, later⟩ mid first
      have hm : P mid := (later mid first).start
      exact ⟨(exact_step s e mid inside initial first).mp hm,
        (ih (preserved s e mid inside first) hm).mp (later mid first)⟩
    · intro good
      refine ⟨initial, fun mid first => ?_⟩
      have here := good mid first
      have hm := (exact_step s e mid inside initial first).mpr here.1
      exact (ih (preserved s e mid inside first) hm).mpr here.2

theorem BeforeEach.everyStep {Q : S → E → Prop} {s : S} {es : List E}
    (good : BeforeEach step Q s es) : EveryStep step Q s es := by
  induction es generalizing s with
  | nil => trivial
  | cons e es ih => exact fun mid first => ⟨good.1, ih (good.2 mid first)⟩

theorem BeforeEach.after {Q : S → E → Prop} {s mid : S} {first rest : List E}
    (holds : BeforeEach step Q s (first ++ rest)) (taken : run step s first = some mid) :
    BeforeEach step Q mid rest := by
  induction first generalizing s with
  | nil =>
    cases taken
    exact holds
  | cons e first ih =>
    obtain ⟨s', one, others⟩ := Option.bind_eq_some_iff.mp taken
    exact ih (holds.2 s' one) others

theorem BeforeEach.mono_of_invariant {I : S → Prop} {Q R : S → E → Prop}
    (preserved : ∀ s e s', I s → Q s e → step s e = some s' → I s')
    (enough : ∀ s e, I s → Q s e → R s e) {s : S} {es : List E} (initial : I s)
    (good : BeforeEach step Q s es) : BeforeEach step R s es := by
  induction es generalizing s with
  | nil => trivial
  | cons e es ih =>
    exact ⟨enough s e initial good.1, fun mid first =>
      ih (preserved s e mid initial good.1 first) (good.2 mid first)⟩

theorem beforeEach_of_invariant {I : S → Prop} {Q : S → E → Prop}
    (preserved : ∀ s e s', I s → step s e = some s' → I s') (here : ∀ s e, I s → Q s e)
    {s : S} (initial : I s) (es : List E) : BeforeEach step Q s es := by
  induction es generalizing s with
  | nil => trivial
  | cons e es ih =>
    exact ⟨here s e initial, fun mid first => ih (preserved s e mid initial first)⟩

theorem beforeEach_iff {I : S → Prop} {Q R : S → E → Prop}
    (preserved : ∀ s e s', I s → step s e = some s' → I s') (same : ∀ s e, I s → (Q s e ↔ R s e))
    {s : S} (es : List E) (initial : I s) :
    BeforeEach step Q s es ↔ BeforeEach step R s es := by
  induction es generalizing s with
  | nil => exact Iff.rfl
  | cons e es ih =>
    constructor
    · rintro ⟨here, later⟩
      exact ⟨(same s e initial).mp here, fun mid first =>
        (ih (preserved s e mid initial first)).mp (later mid first)⟩
    · rintro ⟨here, later⟩
      exact ⟨(same s e initial).mpr here, fun mid first =>
        (ih (preserved s e mid initial first)).mpr (later mid first)⟩

theorem everyStep_iff {Q R : S → E → Prop}
    (same : ∀ s e s', step s e = some s' → (Q s e ↔ R s e)) (s : S) (es : List E) :
    EveryStep step Q s es ↔ EveryStep step R s es := by
  induction es generalizing s with
  | nil => exact Iff.rfl
  | cons e es ih =>
    constructor
    · exact fun good mid first =>
        ⟨(same s e mid first).mp (good mid first).1, (ih mid).mp (good mid first).2⟩
    · exact fun good mid first =>
        ⟨(same s e mid first).mpr (good mid first).1, (ih mid).mpr (good mid first).2⟩

theorem everyStep_forall {I : Type} {Q : I → S → E → Prop} (s : S) (es : List E) :
    (∀ i, EveryStep step (Q i) s es) ↔ EveryStep step (fun s e => ∀ i, Q i s e) s es := by
  induction es generalizing s with
  | nil => exact ⟨fun _ => trivial, fun _ _ => trivial⟩
  | cons e es ih =>
    constructor
    · exact fun good mid first =>
        ⟨fun i => (good i mid first).1, (ih mid).mp fun i => (good i mid first).2⟩
    · exact fun good i mid first =>
        ⟨(good mid first).1 i, (ih mid).mpr (good mid first).2 i⟩

theorem EveryStep.after {Q : S → E → Prop} {s s' : S} {before rest : List E}
    (good : EveryStep step Q s (before ++ rest)) (reached : run step s before = some s') :
    EveryStep step Q s' rest := by
  induction before generalizing s with
  | nil =>
    cases reached
    exact good
  | cons e before ih =>
    obtain ⟨mid, first, last⟩ := Option.bind_eq_some_iff.mp reached
    exact ih (good mid first).2 last

theorem EveryStep.init {Q : S → E → Prop} {s : S} {before rest : List E}
    (good : EveryStep step Q s (before ++ rest)) : EveryStep step Q s before := by
  induction before generalizing s with
  | nil => trivial
  | cons e before ih => exact fun mid first => ⟨(good mid first).1, ih (good mid first).2⟩

variable (step) in
/-- Wherever in the run `P` comes to hold, it goes on to hold until an event that ends it. -/
def Persists (P : S → Prop) (ends : E → Prop) (s : S) (es : List E) : Prop :=
  ∀ before held after mid last, es = before ++ held ++ after → run step s before = some mid →
    P mid → (∀ e ∈ held, ¬ ends e) → run step mid held = some last → P last

theorem persists_iff_everyStep (P : S → Prop) (ends : E → Prop) (s : S) (es : List E) :
    Persists step P ends s es ↔
      EveryStep step (fun s e => P s → ¬ ends e → ∀ s', step s e = some s' → P s') s es := by
  constructor
  · intro persists
    induction es generalizing s with
    | nil => trivial
    | cons e es ih =>
      intro mid first
      constructor
      · intro here goes_on s' same
        refine persists [] [e] es s s' rfl rfl here ?_ ?_
        · intro e' member
          rw [List.mem_singleton.mp member]
          exact goes_on
        · rw [run, same]
          rfl
      · refine ih mid fun before held after m last parts reached => ?_
        refine persists (e :: before) held after m last (by rw [parts]; rfl) ?_
        rw [run, first]
        exact reached
  · rintro good before held after mid last rfl reached here goes_on ended
    rw [List.append_assoc] at good
    have later := (good.after reached).init
    clear good reached
    induction held generalizing mid with
    | nil =>
      cases ended
      exact here
    | cons e held ih =>
      obtain ⟨next, first, rest⟩ := Option.bind_eq_some_iff.mp ended
      have step_ok := (later next first).1 here (goes_on e List.mem_cons_self) next first
      exact ih next step_ok (fun e' member => goes_on e' (List.mem_cons_of_mem e member)) rest
        (later next first).2

theorem everyStep_of_mem {Q : E → Prop} {es : List E} (good : ∀ e ∈ es, Q e) (s : S) :
    EveryStep step (fun _ e => Q e) s es := by
  induction es generalizing s with
  | nil => trivial
  | cons e es ih =>
    exact fun mid _ => ⟨good e List.mem_cons_self, ih (fun e' later => good e' (.tail e later)) mid⟩

theorem run_concat (s : S) (es : List E) (e : E) :
    run step s (es ++ [e]) = (run step s es).bind fun s' => step s' e := by
  rw [run_append]
  apply congrArg
  funext s'
  change (step s' e).bind some = step s' e
  exact Option.bind_fun_some _

/-- A relation between the events so far and the state, kept by each further event. -/
theorem run_history {P : List E → S → Prop} {s₀ : S} (initial : P [] s₀)
    (grows : ∀ es s e s', P es s → step s e = some s' → P (es ++ [e]) s') {es : List E} {s : S}
    (reached : run step s₀ es = some s) : P es s := by
  induction es using List.reverseRecOn generalizing s with
  | nil =>
    cases reached
    exact initial
  | append_singleton es e ih =>
    rw [run_concat] at reached
    obtain ⟨mid, first, last⟩ := Option.bind_eq_some_iff.mp reached
    exact grows es mid e s (ih first) last

/-- Where a step from `I` either stays there or is one of `X`, a run does not leave `I` but by a step
of `X`. -/
theorem run_or_exit {I : S → Prop} {X : S → E → S → Prop}
    (kept : ∀ s e s', I s → step s e = some s' → I s' ∨ X s e s')
    {s s' : S} {es : List E} (initial : I s) (reached : run step s es = some s') :
    I s' ∨ ∃ before e after last exit, es = before ++ e :: after ∧
      run step s before = some last ∧ I last ∧ step last e = some exit ∧ X last e exit := by
  induction es generalizing s with
  | nil =>
    cases reached
    exact .inl initial
  | cons e es ih =>
    obtain ⟨mid, first, rest⟩ := Option.bind_eq_some_iff.mp reached
    obtain inside | outside := kept s e mid initial first
    · obtain stays | ⟨before, e', after, last, exit, rfl, ran, here, taken, left⟩ := ih inside rest
      · exact .inl stays
      · refine .inr ⟨e :: before, e', after, last, exit, rfl, ?_, here, taken, left⟩
        rw [run, first]
        exact ran
    · exact .inr ⟨[], e, es, s, mid, rfl, rfl, initial, first, outside⟩

/-- There was an event with `raise`, and none with `ack` after it. -/
def Since (ack raise : E → Prop) (es : List E) : Prop :=
  ∃ before e after, es = before ++ e :: after ∧ raise e ∧ ∀ e' ∈ after, ¬ ack e'

@[simp] theorem since_nil (ack raise : E → Prop) : ¬ Since ack raise [] := by
  rintro ⟨before, e, after, parts, _⟩
  exact List.append_ne_nil_of_right_ne_nil before (List.cons_ne_nil e after) parts.symm

theorem since_concat (ack raise : E → Prop) (es : List E) (e : E) :
    Since ack raise (es ++ [e]) ↔ raise e ∨ Since ack raise es ∧ ¬ ack e := by
  constructor
  · rintro ⟨before, r, after, parts, raised, quiet⟩
    rcases List.eq_nil_or_concat after with rfl | ⟨after, last, rfl⟩
    · obtain ⟨rfl, rest⟩ := List.append_inj' parts rfl
      cases rest
      exact .inl raised
    · rw [List.concat_eq_append, ← List.cons_append, ← List.append_assoc] at parts
      obtain ⟨rfl, rest⟩ := List.append_inj' parts rfl
      cases rest
      have before_last : ∀ e' ∈ after, ¬ ack e' := fun e' member =>
        quiet e' (by rw [List.concat_eq_append]; exact List.mem_append_left _ member)
      refine .inr ⟨⟨before, r, after, rfl, raised, before_last⟩, quiet e ?_⟩
      rw [List.concat_eq_append]
      exact List.mem_append_right _ List.mem_cons_self
  · rintro (raised | ⟨⟨before, r, after, rfl, raised, quiet⟩, still⟩)
    · exact ⟨es, e, [], rfl, raised, fun e' member => absurd member List.not_mem_nil⟩
    · refine ⟨before, r, after ++ [e], by rw [List.append_assoc]; rfl, raised, fun e' member => ?_⟩
      rcases List.mem_append.mp member with earlier | same
      · exact quiet e' earlier
      · rw [List.mem_singleton.mp same]
        exact still

/-- `a` is the last in the list of which `p` holds. -/
def LastWith {A : Type} (p : A → Prop) (l : List A) (a : A) : Prop :=
  ∃ before after, l = before ++ a :: after ∧ p a ∧ ∀ b ∈ after, ¬ p b

theorem lastWith_concat {A : Type} (p : A → Prop) (l : List A) (a b : A) :
    LastWith p (l ++ [a]) b ↔ (p a ∧ a = b) ∨ (¬ p a ∧ LastWith p l b) := by
  constructor
  · rintro ⟨before, after, parts, holds, none_later⟩
    rcases List.eq_nil_or_concat after with rfl | ⟨after, last, rfl⟩
    · obtain ⟨rfl, rest⟩ := List.append_inj' parts rfl
      cases rest
      exact .inl ⟨holds, rfl⟩
    · rw [List.concat_eq_append, ← List.cons_append, ← List.append_assoc] at parts
      obtain ⟨rfl, rest⟩ := List.append_inj' parts rfl
      cases rest
      rw [List.concat_eq_append] at none_later
      exact .inr ⟨none_later a List.mem_concat_self, before, after, rfl, holds,
        fun c later => none_later c (List.mem_append_left _ later)⟩
  · rintro (⟨holds, rfl⟩ | ⟨fails, before, after, rfl, holds, none_later⟩)
    · exact ⟨l, [], rfl, holds, fun _ impossible => absurd impossible List.not_mem_nil⟩
    · refine ⟨before, after ++ [a], by rw [List.append_assoc]; rfl, holds, fun c later => ?_⟩
      rcases List.mem_append.mp later with earlier | last
      · exact none_later c earlier
      · exact List.mem_singleton.mp last ▸ fails

/-- A fold that keeps the last one it meets. -/
theorem foldl_last_eq_some_iff {A : Type} (p : A → Prop) [DecidablePred p] (l : List A) (a : A) :
    l.foldl (fun last b => if p b then some b else last) none = some a ↔ LastWith p l a := by
  induction l using List.reverseRecOn with
  | nil =>
    refine iff_of_false nofun ?_
    rintro ⟨before, after, parts, _⟩
    exact List.append_ne_nil_of_right_ne_nil before (List.cons_ne_nil a after) parts.symm
  | append_singleton l b ih =>
    rw [List.foldl_append, List.foldl_cons, List.foldl_nil, lastWith_concat, ← ih]
    by_cases holds : p b
    · rw [if_pos holds, Option.some.injEq]
      exact ⟨fun same => .inl ⟨holds, same⟩, fun last =>
        last.elim And.right fun fails => absurd holds fails.1⟩
    · rw [if_neg holds]
      exact ⟨fun last => .inr ⟨holds, last⟩, fun last =>
        last.elim (fun wrong => absurd wrong.1 holds) And.right⟩

theorem foldl_last_eq_none_iff {A : Type} (p : A → Prop) [DecidablePred p] (l : List A) :
    l.foldl (fun last b => if p b then some b else last) none = none ↔ ∀ b ∈ l, ¬ p b := by
  induction l using List.reverseRecOn with
  | nil => exact iff_of_true rfl fun _ impossible => absurd impossible List.not_mem_nil
  | append_singleton l b ih =>
    rw [List.foldl_append, List.foldl_cons, List.foldl_nil]
    by_cases holds : p b
    · rw [if_pos holds]
      exact iff_of_false nofun fun none_holds => none_holds b List.mem_concat_self holds
    · rw [if_neg holds, ih]
      refine ⟨fun earlier c member => ?_, fun all c member =>
        all c (List.mem_append_left _ member)⟩
      rcases List.mem_append.mp member with before | last
      · exact earlier c before
      · exact List.mem_singleton.mp last ▸ holds

def latest {I A : Type} [DecidableEq I] (entries : List (I × A)) (i : I) : Option A :=
  ((entries.filter fun e => e.1 = i).getLast?).map Prod.snd

@[simp] theorem latest_nil {I A : Type} [DecidableEq I] (i : I) :
    latest ([] : List (I × A)) i = none := rfl

theorem latest_cons {I A : Type} [DecidableEq I] (entries : List (I × A)) (i j : I) (a : A) :
    latest ((j, a) :: entries) i = (latest entries i).or (if j = i then some a else none) := by
  unfold latest
  by_cases same : j = i
  · simp only [same, decide_true, List.filter_cons_of_pos, List.getLast?_cons, if_true]
    cases (entries.filter fun e => decide (e.1 = i)).getLast? <;> rfl
  · simp [same]

theorem latest_concat {I A : Type} [DecidableEq I] (entries : List (I × A)) (i j : I) (a : A) :
    latest (entries ++ [(j, a)]) i = if j = i then some a else latest entries i := by
  unfold latest
  rw [List.filter_append]
  by_cases same : j = i
  · simp [same]
  · simp [same]

section Collect

variable {A : Type}

variable (step) in
/-- What the steps of a run give, one after the other. -/
def collect (f : S → E → List A) : S → List E → List A
  | _, [] => []
  | s, e :: es => f s e ++ (step s e).elim [] fun s' => collect f s' es

theorem length_collect_le {f g : S → E → List A}
    (shorter : ∀ s e, (f s e).length ≤ (g s e).length) (s : S) (es : List E) :
    (collect step f s es).length ≤ (collect step g s es).length := by
  induction es generalizing s with
  | nil => exact Nat.le_refl _
  | cons e es ih =>
    rw [collect, collect, List.length_append, List.length_append]
    refine Nat.add_le_add (shorter s e) ?_
    cases step s e with
    | none => exact Nat.le_refl _
    | some s' => exact ih s'

/-- Where no step gives more, a run gives the same only if every step does. -/
theorem collect_eq_iff {f g : S → E → List A} (shorter : ∀ s e, (f s e).length ≤ (g s e).length)
    (s : S) (es : List E) :
    collect step f s es = collect step g s es ↔ BeforeEach step (fun s e => f s e = g s e) s es := by
  induction es generalizing s with
  | nil => exact iff_of_true rfl trivial
  | cons e es ih =>
    rw [collect, collect, BeforeEach]
    cases taken : step s e with
    | none => simp
    | some s' =>
      have first := shorter s e
      have rest : (collect step f s' es).length ≤ (collect step g s' es).length :=
        length_collect_le shorter s' es
      simp only [Option.elim, Option.some.injEq, forall_eq']
      rw [← ih s']
      constructor
      · intro same
        have total := congrArg List.length same
        simp only [List.length_append] at total
        exact List.append_inj same (by omega)
      · rintro ⟨here, later⟩
        rw [here, later]

end Collect

end Runs
