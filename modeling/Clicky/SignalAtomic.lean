import Clicky.Signal

/-! `Master::assert` and `Master::clear` one atomic operation at a time, for any number of
calls running at once on the clones of one master. -/
namespace Clicky.Atomic
open Runs

/-- Where a call stands: the atomic operation it does next. `failed` is a call whose
assertion on the counter fired. -/
inductive Pc where
  | load (c : Call)
  | store (c : Call)
  | count (c : Call)
  | notify (c : Call) (oldVal : Int)
  | done
  | failed
  deriving DecidableEq, Repr

/-- The shared cells, and the calls in the order they started. -/
structure State where
  kind : TriggerKind
  ownSignal : Bool
  signal : Int
  trigger : Bool
  calls : List Pc
  deriving DecidableEq, Repr

inductive Event where
  | start (c : Call)
  | tick (i : Nat)
  deriving DecidableEq, Repr

def State.at (s : State) (i : Nat) (pc : Pc) : State := { s with calls := s.calls.set i pc }

@[simp] theorem at_signal (s : State) (i : Nat) (pc : Pc) : (s.at i pc).signal = s.signal := rfl
@[simp] theorem at_ownSignal (s : State) (i : Nat) (pc : Pc) :
    (s.at i pc).ownSignal = s.ownSignal := rfl

def delta : Call → Int
  | .assert => 1
  | .clear => -1

def accepts (oldVal : Int) : Call → Bool
  | .assert => 0 ≤ oldVal
  | .clear => 0 < oldVal

def tick (s : State) (i : Nat) : Pc → Option State
  | .load c =>
    -- a call that finds `own_signal` at its target returns at once
    some (s.at i (if s.ownSignal = c.level then .done else .store c))
  | .store c => some ({ s with ownSignal := c.level }.at i (.count c))
  | .count c =>
    some ({ s with signal := s.signal + delta c }.at i
      (if accepts s.signal c then .notify c s.signal else .failed))
  | .notify c oldVal =>
    some ({ s with trigger := s.kind.fires (oldVal ≠ 0) c.level || s.trigger }.at i .done)
  | .done => none
  | .failed => none

def step (s : State) : Event → Option State
  | .start c => some { s with calls := s.calls ++ [.load c] }
  | .tick i => s.calls[i]?.bind (tick s i)

def NeverFailed (s : State) : Prop := Pc.failed ∉ s.calls

def Quiescent (s : State) : Prop := ∀ pc ∈ s.calls, pc = .done ∨ pc = .failed

def share (ownSignal : Bool) : Nat := if ownSignal then 1 else 0

def Contribution (s : State) : Prop := s.signal = share s.ownSignal

def Sound (s : State) : Prop := NeverFailed s ∧ (Quiescent s → Contribution s)

/-- Calls that have set `own_signal` and not yet moved the counter. -/
def owing (c : Call) (s : State) : Nat := s.calls.count (.count c)

/-- No other call came between a load and the store that follows it with a store of the same
value, and no `fetch_sub` overtakes the `fetch_add` of the assert it undoes. -/
def Undisturbed (s : State) : Event → Prop
  | .start _ => True
  | .tick i =>
    match s.calls[i]? with
    | some (.store c) => s.ownSignal ≠ c.level
    | some (.count .clear) => owing .assert s < owing .clear s + share s.ownSignal
    | _ => True

/-- The counter lags behind `own_signal` by the calls in between, and is off by `drift`. -/
def Lags (drift : Int) (s : State) : Prop :=
  s.signal + owing .assert s = share s.ownSignal + owing .clear s + drift

structure Inv (s : State) : Prop where
  lags : Lags 0 s
  nonneg : 0 ≤ s.signal
  neverFailed : NeverFailed s

theorem owing_at {s t : State} {i : Nat} {old : Pc} (here : s.calls[i]? = some old)
    (same : t.calls = s.calls) (pc : Pc) (c : Call) :
    owing c (t.at i pc) + (if old = .count c then 1 else 0) =
      owing c s + (if pc = .count c then 1 else 0) := by
  obtain ⟨inside, get⟩ := List.getElem?_eq_some_iff.mp here
  have member : old = .count c → 0 < s.calls.count (.count c) := by
    intro eq
    exact List.count_pos_iff.mpr (eq ▸ List.mem_of_getElem? here)
  simp only [owing, State.at, same, List.count_set inside, get, beq_iff_eq]
  by_cases eq : old = .count c
  · have positive := member eq
    simp only [eq, if_true]
    omega
  · simp only [eq, if_false]
    omega

theorem owing_start (s : State) (c d : Call) :
    owing c { s with calls := s.calls ++ [.load d] } = owing c s := by
  simp [owing, List.count_append]

theorem neverFailed_at {s : State} {pc : Pc} (sound : NeverFailed s) (fine : pc ≠ .failed)
    (i : Nat) : NeverFailed (s.at i pc) := by
  intro wrong
  rcases List.mem_or_eq_of_mem_set wrong with old | new
  · exact sound old
  · exact fine new.symm

theorem step_tick {s s' : State} {i : Nat} (taken : step s (.tick i) = some s') :
    ∃ pc, s.calls[i]? = some pc ∧ tick s i pc = some s' :=
  Option.bind_eq_some_iff.mp taken

theorem lags_count {drift : Int} {s : State} {i : Nat} {c : Call} {pc : Pc} (lags : Lags drift s)
    (here : s.calls[i]? = some (.count c)) (counted : ∀ d, pc ≠ .count d) :
    Lags drift ({ s with signal := s.signal + delta c }.at i pc) := by
  have move := owing_at (t := { s with signal := s.signal + delta c }) here rfl pc
  have asserts := move .assert
  have clears := move .clear
  simp only [counted, if_false, Nat.add_zero] at asserts clears
  unfold Lags at lags ⊢
  simp only [at_signal, at_ownSignal]
  cases c with
  | assert =>
    simp only [if_true, reduceCtorEq, Pc.count.injEq, if_false] at asserts clears
    simp only [delta] at asserts clears ⊢
    omega
  | clear =>
    simp only [if_true, reduceCtorEq, Pc.count.injEq, if_false] at asserts clears
    simp only [delta] at asserts clears ⊢
    omega

/-- A call that moves neither the counter nor `own_signal`, and owes nothing. -/
theorem lags_aside {drift : Int} {s t : State} {i : Nat} {old pc : Pc} (lags : Lags drift s)
    (here : s.calls[i]? = some old) (owed : ∀ d, old ≠ .count d) (owes : ∀ d, pc ≠ .count d)
    (same : t.calls = s.calls) (signal : t.signal = s.signal)
    (ownSignal : t.ownSignal = s.ownSignal) : Lags drift (t.at i pc) := by
  have move := owing_at here same pc
  simp only [owed, owes, if_false, Nat.add_zero] at move
  unfold Lags at lags ⊢
  simp only [at_signal, at_ownSignal, move, signal, ownSignal]
  exact lags

theorem lags_step {drift : Int} {s s' : State} {e : Event} (lags : Lags drift s)
    (quiet : Undisturbed s e) (taken : step s e = some s') : Lags drift s' := by
  cases e with
  | start c =>
    cases taken
    simpa only [Lags, owing_start] using lags
  | tick i =>
    obtain ⟨pc, here, moved⟩ := step_tick taken
    simp only [Undisturbed, here] at quiet
    cases pc with
    | load c =>
      cases moved
      refine lags_aside lags here (by simp) (fun d => ?_) rfl rfl rfl
      split <;> simp
    | store c =>
      cases moved
      have move := owing_at (t := { s with ownSignal := c.level }) here rfl (.count c)
      have asserts := move .assert
      have clears := move .clear
      unfold Lags at lags ⊢
      cases c with
      | assert =>
        have low : s.ownSignal = false := by simpa [Call.level] using quiet
        simp [low, Call.level, share] at lags asserts clears ⊢
        omega
      | clear =>
        have high : s.ownSignal = true := by simpa [Call.level] using quiet
        simp [high, Call.level, share] at lags asserts clears ⊢
        omega
    | count c =>
      cases moved
      apply lags_count lags here
      intro d
      split <;> simp
    | notify c oldVal =>
      cases moved
      exact lags_aside lags here (by simp) (by simp) rfl rfl rfl
    | done => cases moved
    | failed => cases moved

/-- Where the counter lags by nothing else, a `fetch_sub` meets a positive counter exactly
when the step is undisturbed. -/
theorem fetch_sub_accepted_iff {s : State} {i : Nat} (lags : Lags 0 s)
    (here : s.calls[i]? = some (.count .clear)) :
    accepts s.signal .clear = true ↔ Undisturbed s (.tick i) := by
  simp only [Undisturbed, here, accepts, decide_eq_true_eq]
  unfold Lags at lags
  omega

theorem inv_step {s s' : State} {e : Event} (inv : Inv s) (quiet : Undisturbed s e)
    (taken : step s e = some s') : Inv s' := by
  have lags := lags_step inv.lags quiet taken
  cases e with
  | start c =>
    cases taken
    refine ⟨lags, inv.nonneg, ?_⟩
    simpa [NeverFailed] using inv.neverFailed
  | tick i =>
    obtain ⟨pc, here, moved⟩ := step_tick taken
    cases pc with
    | load c =>
      cases moved
      refine ⟨lags, inv.nonneg, neverFailed_at inv.neverFailed ?_ i⟩
      split <;> simp
    | store c =>
      cases moved
      exact ⟨lags, inv.nonneg, neverFailed_at (s := { s with ownSignal := c.level })
        inv.neverFailed (by simp) i⟩
    | count c =>
      have accepted : accepts s.signal c = true := by
        cases c with
        | assert => simpa [accepts] using inv.nonneg
        | clear => exact (fetch_sub_accepted_iff inv.lags here).mpr quiet
      cases moved
      have grown : 0 ≤ s.signal + delta c := by
        cases c <;> simp only [accepts, delta, decide_eq_true_eq] at accepted ⊢ <;> omega
      exact ⟨lags, grown, neverFailed_at (s := { s with signal := s.signal + delta c })
        inv.neverFailed (by simp [accepted]) i⟩
    | notify c oldVal =>
      cases moved
      exact ⟨lags, inv.nonneg, neverFailed_at (s := { s with trigger := _ })
        inv.neverFailed (by simp) i⟩
    | done => cases moved
    | failed => cases moved

theorem owing_quiescent {s : State} (quiescent : Quiescent s) (c : Call) : owing c s = 0 := by
  apply List.count_eq_zero.mpr
  intro member
  rcases quiescent _ member with h | h <;> cases h

theorem Inv.sound {s : State} (inv : Inv s) : Sound s := by
  refine ⟨inv.neverFailed, ?_⟩
  intro quiescent
  have lags := inv.lags
  simpa [Lags, owing_quiescent quiescent, Contribution] using lags

def ofLine (l : Line) : State :=
  { kind := l.kind, ownSignal := l.ownSignal, signal := l.signal, trigger := l.trigger,
    calls := [] }

theorem ofLine_inv (l : Line) : Inv (ofLine l) := by
  refine ⟨?_, ?_, by simp [NeverFailed, ofLine]⟩
  · simp only [Lags, ofLine, owing, l.counted, share, List.count_nil]
    split <;> rfl
  · simp only [ofLine, l.counted]
    split <;> decide

/-- In every run whose steps are undisturbed no call sees the counter at 0 before its
`fetch_sub`, and between calls the counter holds just what `own_signal` says. -/
theorem undisturbed_runs_sound (l : Line) (es : List Event)
    (quiet : EveryStep step Undisturbed (ofLine l) es) : Always step Sound (ofLine l) es :=
  always_of_everyStep (fun _ _ _ inv good taken => inv_step inv good taken)
    (fun _ inv => inv.sound) (ofLine_inv l) quiet

/-- A clear that starts before an assert has moved the counter, and both end. -/
def overlapping : List Event :=
  [.start .assert, .tick 0, .tick 0, .start .clear, .tick 1, .tick 0, .tick 1, .tick 1, .tick 0, .tick 1]

theorem overlapping_clear_sound :
    (run step (ofLine (Line.new .hi)) overlapping).map (·.calls) = some [.done, .done] ∧
      Always step Sound (ofLine (Line.new .hi)) overlapping :=
  ⟨rfl, undisturbed_runs_sound _ _ (by simp [overlapping, EveryStep, step, tick, Undisturbed, ofLine,
    Line.new, State.at, Call.level, accepts, owing, share, delta])⟩

/-- A clear that runs between an assert's store and its `fetch_add` takes the counter
below 0. -/
theorem clear_inside_assert_fails :
    ∃ s, run step (ofLine (Line.new .hi)) [.start .assert, .tick 0, .tick 0,
      .start .clear, .tick 1, .tick 1, .tick 1] = some s ∧ ¬ Sound s := by
  refine ⟨_, rfl, fun sound => ?_⟩
  exact absurd sound.1 (by unfold NeverFailed; decide)

theorem lags_stale_store {s : State} {i : Nat} {c : Call} (lags : Lags 0 s)
    (here : s.calls[i]? = some (.store c)) (stale : s.ownSignal = c.level) :
    Lags (delta c) ({ s with ownSignal := c.level }.at i (.count c)) := by
  have move := owing_at (t := { s with ownSignal := c.level }) here rfl (.count c)
  have asserts := move .assert
  have clears := move .clear
  unfold Lags at lags ⊢
  cases c with
  | assert =>
    simp [stale, Call.level, share, delta] at lags asserts clears ⊢
    omega
  | clear =>
    simp [stale, Call.level, share, delta] at lags asserts clears ⊢
    omega

/-- After one such store, every later state without a call in progress has the counter wrong,
unless a second one makes up for it. -/
theorem stale_store_unsound {s s' t : State} {i : Nat} {c : Call} {es : List Event}
    (inv : Inv s) (here : s.calls[i]? = some (.store c)) (stale : s.ownSignal = c.level)
    (taken : step s (.tick i) = some s') (quiet : EveryStep step Undisturbed s' es)
    (reached : run step s' es = some t) (quiescent : Quiescent t) : ¬ Contribution t := by
  obtain ⟨pc, at_i, moved⟩ := step_tick taken
  rw [here] at at_i
  cases at_i
  cases moved
  have off := lags_stale_store inv.lags here stale
  have still : Lags (delta c) t :=
    run_of_everyStep (fun _ _ _ lags good next => lags_step lags good next) off quiet reached
  intro contribution
  simp only [Lags, owing_quiescent quiescent] at still
  unfold Contribution at contribution
  cases c <;> simp only [delta] at still <;> omega

/-- A call that nobody interrupts does to the line what the sequential call does. -/
theorem uninterrupted_call (l : Line) (c : Call) :
    ∃ n s, run step (ofLine l) (.start c :: List.replicate n (.tick 0)) = some s ∧
      Quiescent s ∧ s.ownSignal = (l.call c).ownSignal ∧ s.signal = (l.call c).signal ∧
      s.trigger = (l.call c).trigger := by
  by_cases early : l.ownSignal = c.level
  · refine ⟨1, { ofLine l with calls := [.done] }, ?_, by simp [Quiescent], ?_⟩
    · simp [run, step, tick, ofLine, early, State.at]
    · cases c <;> simp_all [Call.level, Line.call, Line.assert, Line.clear, ofLine]
  · have accepted : accepts l.signal c = true := by
      cases c <;> simp_all [accepts, Call.level, l.counted]
    refine ⟨4, ⟨l.kind, c.level, l.signal + delta c,
      l.kind.fires (l.signal ≠ 0) c.level || l.trigger, [.done]⟩, ?_, by simp [Quiescent], ?_⟩
    · simp [run, step, tick, ofLine, early, State.at, accepted]
    · cases c <;> simp_all [Call.level, Line.call, Line.assert, Line.clear, delta, Int.sub_eq_add_neg]

end Clicky.Atomic
