import Clicky.CfgTimer

/-! Runs of the timer and its task. What the task has received lags behind what the registers
say, and a timeout that the task has seen is not taken back any more. -/
namespace Clicky
open Runs

namespace TimerEvent

/-- A write to Config with the enable bit set. -/
def Enables : TimerEvent → Prop
  | .write offset val => offset = 0x0 ∧ val.getBit 31 = true
  | _ => False

def Disables : TimerEvent → Prop
  | .write offset val => offset = 0x0 ∧ val.getBit 31 = false
  | _ => False

end TimerEvent

namespace TimedTimer

/-- The state of the task once it has received every message there is. -/
def received (s : TimedTimer) : InterrupterState :=
  s.timer.interrupterTx.getLast?.getD s.task.state

/-- No interrupt after the next read of Val, for as long as the timer is not enabled. -/
def SilentAfterAck (s : TimedTimer) : Prop :=
  ∀ after s', (∀ e ∈ after, ¬ e.Enables) → run step s (.read 0x4 :: after) = some s' →
    s'.timer.irq.asserted = false

/-- What a write to Config that enables the timer asks for. -/
def asked (now : Nat) (val : U32) : InterrupterState :=
  let period := (val.getBits 0 28).toNat * 1000
  if val.getBit 30 then .repeating (now + period) period else .oneshot (now + period)

/-- With no message in the channel, the task does what Config reads back. -/
def RunsAsReported (s : TimedTimer) : Prop :=
  s.timer.interrupterTx = [] → ∀ timer cfg, s.timer.r32 s.now 0x0 = .ok timer cfg →
    (cfg.getBit 31 = true → cfg.getBit 30 = true →
      ∃ next, s.task.state = .repeating next ((cfg.getBits 0 28).toNat * 1000)) ∧
    (cfg.getBit 31 = false → s.task.state = .disabled)

/-- The task is told of a write that enables the timer, or changes its counter or repetition. -/
def TakesEffect (s : TimedTimer) : TimerEvent → Prop
  | .write offset val => offset = 0x0 → val.getBit 31 = true →
    (s.timer.enable = false ∨ val.getBits 0 28 ≠ s.timer.counter ∨
      val.getBit 30 ≠ s.timer.isRepeat) →
    ∀ s', s.step (.write offset val) = some s' →
      s'.timer.interrupterTx = s.timer.interrupterTx ++ [asked s.now val]
  | _ => True

/-- A timer that is enabled, and stays so, keeps its counter and its repetition. -/
def KeepsProgram (s : TimedTimer) : TimerEvent → Prop
  | .write offset val => offset = 0x0 → val.getBit 31 = true → s.timer.enable = true →
    val.getBits 0 28 = s.timer.counter ∧ val.getBit 30 = s.timer.isRepeat
  | _ => True

/-- How a write to Config leaves the timer, its counting apart. -/
theorem write_config {s s' : TimedTimer} {val : U32} (stepped : s.step (.write 0x0 val) = some s') :
    s'.now = s.now ∧ s'.task = s.task ∧ s'.timer.irq = s.timer.irq ∧
      s'.timer.counter = val.getBits 0 28 ∧ s'.timer.isRepeat = val.getBit 30 ∧
      s'.timer.enable = val.getBit 31 ∧
      s'.timer.interrupterTx = s.timer.interrupterTx ++
        (if val.getBit 31 then if s.timer.enable then [] else [asked s.now val]
          else [.disabled]) := by
  rw [step] at stepped
  obtain ⟨timer, done, rfl⟩ := Option.map_eq_some_iff.mp stepped
  obtain ⟨v, last, rfl⟩ := CfgTimer.w32_leaves done
  rw [if_pos rfl, CfgTimer.announce, CfgTimer.newState]
  cases enabled : val.getBit 31 <;> cases before : s.timer.enable <;>
    simp [CfgTimer.setConfig, CfgTimer.send, CfgTimer.started, asked, enabled]

theorem receive_eq_some {s s' : TimedTimer} (received : s.receive = some s') :
    s.task.interrupting = false ∧ ∃ message rest, s.timer.interrupterTx = message :: rest ∧
      s' = { s with timer.interrupterTx := rest, task.state := message } := by
  unfold receive at received
  split at received
  · cases received
  · rename_i waiting
    split at received
    · cases received
    · rename_i message rest found
      cases received
      exact ⟨Bool.eq_false_iff.mpr waiting, message, rest, found, rfl⟩

theorem timeout_eq_some {s s' : TimedTimer} (ended : s.timeout = some s') :
    s.timer.interrupterTx = [] ∧ (∃ next, s.task.state.next? = some next) ∧
      s' = { s with task.interrupting := true } := by
  unfold timeout at ended
  split at ended
  · cases ended
  · rename_i waiting
    split at ended
    · cases ended
    · rename_i next found
      split at ended
      · cases ended
        exact ⟨by simpa using (not_or.mp waiting).2, ⟨next, found⟩, rfl⟩
      · cases ended

theorem interrupt_eq_some {s s' : TimedTimer} (raised : s.interrupt = some s') :
    s.task.interrupting = true ∧ ∃ state, s.task.state.rearmed = some state ∧
      s' = { s with timer.irq := s.timer.irq.assert, task := { state } } := by
  unfold interrupt at raised
  split at raised
  · rename_i interrupting
    obtain ⟨state, rearmed, rfl⟩ := Option.map_eq_some_iff.mp raised
    exact ⟨interrupting, state, rearmed, rfl⟩
  · cases raised

/-- What a step does that is not a write to Config. -/
theorem step_cases {s s' : TimedTimer} {e : TimerEvent} (stepped : s.step e = some s') :
    (∃ val, e = .write 0x0 val) ∨
    ((∀ val, e ≠ .write 0x0 val) ∧
      ∃ now val last irq, (irq = s.timer.irq ∨ irq = s.timer.irq.clear) ∧
        s' = { s with now, timer := { s.timer with val, last, irq } }) ∨
    (e = .receive ∧ s.task.interrupting = false ∧ ∃ message rest,
      s.timer.interrupterTx = message :: rest ∧
        s' = { s with timer.interrupterTx := rest, task.state := message }) ∨
    (e = .timeout ∧ s.timer.interrupterTx = [] ∧ (∃ next, s.task.state.next? = some next) ∧
      s' = { s with task.interrupting := true }) ∨
    (e = .interrupt ∧ s.task.interrupting = true ∧ ∃ state, s.task.state.rearmed = some state ∧
      s' = { s with timer.irq := s.timer.irq.assert, task := { state } }) := by
  cases e with
  | wait duration =>
    cases stepped
    exact .inr (.inl ⟨nofun, _, s.timer.val, s.timer.last, s.timer.irq, .inl rfl, rfl⟩)
  | read offset =>
    rw [step] at stepped
    obtain ⟨timer, done, rfl⟩ := Option.map_eq_some_iff.mp stepped
    obtain ⟨val, last, rfl⟩ := CfgTimer.r32_leaves done
    refine .inr (.inl ⟨nofun, s.now, val, last, _, ?_, rfl⟩)
    split
    · exact .inr rfl
    · exact .inl rfl
  | write offset val =>
    rw [step] at stepped
    obtain ⟨timer, done, rfl⟩ := Option.map_eq_some_iff.mp stepped
    obtain ⟨v, last, rfl⟩ := CfgTimer.w32_leaves done
    split
    · rename_i config
      exact .inl ⟨val, by rw [config]⟩
    · rename_i elsewhere
      refine .inr (.inl ⟨fun _ same => ?_, s.now, v, last, s.timer.irq, .inl rfl, rfl⟩)
      cases same
      exact elsewhere rfl
  | receive => exact .inr (.inr (.inl ⟨rfl, receive_eq_some stepped⟩))
  | timeout => exact .inr (.inr (.inr (.inl ⟨rfl, timeout_eq_some stepped⟩)))
  | interrupt => exact .inr (.inr (.inr (.inr ⟨rfl, interrupt_eq_some stepped⟩)))

/-- `armed` is why the task does not come to its `unreachable!`. -/
structure Consistent (s : TimedTimer) : Prop where
  armed : s.task.interrupting = true → ∃ state, s.task.state.rearmed = some state
  disabled : s.timer.enable = false → s.received = .disabled

theorem received_write {s s' : TimedTimer} {val : U32}
    (stepped : s.step (.write 0x0 val) = some s') :
    s'.received = if val.getBit 31 then if s.timer.enable then s.received else asked s.now val
      else .disabled := by
  obtain ⟨_, task, _, _, _, _, messages⟩ := write_config stepped
  rw [received, messages, task]
  cases val.getBit 31 <;> cases s.timer.enable <;> simp [received]

/-- Any other step leaves the program alone. A message that the task receives is one it would
have come to anyway, and an interrupt shows only when there are no more messages. -/
theorem program_step {s s' : TimedTimer} {e : TimerEvent} (stepped : s.step e = some s')
    (other : ∀ val, e ≠ .write 0x0 val) :
    s'.timer.counter = s.timer.counter ∧ s'.timer.isRepeat = s.timer.isRepeat ∧
      s'.timer.enable = s.timer.enable ∧
      (s'.received = s.received ∨ s.received.rearmed = some s'.received) := by
  obtain ⟨val, same⟩ | ⟨_, _, _, _, _, _, rfl⟩ | ⟨_, _, message, rest, found, rfl⟩ |
    ⟨_, _, _, rfl⟩ | ⟨_, _, state, rearmed, rfl⟩ := step_cases stepped
  · exact absurd same (other val)
  · exact ⟨rfl, rfl, rfl, .inl rfl⟩
  · refine ⟨rfl, rfl, rfl, .inl ?_⟩
    unfold received
    rw [found, List.getLast?_cons]
    rfl
  · exact ⟨rfl, rfl, rfl, .inl rfl⟩
  · refine ⟨rfl, rfl, rfl, ?_⟩
    unfold received
    cases last : s.timer.interrupterTx.getLast? with
    | some message => exact .inl rfl
    | none => exact .inr rearmed

theorem Consistent.step {s s' : TimedTimer} {e : TimerEvent} (consistent : s.Consistent)
    (stepped : s.step e = some s') : s'.Consistent := by
  obtain ⟨val, rfl⟩ | other : (∃ val, e = .write 0x0 val) ∨ ∀ val, e ≠ .write 0x0 val :=
    or_iff_not_imp_left.mpr not_exists.mp
  · obtain ⟨_, task, _, _, _, enable, _⟩ := write_config stepped
    refine ⟨by rw [task]; exact consistent.armed, fun disabled => ?_⟩
    rw [enable] at disabled
    rw [received_write stepped, disabled]
    rfl
  · obtain ⟨_, _, enable, moved⟩ := program_step stepped other
    constructor
    · obtain ⟨_, same⟩ | ⟨_, _, _, _, _, _, rfl⟩ | ⟨_, waiting, _, _, _, rfl⟩ |
        ⟨_, _, ⟨next, due⟩, rfl⟩ | ⟨_, _, _, _, rfl⟩ := step_cases stepped
      · exact absurd same (other _)
      · exact consistent.armed
      · exact fun interrupting => absurd (waiting.symm.trans interrupting) Bool.false_ne_true
      · intro _
        cases state : s.task.state with
        | disabled =>
          rw [state] at due
          cases due
        | oneshot next | repeating next period => exact ⟨_, rfl⟩
      · exact fun impossible => absurd impossible Bool.false_ne_true
    · intro disabled
      have before := consistent.disabled (enable.symm.trans disabled)
      rcases moved with same | rearmed
      · exact same.trans before
      · rw [before] at rearmed
        cases rearmed

theorem consistent_powerUp : powerUp.Consistent := ⟨nofun, fun _ => rfl⟩

theorem consistent_of_run {es : List TimerEvent} {s : TimedTimer}
    (reached : run step powerUp es = some s) : s.Consistent := by
  have always : Always step Consistent powerUp es :=
    always_of_invariant (fun _ _ _ before => before.step) (fun _ => id) consistent_powerUp es
  exact always.run reached

theorem not_config {e : TimerEvent} (other : ∀ val, e ≠ .write 0x0 val) :
    ¬ e.Enables ∧ ¬ e.Disables := by
  cases e with
  | write offset val =>
    exact ⟨fun on => other val (by rw [on.1]), fun off => other val (by rw [off.1])⟩
  | _ => exact ⟨id, id⟩

/-- Nothing but a write to Config changes the enable bit. -/
theorem enable_step {s s' : TimedTimer} {e : TimerEvent} (stepped : s.step e = some s') :
    s'.timer.enable = true ↔ e.Enables ∨ s.timer.enable = true ∧ ¬ e.Disables := by
  obtain ⟨val, rfl⟩ | other : (∃ val, e = .write 0x0 val) ∨ ∀ val, e ≠ .write 0x0 val :=
    or_iff_not_imp_left.mpr not_exists.mp
  · obtain ⟨_, _, _, _, _, enable, _⟩ := write_config stepped
    rw [enable]
    cases on : val.getBit 31 <;> simp [TimerEvent.Enables, TimerEvent.Disables, on]
  · obtain ⟨_, _, enable, _⟩ := program_step stepped other
    obtain ⟨enables, disables⟩ := not_config other
    simp [enable, enables, disables]

/-- A timer that was disabled, and not enabled since, is disabled. -/
theorem disabled_of_since {es : List TimerEvent} {s : TimedTimer}
    (reached : run step powerUp es = some s)
    (since : Since TimerEvent.Enables TimerEvent.Disables es) : s.timer.enable = false := by
  refine run_history (P := fun es s => Since TimerEvent.Enables TimerEvent.Disables es →
    s.timer.enable = false) (fun none => absurd none (since_nil _ _)) ?_ reached since
  intro es s e s' before stepped since
  rw [← Bool.not_eq_true, enable_step stepped]
  rcases (since_concat ..).mp since with disables | ⟨earlier, off⟩
  · rintro (enables | ⟨_, stays⟩)
    · cases e with
      | write offset val => exact absurd (enables.2.symm.trans disables.2) (by decide)
      | _ => exact enables
    · exact stays disables
  · rintro (enables | ⟨on, _⟩)
    · exact off enables
    · rw [before earlier] at on
      cases on

/-- What is promised of a disabled timer while it has not been enabled again. -/
structure Quiet (s : TimedTimer) : Prop where
  consistent : s.Consistent
  disabled : s.timer.enable = false
  waiting : s.task.interrupting = false
  low : s.timer.irq.asserted = false

theorem Quiet.step {s s' : TimedTimer} {e : TimerEvent} (quiet : s.Quiet) (off : ¬ e.Enables)
    (stepped : s.step e = some s') : s'.Quiet := by
  have consistent := quiet.consistent.step stepped
  have disabled : s'.timer.enable = false := by
    rw [← Bool.not_eq_true, enable_step stepped, quiet.disabled]
    exact not_or.mpr ⟨off, fun on => Bool.false_ne_true on.1⟩
  obtain ⟨val, rfl⟩ | ⟨_, _, _, _, irq, same, rfl⟩ | ⟨_, waiting, _, _, _, rfl⟩ |
    ⟨_, empty, ⟨next, due⟩, rfl⟩ | ⟨_, interrupting, _⟩ := step_cases stepped
  · obtain ⟨_, task, irq, _⟩ := write_config stepped
    exact ⟨consistent, disabled, by rw [task]; exact quiet.waiting, by rw [irq]; exact quiet.low⟩
  · refine ⟨consistent, disabled, quiet.waiting, ?_⟩
    rcases same with rfl | rfl
    · exact quiet.low
    · simp
  · exact ⟨consistent, disabled, waiting, quiet.low⟩
  · -- there is no timeout to wait for
    have state := quiet.consistent.disabled quiet.disabled
    rw [received, empty] at state
    change s.task.state = .disabled at state
    rw [state] at due
    cases due
  · rw [quiet.waiting] at interrupting
    cases interrupting

theorem read_val (s : TimedTimer) : ∃ val last,
    s.step (.read 0x4) =
      some { s with timer := { s.timer with val, last, irq := s.timer.irq.clear } } := by
  obtain ⟨val, last, updated⟩ := s.timer.updateRegs_eq s.now
  refine ⟨val, last, ?_⟩
  rw [step]
  unfold CfgTimer.r32
  rw [updated]
  rfl

theorem silentAfterAck_iff {s : TimedTimer} (consistent : s.Consistent)
    (disabled : s.timer.enable = false) : s.SilentAfterAck ↔ s.task.interrupting = false := by
  obtain ⟨val, last, read⟩ := s.read_val
  constructor
  · intro silent
    rw [← Bool.not_eq_true]
    intro interrupting
    obtain ⟨state, rearmed⟩ := consistent.armed interrupting
    have off : ∀ e ∈ [TimerEvent.interrupt], ¬ e.Enables := by
      intro e member
      rw [List.mem_singleton.mp member]
      exact id
    have low := silent [.interrupt] _ off (by
      rw [run, read, Option.bind_some, run, step, interrupt, if_pos interrupting, rearmed]
      rfl)
    simp at low
  · intro waiting after s' off reached
    rw [run, read] at reached
    have stays_off (acked : TimedTimer) : EveryStep step (fun _ e => ¬ e.Enables) acked after :=
      everyStep_of_mem off acked
    have quiet : Quiet s' := run_of_everyStep (fun _ _ _ quiet off => Quiet.step quiet off)
      ⟨consistent.step read, disabled, waiting, by simp⟩ (stays_off _) reached
    exact quiet.low

/-- A timer that the guest has disabled does not interrupt after the next read of Val exactly when
the task is not about to interrupt at that read. -/
theorem disabled_timer_silent_iff (before : List TimerEvent) :
    (∀ s, run step powerUp before = some s →
      Since TimerEvent.Enables TimerEvent.Disables before → s.SilentAfterAck) ↔
    (∀ s, run step powerUp before = some s →
      Since TimerEvent.Enables TimerEvent.Disables before → s.task.interrupting = false) := by
  have same : ∀ s, run step powerUp before = some s →
      Since TimerEvent.Enables TimerEvent.Disables before →
        (s.SilentAfterAck ↔ s.task.interrupting = false) := fun s reached since =>
    silentAfterAck_iff (consistent_of_run reached) (disabled_of_since reached since)
  constructor
  · exact fun silent s reached since => (same s reached since).mp (silent s reached since)
  · exact fun waiting s reached since => (same s reached since).mpr (waiting s reached since)

/-- Ten microseconds are over, and the task has seen it, when the guest disables the timer and
acknowledges. -/
def raced : List TimerEvent :=
  [.write 0x0 0x8000000a, .receive, .wait 10000, .timeout, .write 0x0 0x0]

theorem late_interrupt :
    ¬ ∀ s, run step powerUp raced = some s →
      Since TimerEvent.Enables TimerEvent.Disables raced → s.SilentAfterAck := by
  intro silent
  have since : Since TimerEvent.Enables TimerEvent.Disables raced :=
    ⟨[.write 0x0 0x8000000a, .receive, .wait 10000, .timeout], .write 0x0 0x0, [], rfl,
      ⟨rfl, by decide⟩, nofun⟩
  have off : ∀ e ∈ [TimerEvent.interrupt], ¬ e.Enables := by
    intro e member
    rw [List.mem_singleton.mp member]
    exact id
  exact absurd (silent _ rfl since [.interrupt] _ off rfl) (by decide)

theorem read_config {s : TimedTimer} {timer : CfgTimer} {cfg : U32}
    (read : s.timer.r32 s.now 0x0 = .ok timer cfg) :
    cfg.getBit 31 = s.timer.enable ∧ cfg.getBit 30 = s.timer.isRepeat ∧
      cfg.getBits 0 28 = s.timer.counter.getBits 0 28 := by
  obtain ⟨val, last, updated⟩ := s.timer.updateRegs_eq s.now
  unfold CfgTimer.r32 at read
  rw [updated] at read
  cases read
  unfold CfgTimer.config
  refine ⟨by simp, by simp, ?_⟩
  rw [BitVec.getBits_setBit_of_lt _ (by decide), BitVec.getBits_setBit_of_lt _ (by decide),
    BitVec.getBits_setBit_of_lt _ (by decide), BitVec.getBits_setBits _ _ (by decide) (by decide)]

/-- The registers and what the task has been told agree. -/
structure Programmed (s : TimedTimer) : Prop where
  consistent : s.Consistent
  counter : s.timer.counter.getBits 0 28 = s.timer.counter
  repeating : s.timer.enable = true → s.timer.isRepeat = true →
    ∃ next, s.received = .repeating next (s.timer.counter.toNat * 1000)

theorem Programmed.step {s s' : TimedTimer} {e : TimerEvent} (programmed : s.Programmed)
    (keeps : s.KeepsProgram e) (stepped : s.step e = some s') : s'.Programmed := by
  refine ⟨programmed.consistent.step stepped, ?_, ?_⟩
  all_goals obtain ⟨val, rfl⟩ | other : (∃ val, e = .write 0x0 val) ∨ ∀ val, e ≠ .write 0x0 val :=
    or_iff_not_imp_left.mpr not_exists.mp
  · obtain ⟨_, _, _, counter, _⟩ := write_config stepped
    rw [counter, BitVec.getBits_getBits]
  · rw [(program_step stepped other).1]
    exact programmed.counter
  · obtain ⟨_, _, _, counter, isRepeat, enable, _⟩ := write_config stepped
    intro enabled repeats
    rw [enable] at enabled
    rw [isRepeat] at repeats
    rw [received_write stepped, enabled, if_pos rfl, counter]
    split
    · rename_i before
      obtain ⟨sameCounter, sameRepeat⟩ := keeps rfl enabled before
      rw [sameCounter]
      exact programmed.repeating before (sameRepeat.symm.trans repeats)
    · rw [asked, repeats]
      exact ⟨_, rfl⟩
  · obtain ⟨counter, isRepeat, enable, moved⟩ := program_step stepped other
    rw [counter, isRepeat, enable]
    intro enabled repeats
    obtain ⟨next, before⟩ := programmed.repeating enabled repeats
    rcases moved with same | rearmed
    · exact ⟨next, same.trans before⟩
    · rw [before] at rearmed
      exact ⟨_, (Option.some.inj rearmed).symm⟩

theorem Programmed.runsAsReported {s : TimedTimer} (programmed : s.Programmed) :
    s.RunsAsReported := by
  intro empty timer cfg read
  obtain ⟨enable, isRepeat, counter⟩ := read_config read
  have state : s.received = s.task.state := by
    rw [received, empty]
    rfl
  rw [enable, isRepeat, counter, programmed.counter, ← state]
  exact ⟨programmed.repeating, programmed.consistent.disabled⟩

theorem takesEffect_iff {s s' : TimedTimer} {e : TimerEvent} (stepped : s.step e = some s') :
    s.TakesEffect e ↔ s.KeepsProgram e := by
  cases e with
  | write offset val =>
    constructor
    · rintro told rfl enabled before
      by_contra changed
      have sent := told rfl enabled (.inr (not_and_or.mp changed)) s' stepped
      obtain ⟨_, _, _, _, _, _, messages⟩ := write_config stepped
      rw [messages, enabled, before] at sent
      simp at sent
    · rintro keeps rfl enabled effective s'' again
      obtain ⟨_, _, _, _, _, _, messages⟩ := write_config again
      rw [messages, enabled, if_pos rfl]
      cases before : s.timer.enable with
      | false => rfl
      | true =>
        obtain ⟨counter, isRepeat⟩ := keeps rfl enabled before
        rcases effective with off | changed | changed
        · rw [before] at off
          cases off
        · exact absurd counter changed
        · exact absurd isRepeat changed
  | _ => exact Iff.rfl

/-- The timer runs throughout as its registers say, and every write that enables or reprograms it
takes effect, exactly when no write changes the program of a timer that stays enabled. -/
theorem timer_runs_as_reported_iff (es : List TimerEvent) :
    Always step RunsAsReported powerUp es ∧ EveryStep step TakesEffect powerUp es ↔
      EveryStep step KeepsProgram powerUp es := by
  have same : EveryStep step TakesEffect powerUp es ↔ EveryStep step KeepsProgram powerUp es :=
    everyStep_iff (fun _ _ _ => takesEffect_iff) powerUp es
  constructor
  · exact fun promised => same.mp promised.2
  · intro keeps
    refine ⟨always_of_everyStep (I := Programmed) (fun _ _ _ before kept => before.step kept)
      (fun _ => Programmed.runsAsReported) ⟨consistent_powerUp, by decide, nofun⟩ keeps, ?_⟩
    exact same.mpr keeps

/-- The timer repeats every ten microseconds, and is then told to do so every twenty. -/
theorem reprogramming_lost :
    ¬ (Always step RunsAsReported powerUp
        [.write 0x0 0xc000000a, .receive, .write 0x0 0xc0000014] ∧
      EveryStep step TakesEffect powerUp
        [.write 0x0 0xc000000a, .receive, .write 0x0 0xc0000014]) := by
  rintro ⟨runs, _⟩
  have reached : run step powerUp [.write 0x0 0xc000000a, .receive, .write 0x0 0xc0000014] =
      some _ := rfl
  obtain ⟨period, _⟩ := (runs.run reached) rfl _ _ rfl
  obtain ⟨_, same⟩ := period (by decide) (by decide)
  injection same with _ apart
  exact absurd apart (by decide)

end TimedTimer
end Clicky
