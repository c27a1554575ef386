import Clicky.CpuCon
import Clicky.FatalAccess

/-! Runs of the CPU controller. The writes to a control word are counted, and it is noted down
which of them put its core to sleep and which of them started each timer. The controller itself
keeps neither. -/
namespace Clicky
open Runs

namespace CpuCon

inductive Event where
  | access (a : GuestAccess)
  | interrupt (id : CpuId)
  | elapse (i : Nat)
  deriving DecidableEq, Repr

def ctlOf (offset val : U32) : Option (CpuId × U32) :=
  if offset = 0x0 then some (.cpu, val) else if offset = 0x4 then some (.cop, val) else none

/-- The control word an access writes, if it does. -/
def written : GuestAccess → Option (CpuId × U32)
  | .w8 offset val => ctlOf offset (val.setWidth 32)
  | .w16 offset val => ctlOf offset (val.setWidth 32)
  | .w32 offset val => ctlOf offset val
  | .r8 _ | .r16 _ | .r32 _ | .x16 _ | .x32 _ => none

/-- `wait` is the write that began the sleep a core is in; `started` goes with the tasks. -/
structure Watched where
  cpucon : CpuCon := {}
  writes : CpuId → Nat := fun _ => 0
  wait : CpuId → Option Nat := fun _ => none
  started : List Nat := []

namespace Watched

def asleep (w : Watched) (id : CpuId) : Bool := !w.cpucon.isCpuRunning id

def count (w : Watched) (writer : Option CpuId) (id : CpuId) : Nat :=
  if writer = some id then w.writes id + 1 else w.writes id

/-- The controller has moved on to `cpucon`, by a write to the word of `writer` if there is one. -/
def moved (w : Watched) (cpucon : CpuCon) (writer : Option CpuId) (started : List Nat) : Watched :=
  { cpucon, started, writes := w.count writer
    wait := fun id => if cpucon.isCpuRunning id then none
      else if writer = some id then some (w.count writer id) else w.wait id }

def step (w : Watched) : Event → Option Watched
  | .access a => (MemoryAdapter.busAccess w.cpucon a).state?.map fun cpucon =>
    let writer := (written a).map Prod.fst
    let spawned := cpucon.tasks.drop w.cpucon.tasks.length
    w.moved cpucon writer (w.started ++ spawned.map fun task => w.count writer task.core)
  | .interrupt id => some (w.moved (w.cpucon.wakeOnInterrupt id) none w.started)
  | .elapse i => (w.cpucon.elapse i).map fun cpucon =>
    w.moved cpucon none (w.started.eraseIdx i)

/-- A timer wakes up no core but its own, and that one only out of the sleep that began with the
write that started the timer. -/
def OnlyItsWait (w : Watched) : Event → Prop
  | .elapse i => ∀ w' id, w.step (.elapse i) = some w' → w.asleep id → ¬ w'.asleep id →
    (∃ task, w.cpucon.tasks[i]? = some task ∧ task.core = id) ∧ w.wait id = w.started[i]?
  | _ => True

/-- The core of the timer is awake, or the write that started the timer is the last one to its
control word. -/
def NotRewritten (w : Watched) : Event → Prop
  | .elapse i => ∀ task, w.cpucon.tasks[i]? = some task →
    w.cpucon.isCpuRunning task.core ∨ w.started[i]? = some (w.writes task.core)
  | _ => True

end Watched

@[simp] theorem ctl_setCtl (s : CpuCon) (id other : CpuId) (val : U32) :
    (s.setCtl id val).ctl other = if other = id then val else s.ctl other := by
  cases id <;> cases other <;> rfl

@[simp] theorem tasks_setCtl (s : CpuCon) (id : CpuId) (val : U32) :
    (s.setCtl id val).tasks = s.tasks := by
  cases id <;> rfl

theorem flow_clearFlow (ctl : U32) : flow (clearFlow ctl) = 0 := by
  rw [flow, clearFlow, BitVec.getBits_setBits ctl 0 (by decide) (by decide)]
  rfl

/-- The word is in place whether or not what it asks for can be done. -/
theorem ctl_store {s s' : CpuCon} {id : CpuId} {val : U32}
    (stored : (s.store id val).state? = some s') (other : CpuId) :
    s'.ctl other = if other = id then val else s.ctl other := by
  rw [← ctl_setCtl]
  unfold store onUpdateCpuctl checkWakeInt at stored
  repeat' split at stored
  all_goals
    cases stored
    cases other <;> rfl

theorem ctl_w32 {s s' : CpuCon} {offset val : U32} (done : (s.w32 offset val).state? = some s')
    (id : CpuId) : s'.ctl id = s.ctl id ∨ (ctlOf offset val).map Prod.fst = some id := by
  unfold w32 at done
  unfold ctlOf
  split at done
  · rw [ctl_store done id]
    split
    · rename_i same
      exact .inr (congrArg some same.symm)
    · exact .inl rfl
  · rw [ctl_store done id]
    split
    · rename_i same
      exact .inr (congrArg some same.symm)
    · exact .inl rfl
  · cases done
    exact .inl rfl

theorem r32_state (s : CpuCon) (offset : U32) : (s.r32 offset).state? = some s := by
  unfold r32
  split <;> rfl

theorem narrow_read_state {α : Type} (s : CpuCon) (offset : U32) (f : U32 → α) :
    (if offset &&& 0x3 ≠ 0 then Outcome.raise s MemException.misaligned
      else (s.r32 offset).map f).state? = some s := by
  split
  · rfl
  · rw [Outcome.state?_map, r32_state]

theorem ctl_narrow_write {s s' : CpuCon} {offset val : U32}
    (done : (if offset &&& 0x3 ≠ 0 then Outcome.raise s MemException.misaligned
      else s.w32 offset val).state? = some s') (id : CpuId) :
    s'.ctl id = s.ctl id ∨ (ctlOf offset val).map Prod.fst = some id := by
  split at done
  · cases done
    exact .inl rfl
  · exact ctl_w32 done id

/-- A core has the control word it had, or it is the one whose word the access writes. -/
theorem ctl_access {s s' : CpuCon} {a : GuestAccess}
    (done : (MemoryAdapter.busAccess s a).state? = some s') (id : CpuId) :
    s'.ctl id = s.ctl id ∨ (written a).map Prod.fst = some id := by
  cases a with
  | r8 offset | r16 offset | x16 offset =>
    cases (narrow_read_state s offset _).symm.trans ((Outcome.state?_map ..).symm.trans done)
    exact .inl rfl
  | r32 offset | x32 offset =>
    cases (r32_state s offset).symm.trans ((Outcome.state?_map ..).symm.trans done)
    exact .inl rfl
  | w8 offset val | w16 offset val => exact ctl_narrow_write done id
  | w32 offset val => exact ctl_w32 done id

theorem isCpuRunning_eq (s : CpuCon) (id : CpuId) :
    s.isCpuRunning id = true ↔ flow (s.ctl id) = 0 := by
  unfold isCpuRunning
  exact decide_eq_true_iff

theorem isCpuRunning_congr {s s' : CpuCon} {id : CpuId} (same : s'.ctl id = s.ctl id) :
    s'.isCpuRunning id = s.isCpuRunning id := by
  unfold isCpuRunning
  rw [same]

theorem isCpuRunning_wakeOnInterrupt {s : CpuCon} {other : CpuId}
    (running : s.isCpuRunning other) (id : CpuId) : (s.wakeOnInterrupt id).isCpuRunning other := by
  unfold wakeOnInterrupt
  split
  · rw [isCpuRunning_eq, ctl_setCtl]
    split
    · exact flow_clearFlow _
    · exact (s.isCpuRunning_eq other).mp running
  · exact running

/-- A timer puts its own core on the run, and leaves the other one alone. -/
theorem isCpuRunning_elapse {s s' : CpuCon} {i : Nat} (elapsed : s.elapse i = some s') :
    ∃ task, s.tasks[i]? = some task ∧ ∀ id,
      s'.isCpuRunning id = (decide (id = task.core) || s.isCpuRunning id) := by
  obtain ⟨task, found, rfl⟩ := Option.map_eq_some_iff.mp elapsed
  refine ⟨task, found, fun id => ?_⟩
  have word : ctl { s.setCtl task.core (clearFlow (s.ctl task.core)) with
      tasks := s.tasks.eraseIdx i } id =
        if id = task.core then clearFlow (s.ctl task.core) else s.ctl id := by
    rw [← ctl_setCtl]
    cases id <;> rfl
  by_cases own : id = task.core
  · simp [own] at word
    simp [isCpuRunning, own, word, flow_clearFlow]
  · simp [own] at word
    simp [isCpuRunning, own, word]

namespace Watched

/-- A core that sleeps does so since the last write to its control word. -/
def LastPutToSleep (w : Watched) : Prop :=
  ∀ id, w.wait id = if w.cpucon.isCpuRunning id then none else some (w.writes id)

theorem LastPutToSleep.moved {w : Watched} (known : w.LastPutToSleep) {cpucon : CpuCon}
    {writer : Option CpuId} (started : List Nat)
    (falls_asleep : ∀ id, w.cpucon.isCpuRunning id → ¬ cpucon.isCpuRunning id → writer = some id) :
    (w.moved cpucon writer started).LastPutToSleep := by
  intro id
  change (if cpucon.isCpuRunning id then none else if writer = some id then some (w.count writer id)
    else w.wait id) = if cpucon.isCpuRunning id then none else some (w.count writer id)
  by_cases running : cpucon.isCpuRunning id = true
  · rw [if_pos running, if_pos running]
  · rw [if_neg running, if_neg running]
    by_cases own : writer = some id
    · rw [if_pos own]
    · have slept : ¬ w.cpucon.isCpuRunning id := fun before => own (falls_asleep id before running)
      rw [if_neg own, known id, if_neg slept, count, if_neg own]

theorem LastPutToSleep.step {w w' : Watched} {e : Event} (known : w.LastPutToSleep)
    (stepped : w.step e = some w') : w'.LastPutToSleep := by
  cases e with
  | access a =>
    obtain ⟨cpucon, done, rfl⟩ := Option.map_eq_some_iff.mp stepped
    refine known.moved _ fun id running asleep => ?_
    rcases ctl_access done id with same | own
    · rw [isCpuRunning_congr same] at asleep
      exact absurd running asleep
    · exact own
  | interrupt id =>
    cases stepped
    exact known.moved _ fun other running asleep =>
      absurd (isCpuRunning_wakeOnInterrupt running id) asleep
  | elapse i =>
    obtain ⟨cpucon, elapsed, rfl⟩ := Option.map_eq_some_iff.mp stepped
    obtain ⟨task, _, woken⟩ := isCpuRunning_elapse elapsed
    refine known.moved _ fun other running asleep => ?_
    rw [woken, running, Bool.or_true] at asleep
    exact absurd rfl asleep

theorem onlyItsWait_iff {w : Watched} (known : w.LastPutToSleep) (e : Event) :
    w.OnlyItsWait e ↔ w.NotRewritten e := by
  cases e with
  | access a | interrupt id => exact Iff.rfl
  | elapse i =>
    constructor
    · intro own task found
      cases running : w.cpucon.isCpuRunning task.core with
      | true => exact .inl rfl
      | false =>
        obtain ⟨cpucon, elapsed⟩ : ∃ cpucon, w.cpucon.elapse i = some cpucon :=
          ⟨_, by rw [elapse, found]; rfl⟩
        obtain ⟨task', found', woken⟩ := isCpuRunning_elapse elapsed
        cases found.symm.trans found'
        have stepped : w.step (.elapse i) = some (w.moved cpucon none (w.started.eraseIdx i)) := by
          rw [Watched.step, elapsed]
          rfl
        obtain ⟨_, same⟩ := own _ task.core stepped (by simp [asleep, running])
          (by simp [asleep, Watched.moved, woken])
        rw [known, running] at same
        exact .inr same.symm
    · intro last w' id stepped slept awake
      obtain ⟨cpucon, elapsed, rfl⟩ := Option.map_eq_some_iff.mp stepped
      obtain ⟨task, found, woken⟩ := isCpuRunning_elapse elapsed
      have still : w.cpucon.isCpuRunning id = false := by simpa [asleep] using slept
      have own : id = task.core := by simpa [asleep, Watched.moved, woken, still] using awake
      subst own
      refine ⟨⟨task, found, rfl⟩, ?_⟩
      rcases last task found with running | same
      · rw [still] at running
        cases running
      · rw [known, still, same]
        rfl

/-- No timer of a run ends another sleep than the one it was started for exactly when every timer
finds its core awake, or its control word as it was when the timer was started. -/
theorem timers_end_own_wait_iff (es : List Event) :
    BeforeEach step OnlyItsWait {} es ↔ BeforeEach step NotRewritten {} es := by
  have powerUp : LastPutToSleep {} := by
    intro id
    cases id <;> rfl
  exact beforeEach_iff (fun _ _ _ known stepped => known.step stepped)
    (fun _ e known => onlyItsWait_iff known e) es powerUp

/-- A sleep of ten milliseconds is cut short by an interrupt. The core goes to sleep again, until
there is another one, and the timer of the first sleep wakes it up. -/
theorem stale_timer_wakes :
    ¬ BeforeEach step OnlyItsWait {} [.access (.w32 0x0 0xc100000a), .interrupt .cpu,
      .access (.w32 0x0 0x80000000), .elapse 0] := by
  rintro ⟨_, h⟩
  obtain ⟨_, h⟩ := h _ rfl
  obtain ⟨_, h⟩ := h _ rfl
  obtain ⟨own, _⟩ := h _ rfl
  obtain ⟨_, same⟩ := own _ .cpu rfl (by decide) (by decide)
  exact absurd same (by decide)

end Watched
end CpuCon
end Clicky
