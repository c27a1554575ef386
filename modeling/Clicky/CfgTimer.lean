import Clicky.Memory
import Clicky.Signal

/-! The configurable timer: the device, and the task that interrupts for it. The device tells the
task what to do through a channel. Time is in nanoseconds. -/
namespace Clicky

inductive InterrupterState where
  | oneshot (next : Nat)
  | repeating (next period : Nat)
  | disabled
  deriving DecidableEq, Repr

namespace InterrupterState

/-- When the timeout is that the task waits for beside the channel. -/
def next? : InterrupterState → Option Nat
  | .disabled => none
  | .oneshot next | .repeating next _ => some next

/-- After an interrupt. There is none while disabled. -/
def rearmed : InterrupterState → Option InterrupterState
  | .disabled => none
  | .oneshot _ => some .disabled
  | .repeating next period => some (.repeating (next + period) period)

end InterrupterState

/-- The sending end of the channel is the list of the messages in it. It is not bounded, and the
receiver lives as long as the sender, so that a message can always be sent. -/
structure CfgTimer where
  irq : Line
  counter : U32 := 0
  unknownCfg : Bool := false
  isRepeat : Bool := false
  enable : Bool := false
  val : U32 := 0
  last : Nat := 0
  interrupterTx : List InterrupterState := []

namespace CfgTimer

/-- An instant that is less than a microsecond later counts from there on. -/
def updateRegs (s : CfgTimer) (now : Nat) : CfgTimer :=
  let elapsedAsMicros := BitVec.ofNat 32 ((now - s.last) / 1000)
  if elapsedAsMicros ≠ 0 then { s with val := s.val - elapsedAsMicros, last := now } else s

def config (s : CfgTimer) : U32 :=
  ((((0 : U32).setBits 0 28 s.counter).setBit 29 s.unknownCfg).setBit 30 s.isRepeat).setBit 31
    s.enable

def r32 (s : CfgTimer) (now : Nat) (offset : U32) : Access CfgTimer U32 :=
  let s := s.updateRegs now
  match offset with
  | 0x0 => .ok s s.config
  | 0x4 => .ok { s with irq := s.irq.clear } s.val
  | _ => .raise s .unexpected

def started (s : CfgTimer) (now : Nat) : InterrupterState :=
  let period := s.counter.toNat * 1000
  if s.isRepeat then .repeating (now + period) period else .oneshot (now + period)

def newState (s : CfgTimer) (now : Nat) (prevEnable : Bool) : Option InterrupterState :=
  if s.enable && !prevEnable then some (s.started now)
  else if !s.enable then some .disabled
  else none

def setConfig (s : CfgTimer) (val : U32) : CfgTimer :=
  { s with
    counter := val.getBits 0 28
    unknownCfg := val.getBit 29
    isRepeat := val.getBit 30
    enable := val.getBit 31 }

def send (s : CfgTimer) (message : InterrupterState) : CfgTimer :=
  { s with interrupterTx := s.interrupterTx ++ [message] }

/-- `last_interrupter_state` is not read anywhere, and left out. -/
def announce (s : CfgTimer) (now : Nat) (prevEnable : Bool) : CfgTimer :=
  match s.newState now prevEnable with
  | some newState => s.send newState
  | none => s

def w32 (s : CfgTimer) (now : Nat) (offset val : U32) : Access CfgTimer Unit :=
  let s := s.updateRegs now
  match offset with
  | 0x0 => .ok ((s.setConfig val).announce now s.enable) ()
  | 0x4 => .raise s .invalidAccess
  | _ => .raise s .unexpected

/-- The counter runs, and nothing else changes. -/
theorem updateRegs_eq (s : CfgTimer) (now : Nat) :
    ∃ val last, s.updateRegs now = { s with val, last } := by
  rw [updateRegs]
  split
  · exact ⟨_, _, rfl⟩
  · exact ⟨s.val, s.last, rfl⟩

theorem r32_leaves {s s' : CfgTimer} {now : Nat} {offset : U32}
    (done : (s.r32 now offset).state? = some s') :
    ∃ val last, s' = { s with
      val, last, irq := if offset = 0x4 then s.irq.clear else s.irq } := by
  obtain ⟨val, last, updated⟩ := s.updateRegs_eq now
  refine ⟨val, last, ?_⟩
  unfold r32 at done
  rw [updated] at done
  split at done
  · cases done
    rfl
  · cases done
    rfl
  · rename_i elsewhere
    cases done
    rw [if_neg (c := offset = 0x4) elsewhere]

theorem w32_leaves {s s' : CfgTimer} {now : Nat} {offset v : U32}
    (done : (s.w32 now offset v).state? = some s') :
    ∃ val last, s' = if offset = 0x0 then
      ({ s with val, last }.setConfig v).announce now s.enable else { s with val, last } := by
  obtain ⟨val, last, updated⟩ := s.updateRegs_eq now
  refine ⟨val, last, ?_⟩
  unfold w32 at done
  rw [updated] at done
  split at done
  · cases done
    rfl
  · cases done
    rfl
  · rename_i elsewhere _
    cases done
    rw [if_neg (c := offset = 0x0) elsewhere]

end CfgTimer

/-- The task between two turns of its loop, or (`interrupting`) after its timeout and before it
asserts the interrupt. -/
structure InterrupterTask where
  state : InterrupterState := .disabled
  interrupting : Bool := false
  deriving DecidableEq, Repr

/-- The timer, its task and the clock. The interrupt line of the task is a clone of the timer's,
and shares everything with it. -/
structure TimedTimer where
  timer : CfgTimer
  task : InterrupterTask := {}
  now : Nat := 0

inductive TimerEvent where
  | wait (duration : Nat)
  | read (offset : U32)
  | write (offset val : U32)
  | receive
  | timeout
  | interrupt
  deriving DecidableEq, Repr

namespace TimedTimer

def powerUp : TimedTimer := { timer := { irq := .new .hi } }

/-- The task takes a message out of the channel. -/
def receive (s : TimedTimer) : Option TimedTimer :=
  if s.task.interrupting then none
  else match s.timer.interrupterTx with
    | [] => none
    | message :: rest =>
      some { s with timer.interrupterTx := rest, task.state := message }

/-- The timeout is looked at only when there is no message. -/
def timeout (s : TimedTimer) : Option TimedTimer :=
  if s.task.interrupting ∨ s.timer.interrupterTx ≠ [] then none
  else match s.task.state.next? with
    | none => none
    | some next => if next ≤ s.now then some { s with task.interrupting := true } else none

def interrupt (s : TimedTimer) : Option TimedTimer :=
  if s.task.interrupting then
    s.task.state.rearmed.map fun state =>
      { s with timer.irq := s.timer.irq.assert, task := { state } }
  else none

def step (s : TimedTimer) : TimerEvent → Option TimedTimer
  | .wait duration => some { s with now := s.now + duration }
  | .read offset => (s.timer.r32 s.now offset).state?.map fun timer => { s with timer }
  | .write offset val => (s.timer.w32 s.now offset val).state?.map fun timer => { s with timer }
  | .receive => s.receive
  | .timeout => s.timeout
  | .interrupt => s.interrupt

end TimedTimer
end Clicky
