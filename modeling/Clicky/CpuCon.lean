import Clicky.Memory

/-! The CPU controller: a control word for each core, through which it is put to sleep, and the
timers that wake it up again. -/
namespace Clicky

namespace Flags
@[simp] abbrev PROC_SLEEP : Nat := 31
@[simp] abbrev PROC_WAIT_CNT : Nat := 30
@[simp] abbrev PROC_WAKE_INT : Nat := 29
@[simp] abbrev PROC_CNT_CLKS : Nat := 27
@[simp] abbrev PROC_CNT_USEC : Nat := 25
@[simp] abbrev PROC_CNT_MSEC : Nat := 24
@[simp] abbrev PROC_CNT_SEC : Nat := 23
end Flags

/-- `FLOW_MASK`, the bits a core sleeps with. -/
def flow (ctl : U32) : U32 := ctl.getBits 29 31
def clearFlow (ctl : U32) : U32 := ctl.setBits 29 31 0

inductive CounterSource where
  | sysclock | micros | millis | sec
  deriving DecidableEq, Repr

/-- In nanoseconds. -/
def CounterSource.intoDuration (counter : U8) : CounterSource → Nat
  | .sysclock => counter.toNat
  | .micros => counter.toNat * 1000
  | .millis => counter.toNat * 1000000
  | .sec => counter.toNat * 1000000000

/-- A task that waits for its timer, and then wakes its core up. -/
structure WakeTask where
  core : CpuId
  duration : Nat
  deriving DecidableEq, Repr

structure CpuCon where
  cpuctl : U32 := 0
  copctl : U32 := 0
  tasks : List WakeTask := []
  deriving DecidableEq, Repr

def CpuId.debug : CpuId → String
  | .cpu => "Cpu"
  | .cop => "Cop"

namespace CpuCon

def ctl (s : CpuCon) : CpuId → U32
  | .cpu => s.cpuctl
  | .cop => s.copctl

def setCtl (s : CpuCon) (id : CpuId) (val : U32) : CpuCon :=
  match id with
  | .cpu => { s with cpuctl := val }
  | .cop => { s with copctl := val }

def isCpuRunning (s : CpuCon) (id : CpuId) : Bool := flow (s.ctl id) = 0

def wakeOnInterrupt (s : CpuCon) (id : CpuId) : CpuCon :=
  if (s.ctl id).getBit Flags.PROC_SLEEP then s.setCtl id (clearFlow (s.ctl id)) else s

def counterSource (val : U32) : Option CounterSource :=
  if val.getBit Flags.PROC_CNT_CLKS then some .sysclock
  else if val.getBit Flags.PROC_CNT_USEC then some .micros
  else if val.getBit Flags.PROC_CNT_MSEC then some .millis
  else if val.getBit Flags.PROC_CNT_SEC then some .sec
  else none

def spawn (s : CpuCon) (task : WakeTask) : CpuCon := { s with tasks := s.tasks ++ [task] }

def checkWakeInt (s : CpuCon) (id : CpuId) (val : U32) : Access CpuCon Unit :=
  if val.getBit Flags.PROC_WAKE_INT then
    .raise s (.fatal ("unimplemented: 'Fire interrupt on wake-up' for " ++ id.debug))
  else .ok s ()

/-- A counter without a source is not looked at any further. -/
def onUpdateCpuctl (s : CpuCon) (id : CpuId) (val : U32) : Access CpuCon Unit :=
  if val.getBit Flags.PROC_WAIT_CNT then
    match (val.getBits 23 27).cpop.toNat with
    | 0 => .ok s ()
    | 1 => match counterSource val with
      | some source =>
        (s.spawn { core := id, duration := source.intoDuration (val.setWidth 8) }).checkWakeInt id val
      | none =>
        .raise s (.contractViolation "set invalid counter source (bit 26)" .error none)
    | _ => .raise s (.contractViolation "set more than one counter source" .error none)
  else s.checkWakeInt id val

/-- The word is stored before it is looked at. -/
def store (s : CpuCon) (id : CpuId) (val : U32) : Access CpuCon Unit :=
  (s.setCtl id val).onUpdateCpuctl id val

def r32 (s : CpuCon) (offset : U32) : Access CpuCon U32 :=
  match offset with
  | 0x0 => .ok s s.cpuctl
  | 0x4 => .ok s s.copctl
  | _ => .raise s .unexpected

def w32 (s : CpuCon) (offset val : U32) : Access CpuCon Unit :=
  match offset with
  | 0x0 => s.store .cpu val
  | 0x4 => s.store .cop val
  | _ => .raise s .unexpected

instance : Memory CpuCon where
  r32 := r32
  w32 := w32

/-- The timer of a task runs out. -/
def elapse (s : CpuCon) (i : Nat) : Option CpuCon :=
  s.tasks[i]?.map fun task =>
    { s.setCtl task.core (clearFlow (s.ctl task.core)) with tasks := s.tasks.eraseIdx i }

end CpuCon
end Clicky
