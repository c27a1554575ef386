import Clicky.Memory
import Clicky.Signal

/-! The interrupt controller: two banks of 32 lines, each with status, enable and priority
registers for both cores. -/
namespace Clicky
open Runs

/-- `irq::Reciever`: the line it listens to. The lines themselves belong to the devices that
drive them. -/
structure Reciever where
  line : Nat
  deriving DecidableEq, Repr

def Reciever.asserted (r : Reciever) (lines : Nat → Line) : Bool := (lines r.line).asserted

structure IntStatus where
  irq : Bool
  fiq : Bool
  deriving DecidableEq, Repr

def IntStatus.or (a b : IntStatus) : IntStatus := { irq := a.irq || b.irq, fiq := a.fiq || b.fiq }
def IntStatus.andBool (a : IntStatus) (b : Bool) : IntStatus := { irq := a.irq && b, fiq := a.fiq && b }

structure IntConCpuRegs where
  irqStat : U32 := 0
  fiqStat : U32 := 0
  enabled : U32 := 0
  priority : U32 := 0
  deriving DecidableEq, Repr

inductive IrqKind where
  | unregistered
  | shared (irq : Reciever)
  | coreSpecific (cpuIrq copIrq : Reciever)
  deriving DecidableEq, Repr

def IrqKind.receiver (id : CpuId) : IrqKind → Option Reciever
  | .unregistered => none
  | .shared irq => some irq
  | .coreSpecific cpuIrq copIrq => match id with
    | .cpu => some cpuIrq
    | .cop => some copIrq

structure IntCon32 where
  irqs : Fin 32 → IrqKind := fun _ => .unregistered
  cpu : IntConCpuRegs := {}
  cop : IntConCpuRegs := {}

/-- The body of the inner loop of `update_regs`. -/
def IntConCpuRegs.update (cpu : IntConCpuRegs) (i : Nat) (status : Bool) : IntConCpuRegs :=
  let enabled := cpu.enabled.getBit i
  let isFiq := cpu.priority.getBit i
  { cpu with
    fiqStat := cpu.fiqStat.setBit i (enabled && isFiq && status)
    irqStat := cpu.irqStat.setBit i (enabled && !isFiq && status) }

def IntConCpuRegs.status (cpu : IntConCpuRegs) : IntStatus :=
  { irq := cpu.enabled &&& cpu.irqStat ≠ 0, fiq := cpu.enabled &&& cpu.fiqStat ≠ 0 }

namespace IntCon32

def core (s : IntCon32) : CpuId → IntConCpuRegs
  | .cpu => s.cpu
  | .cop => s.cop

def updateReg (lines : Nat → Line) (s : IntCon32) (i : Fin 32) : IntCon32 :=
  match s.irqs i with
  | .unregistered => s
  | .shared irq =>
    { s with cpu := s.cpu.update i (irq.asserted lines), cop := s.cop.update i (irq.asserted lines) }
  | .coreSpecific cpuIrq copIrq =>
    { s with
      cpu := s.cpu.update i (cpuIrq.asserted lines)
      cop := s.cop.update i (copIrq.asserted lines) }

def updateRegs (lines : Nat → Line) (s : IntCon32) : IntCon32 :=
  (List.finRange 32).foldl (updateReg lines) s

def interruptStatus (s : IntCon32) (lines : Nat → Line) : IntCon32 × IntStatus × IntStatus :=
  let s := s.updateRegs lines
  (s, s.cpu.status, s.cop.status)

def register (s : IntCon32) (idx : Nat) (kind : IrqKind) : Access IntCon32 Unit :=
  if idx < 32 then .ok { s with irqs := fun i => if i = idx then kind else s.irqs i } ()
  else .panic "idx must be less than 32"

def r32 (s : IntCon32) (offset : U32) : Access IntCon32 U32 :=
  match offset with
  | 0x00 => .ok s s.cpu.irqStat
  | 0x04 => .ok s s.cop.irqStat
  | 0x08 => .ok s s.cpu.fiqStat
  | 0x0c => .ok s s.cop.fiqStat
  | 0x10 | 0x14 | 0x18 | 0x1c => .raise s .unimplemented
  | 0x20 => .ok s s.cpu.enabled
  | 0x24 | 0x28 => .raise s .invalidAccess
  | 0x2c => .ok s s.cpu.priority
  | 0x30 => .ok s s.cop.enabled
  | 0x34 | 0x38 => .raise s .invalidAccess
  | 0x3c => .ok s s.cop.priority
  | 0x44 | 0x4c => .raise s .unimplemented
  | _ => .raise s .unexpected

def w32 (s : IntCon32) (offset val : U32) : Access IntCon32 Unit :=
  match offset with
  | 0x00 | 0x04 | 0x08 | 0x0c => .raise s .invalidAccess
  | 0x10 | 0x14 | 0x18 => .raise s .unimplemented
  | 0x1c => .raise s (.stubWrite .error)
  | 0x20 => .raise s .invalidAccess
  | 0x24 => .ok { s with cpu.enabled := s.cpu.enabled ||| val } ()
  | 0x28 => .ok { s with cpu.enabled := s.cpu.enabled &&& ~~~val } ()
  | 0x2c => .ok { s with cpu.priority := val } ()
  | 0x30 => .raise s .invalidAccess
  | 0x34 => .ok { s with cop.enabled := s.cop.enabled ||| val } ()
  | 0x38 => .ok { s with cop.enabled := s.cop.enabled &&& ~~~val } ()
  | 0x3c => .ok { s with cop.priority := val } ()
  | 0x44 | 0x4c => .raise s (.stubWrite .error)
  | _ => .raise s .unexpected

end IntCon32

structure IntCon where
  lo : IntCon32 := {}
  hi : IntCon32 := {}

namespace IntCon

def putLo (s : IntCon) (lo : IntCon32) : IntCon := { s with lo }
def putHi (s : IntCon) (hi : IntCon32) : IntCon := { s with hi }

/-- `register` and `register_core_specific`, which differ in the kind they file. -/
def registerKind (s : IntCon) (idx : Nat) (kind : IrqKind) : Access IntCon Unit :=
  if idx ≥ 64 then .panic "idx must be less than 64"
  else if idx = 30 then .panic "idx 30 is reserved for internal use"
  else if idx < 32 then (s.lo.register idx kind).zoom s.putLo
  else (s.hi.register (idx - 32) kind).zoom s.putHi

def register (s : IntCon) (idx : Nat) (irq : Reciever) : Access IntCon Unit :=
  s.registerKind idx (.shared irq)

def registerCoreSpecific (s : IntCon) (idx : Nat) (cpuIrq copIrq : Reciever) : Access IntCon Unit :=
  s.registerKind idx (.coreSpecific cpuIrq copIrq)

def hiEnabled (s : IntCon) : Bool × Bool := (s.lo.cpu.enabled.getBit 30, s.lo.cop.enabled.getBit 30)

def interruptStatus (s : IntCon) (lines : Nat → Line) : IntCon × IntStatus × IntStatus :=
  let (lo, loCpu, loCop) := s.lo.interruptStatus lines
  let s := { s with lo }
  let (hienCpu, hienCop) := s.hiEnabled
  let (hi, hiCpu, hiCop) := s.hi.interruptStatus lines
  let s := { s with hi }
  (s, loCpu.or (hiCpu.andBool hienCpu), loCop.or (hiCop.andBool hienCop))

def r32 (s : IntCon) (offset : U32) : Access IntCon U32 :=
  if offset ≤ 0x0ff then (s.lo.r32 offset).zoom s.putLo
  else if offset ≤ 0x1ff then (s.hi.r32 (offset - 0x100)).zoom s.putHi
  else .raise s .unexpected

def w32 (s : IntCon) (offset val : U32) : Access IntCon Unit :=
  if offset ≤ 0x0ff then (s.lo.w32 offset val).zoom s.putLo
  else if offset ≤ 0x1ff then (s.hi.w32 (offset - 0x100) val).zoom s.putHi
  else .raise s .unexpected

instance : Memory IntCon where
  r32 := r32
  w32 := w32

end IntCon
end Clicky
