import Clicky.Memory
import Clicky.Signal

/-! The two devices that answer each core in its own way: the CPU id register and the mailbox
through which one core interrupts the other. -/
namespace Clicky

structure CpuIdReg where
  cpuid : CpuId := .cpu
  deriving DecidableEq, Repr

namespace CpuIdReg

def setCpuid (_ : CpuIdReg) (cpuid : CpuId) : CpuIdReg := { cpuid }

def value : CpuId → U32
  | .cpu => 0x55555555
  | .cop => 0xaaaaaaaa

def r32 (s : CpuIdReg) (offset : U32) : Access CpuIdReg U32 :=
  match offset with
  | 0x0 => .ok s (value s.cpuid)
  | _ => .raise s .unexpected

def w32 (s : CpuIdReg) (offset _val : U32) : Access CpuIdReg Unit :=
  match offset with
  | 0x0 => .raise s .invalidAccess
  | _ => .raise s .unexpected

instance : Memory CpuIdReg where
  r32 := r32
  w32 := w32

end CpuIdReg

structure Mailbox where
  selectedCore : CpuId := .cpu
  cpuIrq : Line
  copIrq : Line
  sharedBits : U32 := 0

namespace Mailbox

def new (cpuIrq copIrq : Line) : Mailbox := { cpuIrq, copIrq }

def setCpuid (s : Mailbox) (cpuid : CpuId) : Mailbox := { s with selectedCore := cpuid }

def irq (s : Mailbox) : CpuId → Line
  | .cpu => s.cpuIrq
  | .cop => s.copIrq

/-- The interrupt of the selected core is cleared. -/
def ackIrq (s : Mailbox) : Mailbox :=
  match s.selectedCore with
  | .cpu => { s with cpuIrq := s.cpuIrq.clear }
  | .cop => { s with copIrq := s.copIrq.clear }

/-- The interrupt of the other core is asserted. -/
def fireIrq (s : Mailbox) : Mailbox :=
  match s.selectedCore with
  | .cpu => { s with copIrq := s.copIrq.assert }
  | .cop => { s with cpuIrq := s.cpuIrq.assert }

def r32 (s : Mailbox) (offset : U32) : Access Mailbox U32 :=
  match offset with
  | 0x00 => .ok s.ackIrq s.sharedBits
  | 0x04 | 0x08 => .raise s .invalidAccess
  | 0x0c => .raise s .unimplemented
  | _ => if 0x10 ≤ offset ∧ offset ≤ 0x2f then .raise s .unimplemented else .raise s .unexpected

def w32 (s : Mailbox) (offset val : U32) : Access Mailbox Unit :=
  match offset with
  | 0x00 => .raise s .invalidAccess
  | 0x04 => .ok { s with sharedBits := s.sharedBits ||| val }.fireIrq ()
  | 0x08 => .ok { s with sharedBits := s.sharedBits &&& ~~~val }.fireIrq ()
  | 0x0c => .raise s .unimplemented
  | _ =>
    if 0x10 ≤ offset ∧ offset ≤ 0x2f then .raise s (.stubWrite .error) else .raise s .unexpected

instance : Memory Mailbox where
  r32 := r32
  w32 := w32

end Mailbox
end Clicky
