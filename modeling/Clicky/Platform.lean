import Clicky.Bus
import Clicky.Mailbox
import Clicky.CpuCon
import Clicky.IntCon

/-! The devices of the bus that tell the cores apart or interrupt them, at their physical
addresses. The others are a parameter still. -/
namespace Clicky

structure CacheCon where
  /-- Bit 4. -/
  localEvt : Bool := false
  /-- Bit 1. -/
  cacheCtrlEnable : Bool := false
  deriving DecidableEq, Repr

namespace CacheCon

def r32 (s : CacheCon) (offset : U32) : Access CacheCon U32 :=
  match offset with
  | 0x00 => .raise s (.stubRead .warn (((0 : U32).setBit 4 s.localEvt).setBit 1 s.cacheCtrlEnable))
  | 0x10 | 0x34 => .raise s .invalidAccess
  | _ => .raise s .unexpected

def w32 (s : CacheCon) (offset val : U32) : Access CacheCon Unit :=
  match offset with
  | 0x00 =>
    .raise { localEvt := val.getBit 4, cacheCtrlEnable := val.getBit 1 } (.stubWrite .error)
  | 0x10 | 0x34 => .raise s (.stubWrite .error)
  | _ => .raise s .unexpected

instance : Memory CacheCon where
  r32 := r32
  w32 := w32

end CacheCon

/-- The exception vectors. -/
structure Evp where
  resetVec : U32 := 0x0
  undefinedInstrVec : U32 := 0x4
  softIrqVec : U32 := 0x8
  prefetchAbrtVec : U32 := 0xc
  dataAbrtVec : U32 := 0x10
  reservedVec : U32 := 0x14
  normalIrqVec : U32 := 0x18
  highPriorityIrqVec : U32 := 0x1c
  deriving DecidableEq, Repr

namespace Evp

def r32 (s : Evp) (offset : U32) : Access Evp U32 :=
  match offset with
  | 0x0 => .ok s s.resetVec
  | 0x4 => .ok s s.undefinedInstrVec
  | 0x8 => .ok s s.softIrqVec
  | 0xc => .ok s s.prefetchAbrtVec
  | 0x10 => .ok s s.dataAbrtVec
  | 0x14 => .ok s s.reservedVec
  | 0x18 => .ok s s.normalIrqVec
  | 0x1c => .ok s s.highPriorityIrqVec
  | _ => .raise s .unexpected

def w32 (s : Evp) (offset val : U32) : Access Evp Unit :=
  match offset with
  | 0x0 => .ok { s with resetVec := val } ()
  | 0x4 => .ok { s with undefinedInstrVec := val } ()
  | 0x8 => .ok { s with softIrqVec := val } ()
  | 0xc => .ok { s with prefetchAbrtVec := val } ()
  | 0x10 => .ok { s with dataAbrtVec := val } ()
  | 0x14 => .ok { s with reservedVec := val } ()
  | 0x18 => .ok { s with normalIrqVec := val } ()
  | 0x1c => .ok { s with highPriorityIrqVec := val } ()
  | _ => .raise s .invalidAccess

instance : Memory Evp where
  r32 := r32
  w32 := w32

end Evp

/-- The devices that are neither in `Ipod4gBus` nor in `Platform`, at their physical addresses. -/
class OtherDevices (ρ : Type) extends Memory ρ where
  /-- The line of an interrupt that is registered, by its number. -/
  line : ρ → Nat → Line
  /-- The GPIO blocks and the wheel take note of what changed at their inputs. -/
  update : ρ → ρ

/-- The devices that stand in for others do not interrupt. -/
instance : OtherDevices Stub where
  line _ _ := Line.new .hi
  update s := s

structure Platform (ρ : Type) where
  cpuid : CpuIdReg := {}
  mailbox : Mailbox
  cpucon : CpuCon := {}
  intcon : IntCon
  cachecon : CacheCon := {}
  evp : Evp := {}
  others : ρ

inductive PlatformDevice where
  | cpuid | mailbox | intcon | cpucon | cachecon | evp | others
  deriving DecidableEq, Repr

/-- The device and the address it starts at: two of them are there twice. -/
def PlatformDevice.ofPhys (phys : U32) : PlatformDevice × U32 :=
  if 0x60000000 ≤ phys ∧ phys ≤ 0x60000fff then (.cpuid, 0x60000000)
  else if 0x60001000 ≤ phys ∧ phys ≤ 0x6000102f then (.mailbox, 0x60001000)
  else if 0x60004000 ≤ phys ∧ phys ≤ 0x600041ff then (.intcon, 0x60004000)
  else if 0x60007000 ≤ phys ∧ phys ≤ 0x60007fff then (.cpucon, 0x60007000)
  else if 0x6000c000 ≤ phys ∧ phys ≤ 0x6000cfff then (.cachecon, 0x6000c000)
  else if 0x64004000 ≤ phys ∧ phys ≤ 0x640041ff then (.intcon, 0x64004000)
  else if 0x6000f000 ≤ phys ∧ phys ≤ 0x6000f01f then (.evp, 0x6000f000)
  else if 0x6000f100 ≤ phys ∧ phys ≤ 0x6000f11f then (.evp, 0x6000f100)
  else (.others, 0)

namespace IrqLine
-- Each line has the number it is registered under. The two of the mailbox share number 4, and the
-- one of the COP has here the next number, which is free.
def timer1 : Reciever := ⟨0⟩
def timer2 : Reciever := ⟨1⟩
def mailboxCpu : Reciever := ⟨4⟩
def mailboxCop : Reciever := ⟨5⟩
def ide : Reciever := ⟨23⟩
def gpio0 : Reciever := ⟨32⟩
def gpio1 : Reciever := ⟨33⟩
def gpio2 : Reciever := ⟨34⟩
def i2c : Reciever := ⟨40⟩
end IrqLine

/-- The registrations of `Ipod4gBus::new`. -/
def IntCon.wired : Access IntCon Unit :=
  ((IntCon.register {} 0 IrqLine.timer1).bind fun s _ => s.register 1 IrqLine.timer2)
    |>.bind (fun s _ => s.registerCoreSpecific 4 IrqLine.mailboxCpu IrqLine.mailboxCop)
    |>.bind (fun s _ => s.register 23 IrqLine.ide)
    |>.bind (fun s _ => s.register 32 IrqLine.gpio0)
    |>.bind (fun s _ => s.register 33 IrqLine.gpio1)
    |>.bind (fun s _ => s.register 34 IrqLine.gpio2)
    |>.bind (fun s _ => s.register 40 IrqLine.i2c)

/-- No number is registered twice, so the default that `Platform.new` falls back to is not used. -/
theorem IntCon.wired_returns : IntCon.wired.Returns := ⟨_, (), rfl⟩

namespace Platform

variable {ρ α : Type}

def new (others : ρ) : Platform ρ :=
  { mailbox := .new (Line.new .hi) (Line.new .hi), intcon := IntCon.wired.state?.getD {}, others }

variable [OtherDevices ρ]

def route (s : Platform ρ) (phys : U32)
    (op : ∀ (M : Type) [Memory M], M → U32 → Access M α) : Access (Platform ρ) α :=
  let (device, start) := PlatformDevice.ofPhys phys
  let offset := phys - start
  match device with
  | .cpuid => (op CpuIdReg s.cpuid offset).zoom fun cpuid => { s with cpuid }
  | .mailbox => (op Mailbox s.mailbox offset).zoom fun mailbox => { s with mailbox }
  | .intcon => (op IntCon s.intcon offset).zoom fun intcon => { s with intcon }
  | .cpucon => (op CpuCon s.cpucon offset).zoom fun cpucon => { s with cpucon }
  | .cachecon => (op CacheCon s.cachecon offset).zoom fun cachecon => { s with cachecon }
  | .evp => (op Evp s.evp offset).zoom fun evp => { s with evp }
  | .others => (op ρ s.others offset).zoom fun others => { s with others }

instance : Memory (Platform ρ) where
  r8 s phys := s.route phys fun _ => Memory.r8
  r16 s phys := s.route phys fun _ => Memory.r16
  r32 s phys := s.route phys fun _ => Memory.r32
  w8 s phys val := s.route phys fun _ _ m offset => Memory.w8 m offset val
  w16 s phys val := s.route phys fun _ _ m offset => Memory.w16 m offset val
  w32 s phys val := s.route phys fun _ _ m offset => Memory.w32 m offset val
  x16 s phys := s.route phys fun _ => Memory.x16
  x32 s phys := s.route phys fun _ => Memory.x32

def setCpuid (s : Platform ρ) (id : CpuId) : Platform ρ :=
  { s with cpuid := s.cpuid.setCpuid id, mailbox := s.mailbox.setCpuid id }

/-- The lines as the interrupt controller finds them. The one of the IDE controller is elsewhere. -/
def lines (s : Platform ρ) (ideIrq : Bool) (no : Nat) : Line :=
  if no = IrqLine.mailboxCpu.line then s.mailbox.cpuIrq
  else if no = IrqLine.mailboxCop.line then s.mailbox.copIrq
  else if no = IrqLine.ide.line then if ideIrq then (Line.new .hi).assert else Line.new .hi
  else OtherDevices.line s.others no

def update (s : Platform ρ) : Platform ρ := { s with others := OtherDevices.update s.others }

def interruptStatus (s : Platform ρ) (ideIrq : Bool) : Platform ρ × IntStatus × IntStatus :=
  let (intcon, cpuStatus, copStatus) := s.intcon.interruptStatus (s.lines ideIrq)
  ({ s with intcon }, cpuStatus, copStatus)

/-- The turn of a core in the delivery of interrupts. The exception it takes is its own affair. -/
def deliver (s : Platform ρ) (id : CpuId) (status : IntStatus) (core : IrqEnable) : Platform ρ :=
  let s := if status.irq && core.irq then { s with cpucon := s.cpucon.wakeOnInterrupt id } else s
  if status.fiq && core.fiq then { s with cpucon := s.cpucon.wakeOnInterrupt id } else s

def service (s : Platform ρ) (ideIrq : Bool) (core : CpuId → IrqEnable) : Platform ρ :=
  let (s, cpuStatus, copStatus) := s.update.interruptStatus ideIrq
  (s.deliver .cpu cpuStatus (core .cpu)).deliver .cop copStatus (core .cop)

instance : Peripherals (Platform ρ) where
  setCpuid := setCpuid
  isCpuRunning s id := s.cpucon.isCpuRunning id
  localEvt s := s.cachecon.localEvt
  evpR32 s addr := (s.evp.r32 addr).zoom fun evp => { s with evp }
  service := service

end Platform
end Clicky
