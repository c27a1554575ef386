import Clicky.Bus
import Clicky.Lib.Runs

/-! One step of the whole machine. The cores are not part of it: what they do to the bus in a
step is an input, and so is what the asynchronous tasks of the devices have done meanwhile. -/
namespace Clicky
open Runs

inductive GuestAccess where
  | r8 (addr : U32)
  | r16 (addr : U32)
  | r32 (addr : U32)
  | w8 (addr : U32) (val : U8)
  | w16 (addr : U32) (val : U16)
  | w32 (addr val : U32)
  | x16 (addr : U32)
  | x32 (addr : U32)
  deriving DecidableEq, Repr

/-- A memory whose accesses all succeed. The last exception is kept. -/
structure MemoryAdapter (M : Type) where
  mem : M
  exception : Option (MemAccess × MemException) := none

def MemException.stub : MemException → U32
  | .stubRead _ v => v
  | .contractViolation _ _ (some v) => v
  | _ => 0

namespace MemoryAdapter

variable {M : Type} {w : Nat}

def read (addr : U32) (kind : MemAccessKind) (toMemaccess : BitVec w → MemAccessVal)
    (o : Access M (BitVec w)) (s : MemoryAdapter M) : Outcome Empty (MemoryAdapter M) (BitVec w) :=
  match o with
  | .ok mem val => .ok { s with mem } val
  | .raise mem e =>
    let ret := e.stub.setWidth w
    .ok { mem, exception := some ({ kind, offset := addr, val := toMemaccess ret }, e) } ret
  | .panic m => .panic m

def write (addr : U32) (val : MemAccessVal) (o : Access M Unit) (s : MemoryAdapter M) :
    Outcome Empty (MemoryAdapter M) Unit :=
  match o with
  | .ok mem _ => .ok { s with mem } ()
  | .raise mem e => .ok { mem, exception := some ({ kind := .write, offset := addr, val }, e) } ()
  | .panic m => .panic m

variable [Memory M]

/-- The access a core makes, without the value it gets. -/
def perform (s : MemoryAdapter M) : GuestAccess → Outcome Empty (MemoryAdapter M) Unit
  | .r8 addr => (read addr .read .u8 (Memory.r8 s.mem addr) s).map fun _ => ()
  | .r16 addr => (read addr .read .u16 (Memory.r16 s.mem addr) s).map fun _ => ()
  | .r32 addr => (read addr .read .u32 (Memory.r32 s.mem addr) s).map fun _ => ()
  | .w8 addr val => write addr (.u8 val) (Memory.w8 s.mem addr val) s
  | .w16 addr val => write addr (.u16 val) (Memory.w16 s.mem addr val) s
  | .w32 addr val => write addr (.u32 val) (Memory.w32 s.mem addr val) s
  | .x16 addr => (read addr .execute .u16 (Memory.x16 s.mem addr) s).map fun _ => ()
  | .x32 addr => (read addr .execute .u32 (Memory.x32 s.mem addr) s).map fun _ => ()

def performAll (s : MemoryAdapter M) : List GuestAccess → Outcome Empty (MemoryAdapter M) Unit
  | [] => .ok s ()
  | a :: as => (s.perform a).bind fun s _ => s.performAll as

end MemoryAdapter

/-- What the machine leaves to its surroundings in a step. -/
structure StepInput (ρ : Type) where
  accesses : CpuId → List GuestAccess := fun _ => []
  pc : CpuId → U32 := fun _ => 0
  /-- What `probe` shows for an address. -/
  probe : U32 → String := fun _ => ""
  tasks : ρ → ρ := id
  irqEnable : CpuId → IrqEnable := fun _ => { irq := false, fiq := false }

structure Ipod4g (β ρ : Type) where
  frozen : Bool := false
  skipIrqCheck : Bool := false
  devices : Ipod4gBus β ρ

def CpuId.display : CpuId → String
  | .cpu => "CPU"
  | .cop => "COP"

def unwrapped : String := "called `Result::unwrap()` on an `Err` value"

namespace Ipod4gBus

variable {β ρ : Type} [BlockDev β] [Peripherals ρ]

def putIde (s : Ipod4gBus β ρ) (ide : IdeController β) : Ipod4gBus β ρ :=
  { s with eidecon := s.eidecon.putIde ide }

/-- `dma_pending` is the trigger of the DMA request line. -/
def clearDmaPending (s : Ipod4gBus β ρ) : Ipod4gBus β ρ :=
  s.putIde { s.eidecon.ide with dmarq := s.eidecon.ide.dmarq.clearTrigger }

def moveHalfword (s : Ipod4gBus β ρ) (kind : MemAccessKind) (addr : U32) :
    Outcome FatalMemException (Ipod4gBus β ρ) Unit :=
  match kind with
  | .read =>
    (((s.eidecon.ide.read16 .data).zoom s.putIde).orPanic unwrapped).bind fun s val =>
      (s.w16 addr val).orPanic unwrapped
  | .write =>
    ((s.r16 addr).orPanic unwrapped).bind fun s val =>
      ((s.eidecon.ide.write16 .data val).zoom s.putIde).orPanic unwrapped
  | .execute => .panic "Unsupported execute DMA"

def ideDma (s : Ipod4gBus β ρ) : Outcome FatalMemException (Ipod4gBus β ρ) Unit :=
  if s.eidecon.ide.dmarq.check then
    let s := s.clearDmaPending
    -- `do_ide_dma` of the DMA engine listens to the same line
    if s.eidecon.ide.dmarq.asserted then
      ((s.eidecon.doDma.zoom fun eidecon => { s with eidecon }).orPanic "asd").bind
        fun s (kind, addr) => s.moveHalfword kind addr
    else .ok s ()
  else .ok s ()

/-- The bus with the request taken note of and the DMA registers moved on. -/
def asked (s : Ipod4gBus β ρ) : Ipod4gBus β ρ :=
  let s := s.clearDmaPending
  { s with
    eidecon.dmaAddr := s.eidecon.dmaAddr + 2
    eidecon.dmaLength := s.eidecon.dmaLength - 2 }

def DmaRegisters (s : EIDECon β) : Prop :=
  2 ≤ s.dmaLength.toNat ∧ s.dmaAddr.toNat + 2 < 2 ^ 32

theorem ideDma_cases (s : Ipod4gBus β ρ) :
    (s.eidecon.ide.dmarq.trigger = false ∧ s.ideDma = .ok s ()) ∨
    (s.eidecon.ide.dmarq.trigger = true ∧ s.eidecon.ide.dmarq.ownSignal = false ∧
      s.ideDma = .ok s.clearDmaPending ()) ∨
    (s.eidecon.ide.dmarq.trigger = true ∧ s.eidecon.ide.dmarq.ownSignal = true ∧
      (DmaRegisters s.eidecon ∧ s.ideDma = s.asked.moveHalfword s.eidecon.dmaKind s.eidecon.dmaAddr ∨
        ¬ DmaRegisters s.eidecon ∧ ∃ m, s.ideDma = .panic m)) := by
  unfold ideDma
  split
  · rename_i pending
    dsimp only
    split
    · rename_i asserted
      have high : s.eidecon.ide.dmarq.ownSignal = true := by
        rw [Line.asserted_eq] at asserted
        exact asserted
      have moves (regs : DmaRegisters s.eidecon) : s.clearDmaPending.eidecon.doDma =
          .ok s.asked.eidecon (s.eidecon.dmaKind, s.eidecon.dmaAddr) :=
        EIDECon.doDma_eq_ok.mpr ⟨regs.1, regs.2, rfl, rfl, rfl⟩
      refine .inr (.inr ⟨pending, high, ?_⟩)
      cases result : s.clearDmaPending.eidecon.doDma with
      | panic m =>
        refine .inr ⟨fun regs => ?_, m, rfl⟩
        rw [moves regs] at result
        cases result
      | done eidecon r =>
        cases r with
        | error e =>
          refine .inr ⟨fun regs => ?_, _, rfl⟩
          rw [moves regs] at result
          cases result
        | ok op =>
          obtain ⟨kind, addr⟩ := op
          obtain ⟨long, low, rfl, rfl, rfl⟩ := EIDECon.doDma_eq_ok.mp result
          exact .inl ⟨⟨long, low⟩, rfl⟩
    · rename_i low
      rw [Line.asserted_eq] at low
      exact .inr (.inl ⟨pending, Bool.eq_false_iff.mpr low, rfl⟩)
  · rename_i quiet
    exact .inl ⟨Bool.eq_false_iff.mpr quiet, rfl⟩

end Ipod4gBus

namespace Ipod4g

variable {β ρ : Type} [BlockDev β] [Peripherals ρ]

def runCore (s : Ipod4g β ρ) (input : StepInput ρ) (id : CpuId) :
    Outcome FatalMemException (Ipod4g β ρ) Unit :=
  if Peripherals.isCpuRunning s.devices.rest id then
    let mem : MemoryAdapter (Ipod4gBus β ρ) := { mem := s.devices.setCpuid id }
    match mem.performAll (input.accesses id) with
    | .panic m => .panic m
    | .done mem _ =>
      let s := { s with devices := mem.mem }
      match mem.exception with
      | none => .ok s ()
      | some (access, e) =>
        let inDevice := id.display ++ ", " ++ input.probe access.offset
        match e.resolve { pc := input.pc id, access, inDevice } with
        | .ok () => .ok s ()
        | .error fatal => .raise s fatal
  else .ok s ()

def runTasks (s : Ipod4g β ρ) (input : StepInput ρ) : Ipod4g β ρ :=
  { s with devices.rest := input.tasks s.devices.rest }

def service (s : Ipod4g β ρ) (input : StepInput ρ) : Ipod4g β ρ :=
  let eidecon := s.devices.eidecon.updateIrqLatch
  { s with devices := { s.devices with
      eidecon
      rest := Peripherals.service s.devices.rest eidecon.ideIrq.asserted input.irqEnable } }

/-- Both cores, and whether the rest of the step is to come. -/
def runCores (s : Ipod4g β ρ) (input : StepInput ρ) :
    Outcome FatalMemException (Ipod4g β ρ) Bool :=
  if s.frozen then .ok s false
  else (s.runCore input .cpu).bind fun s _ => (s.runCore input .cop).map fun _ => !s.skipIrqCheck

/-- Always `true`: there is no graceful exit yet. -/
def step (s : Ipod4g β ρ) (input : StepInput ρ) : Outcome FatalMemException (Ipod4g β ρ) Bool :=
  (s.runCores input).bind fun s on =>
    if on then
      let s := s.runTasks input
      (s.devices.ideDma.zoom fun devices => { s with devices }).bind fun s _ =>
        .ok (s.service input) true
    else .ok s true

def stepState (s : Ipod4g β ρ) (input : StepInput ρ) : Option (Ipod4g β ρ) := (s.step input).state?

end Ipod4g
end Clicky
