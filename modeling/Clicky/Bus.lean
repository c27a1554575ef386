import Clicky.Eide
import Clicky.MemCon
import Clicky.Ram

/-! The memory bus: the address translation, and the devices behind it. RAM, the EIDE
controller and the memory controller are there themselves; every other device is part of a
parameter, so that what is proved of the bus holds whatever they do. -/
namespace Clicky

/-- The other devices of the bus, at their physical addresses. An access where there is no
device is theirs too. -/
class Peripherals (ρ : Type) extends Memory ρ where
  /-- `set_cpuid` of the CPU id register and the mailbox. -/
  setCpuid : ρ → CpuId → ρ
  isCpuRunning : ρ → CpuId → Bool
  /-- The cache controller has the local exception vectors enabled. -/
  localEvt : ρ → Bool
  /-- `r32` of the exception vectors. -/
  evpR32 : ρ → U32 → Access ρ U32
  /-- The end of a step, given the IDE line and the interrupts each core takes. -/
  service : ρ → Bool → (CpuId → IrqEnable) → ρ

structure Ipod4gBus (β ρ : Type) where
  sdram : AsanRam
  fastram : AsanRam
  eidecon : EIDECon β
  memcon : MemCon
  rest : ρ

inductive Region where
  | sdram | fastram | eidecon | memcon | rest
  deriving DecidableEq, Repr

/-- The `mmap!` of the bus. -/
def Region.ofPhys (phys : U32) : Region :=
  if 0x10000000 ≤ phys ∧ phys ≤ 0x11ffffff then .sdram
  else if 0x40000000 ≤ phys ∧ phys ≤ 0x40017fff then .fastram
  else if 0xc3000000 ≤ phys ∧ phys ≤ 0xc3000fff then .eidecon
  else if 0xf0000000 ≤ phys ∧ phys ≤ 0xf000ffff then .memcon
  else .rest

def Region.start : Region → U32
  | .sdram => 0x10000000
  | .fastram => 0x40000000
  | .eidecon => 0xc3000000
  | .memcon => 0xf0000000
  | .rest => 0

namespace Ipod4gBus

variable {β ρ α : Type}

def new [Peripherals ρ] (ideIrq dmarq : Line) (rest : ρ) : Ipod4gBus β ρ :=
  { sdram := .new (32 * 1024 * 1024) true, fastram := .new (96 * 1024) true
    eidecon := .new ideIrq dmarq, memcon := {}, rest }

variable [BlockDev β] [Peripherals ρ]

def setCpuid (s : Ipod4gBus β ρ) (id : CpuId) : Ipod4gBus β ρ :=
  { s with memcon := s.memcon.setCpuid id, rest := Peripherals.setCpuid s.rest id }

def route (s : Ipod4gBus β ρ) (phys : U32)
    (op : ∀ (M : Type) [Memory M], M → U32 → Access M α) : Access (Ipod4gBus β ρ) α :=
  let region := Region.ofPhys phys
  let offset := phys - region.start
  match region with
  | .sdram => (op AsanRam s.sdram offset).zoom fun sdram => { s with sdram }
  | .fastram => (op AsanRam s.fastram offset).zoom fun fastram => { s with fastram }
  | .eidecon => (op (EIDECon β) s.eidecon offset).zoom fun eidecon => { s with eidecon }
  | .memcon => (op MemCon s.memcon offset).zoom fun memcon => { s with memcon }
  | .rest => (op ρ s.rest offset).zoom fun rest => { s with rest }

/-- The low addresses of the local exception vectors. -/
def inEvt (s : Ipod4gBus β ρ) (addr : U32) : Bool := addr < 0x1f && Peripherals.localEvt s.rest

def readPhys (s : Ipod4gBus β ρ) (addr : U32) : Except MemException U32 :=
  let addr := if s.inEvt addr then addr ||| 0x6000f100 else addr
  let (phys, prot) := s.memcon.virtToPhys addr .read
  if prot.r then .ok phys else .error .mmuViolation

def writePhys (s : Ipod4gBus β ρ) (addr : U32) : Except MemException U32 :=
  let (phys, prot) := s.memcon.virtToPhys addr .write
  if prot.w then .ok phys else .error .mmuViolation

/-- Here the local exception vectors are read, and what they hold is the address. -/
def execPhys (s : Ipod4gBus β ρ) (addr : U32) : Access (Ipod4gBus β ρ) U32 :=
  if s.inEvt addr then (Peripherals.evpR32 s.rest addr).zoom fun rest => { s with rest }
  else
    let (phys, prot) := s.memcon.virtToPhys addr .execute
    if prot.x then .ok s phys else .raise s .mmuViolation

def routeTo (phys : Access (Ipod4gBus β ρ) U32)
    (op : ∀ (M : Type) [Memory M], M → U32 → Access M α) : Access (Ipod4gBus β ρ) α :=
  phys.bind fun s phys => s.route phys op

def r8 (s : Ipod4gBus β ρ) (addr : U32) : Access (Ipod4gBus β ρ) U8 :=
  routeTo (.done s (s.readPhys addr)) fun _ => Memory.r8

def r16 (s : Ipod4gBus β ρ) (addr : U32) : Access (Ipod4gBus β ρ) U16 :=
  routeTo (.done s (s.readPhys addr)) fun _ => Memory.r16

def r32 (s : Ipod4gBus β ρ) (addr : U32) : Access (Ipod4gBus β ρ) U32 :=
  routeTo (.done s (s.readPhys addr)) fun _ => Memory.r32

def w8 (s : Ipod4gBus β ρ) (addr : U32) (val : U8) : Access (Ipod4gBus β ρ) Unit :=
  routeTo (.done s (s.writePhys addr)) fun _ _ m offset => Memory.w8 m offset val

def w16 (s : Ipod4gBus β ρ) (addr : U32) (val : U16) : Access (Ipod4gBus β ρ) Unit :=
  routeTo (.done s (s.writePhys addr)) fun _ _ m offset => Memory.w16 m offset val

def w32 (s : Ipod4gBus β ρ) (addr val : U32) : Access (Ipod4gBus β ρ) Unit :=
  routeTo (.done s (s.writePhys addr)) fun _ _ m offset => Memory.w32 m offset val

def x16 (s : Ipod4gBus β ρ) (addr : U32) : Access (Ipod4gBus β ρ) U16 :=
  routeTo (s.execPhys addr) fun _ => Memory.x16

def x32 (s : Ipod4gBus β ρ) (addr : U32) : Access (Ipod4gBus β ρ) U32 :=
  routeTo (s.execPhys addr) fun _ => Memory.x32

instance : Memory (Ipod4gBus β ρ) where
  r8 := r8
  r16 := r16
  r32 := r32
  w8 := w8
  w16 := w16
  w32 := w32
  x16 := x16
  x32 := x32

theorem route_eidecon (s : Ipod4gBus β ρ) (phys : U32)
    (op : ∀ (M : Type) [Memory M], M → U32 → Access M α)
    (elsewhere : Region.ofPhys phys ≠ .eidecon) {s' : Ipod4gBus β ρ} {r : Except MemException α}
    (done : s.route phys op = .done s' r) : s'.eidecon = s.eidecon := by
  unfold route at done
  generalize Region.ofPhys phys = region at done elsewhere
  cases region with
  | eidecon => exact absurd rfl elsewhere
  | sdram | fastram | memcon | rest =>
    obtain ⟨m, _, rfl⟩ := Outcome.zoom_eq_done.mp done
    rfl

end Ipod4gBus

/-- The device that stands in for one not written yet. -/
structure Stub where
  deriving DecidableEq, Repr

instance : Memory Stub where
  r8 s _ := .raise s (.stubRead .error 0)
  r16 s _ := .raise s (.stubRead .error 0)
  r32 s _ := .raise s (.stubRead .error 0)
  w8 s _ _ := .raise s (.stubWrite .error)
  w16 s _ _ := .raise s (.stubWrite .error)
  w32 s _ _ := .raise s (.stubWrite .error)

/-- Stubs all over, as the machine comes up: both cores run, without local exception vectors. -/
instance : Peripherals Stub where
  setCpuid s _ := s
  isCpuRunning _ _ := true
  localEvt _ := false
  evpR32 s _ := .raise s .unexpected
  service s _ _ := s

end Clicky
