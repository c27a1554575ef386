import Clicky.Ide.Controller

/-! The EIDE controller: the IDE drives behind memory-mapped registers, with an interrupt latch
and DMA registers of its own. -/
namespace Clicky

structure IdeDriveCfg where
  primaryTiming : U32 × U32 := (0, 0)
  secondaryTiming : U32 × U32 := (0, 0)
  config : U32 := 0
  deriving DecidableEq, Repr

structure EIDECon (β : Type) where
  ide0Cfg : IdeDriveCfg := {}
  ide1Cfg : IdeDriveCfg := {}
  ideIrq : Line
  ideIrqLatched : Bool := false
  ideIrqWasAsserted : Bool := false
  ide : IdeController β
  dmaControl : U32 := 0
  dmaLength : U32 := 0
  dmaAddr : U32 := 0
  unknown : U32 := 0

structure DmaErr where

namespace EIDECon

variable {β : Type}

def new (ideIrq dmarq : Line) : EIDECon β :=
  { ideIrq := ideIrq.clear, ide := .new (Line.new .hi) dmarq }

def putIde (s : EIDECon β) (ide : IdeController β) : EIDECon β := { s with ide }

def updateIrqLatch (s : EIDECon β) : EIDECon β :=
  let asserted := s.ide.irqState .ide0
  let s := if asserted && !s.ideIrqWasAsserted then { s with ideIrqLatched := true } else s
  let s := { s with ideIrqWasAsserted := asserted }
  if s.ideIrqLatched then { s with ideIrq := s.ideIrq.assert }
  else { s with ideIrq := s.ideIrq.clear }

@[simp] theorem updateIrqLatch_ide (s : EIDECon β) : s.updateIrqLatch.ide = s.ide := by
  unfold updateIrqLatch
  dsimp only
  split <;> split <;> rfl

@[simp] theorem updateIrqLatch_dmaLength (s : EIDECon β) :
    s.updateIrqLatch.dmaLength = s.dmaLength := by
  unfold updateIrqLatch
  dsimp only
  split <;> split <;> rfl

/-- Bit 3 of the control register: towards memory, seen from the drive. -/
def dmaKind (s : EIDECon β) : MemAccessKind := if s.dmaControl.getBit 3 then .read else .write

def doDma (s : EIDECon β) : Outcome DmaErr (EIDECon β) (MemAccessKind × U32) :=
  if s.dmaLength = 0 then .raise s {}
  else
    let op := (s.dmaKind, s.dmaAddr)
    if s.dmaAddr.toNat + 2 ≥ 2 ^ 32 then .panic overflow
    else if s.dmaLength.toNat < 2 then .panic underflow
    else .ok { s with dmaAddr := s.dmaAddr + 2, dmaLength := s.dmaLength - 2 } op

theorem doDma_eq_ok {s s' : EIDECon β} {kind : MemAccessKind} {addr : U32} :
    s.doDma = .ok s' (kind, addr) ↔
      2 ≤ s.dmaLength.toNat ∧ s.dmaAddr.toNat + 2 < 2 ^ 32 ∧
        kind = s.dmaKind ∧ addr = s.dmaAddr ∧
        s' = { s with dmaAddr := s.dmaAddr + 2, dmaLength := s.dmaLength - 2 } := by
  constructor
  · intro done
    unfold doDma at done
    split at done
    · cases done
    · dsimp only at done
      split at done
      · cases done
      · rename_i low
        split at done
        · cases done
        · rename_i long
          cases done
          exact ⟨Nat.le_of_not_lt long, Nat.lt_of_not_ge low, rfl, rfl, rfl⟩
  · rintro ⟨long, low, rfl, rfl, rfl⟩
    have nonzero : s.dmaLength ≠ 0 := by
      rintro zero
      rw [zero] at long
      exact absurd long (by decide)
    unfold doDma
    rw [if_neg nonzero]
    dsimp only
    rw [if_neg (Nat.not_le_of_lt low), if_neg (Nat.not_lt_of_le long)]

variable [BlockDev β]

def ideRead8 (s : EIDECon β) (reg : IdeReg) : Access (EIDECon β) U32 :=
  ((s.ide.read8 reg).zoom s.putIde).map (·.setWidth 32)

def ideWrite8 (s : EIDECon β) (reg : IdeReg) (val : U32) : Access (EIDECon β) Unit :=
  (s.ide.write8 reg (val.setWidth 8)).zoom s.putIde

def r32 (s : EIDECon β) (offset : U32) : Access (EIDECon β) U32 :=
  match offset with
  | 0x000 => .ok s s.ide0Cfg.primaryTiming.1
  | 0x004 => .ok s s.ide0Cfg.primaryTiming.2
  | 0x008 => .ok s s.ide0Cfg.secondaryTiming.1
  | 0x00c => .ok s s.ide0Cfg.secondaryTiming.2
  | 0x010 => .ok s s.ide1Cfg.primaryTiming.1
  | 0x014 => .ok s s.ide1Cfg.primaryTiming.2
  | 0x018 => .ok s s.ide1Cfg.secondaryTiming.1
  | 0x01c => .ok s s.ide1Cfg.secondaryTiming.2
  | 0x028 =>
    -- the bits are set in the register itself
    let val := (s.ide0Cfg.config.setBit 3 s.ideIrqLatched).setBit 4 s.ideIrqLatched
    .raise { s with ide0Cfg.config := val } (.stubRead .debug val)
  | 0x02c => .raise s .unimplemented
  | 0x1e0 => ((s.ide.read16 .data).zoom s.putIde).map (·.setWidth 32)
  | 0x1e4 => s.ideRead8 .error
  | 0x1e8 => s.ideRead8 .sectorCount
  | 0x1ec => s.ideRead8 .sectorNo
  | 0x1f0 => s.ideRead8 .cylinderLo
  | 0x1f4 => s.ideRead8 .cylinderHi
  | 0x1f8 => s.ideRead8 .deviceHead
  | 0x1fc => s.ideRead8 .status
  | 0x3f8 => s.ideRead8 .altStatus
  | 0x3fc => s.ideRead8 .dataLatch
  | 0x400 => .raise s (.stubRead .debug s.dmaControl)
  | 0x408 => .raise s (.stubRead .info s.dmaLength)
  | 0x40c => .raise s (.stubRead .info s.dmaAddr)
  | 0x410 => .raise s (.stubRead .error s.unknown)
  | _ => .raise s .unexpected

/-- The configuration register of drive 0. It acknowledges the latch, not the drive. -/
def writeCfg (s : EIDECon β) (val : U32) : EIDECon β :=
  let s := { s with ide0Cfg.config := val }
  if val.getBit 3 || val.getBit 4 then
    { s with ideIrqLatched := false, ideIrq := s.ideIrq.clear }
  else s

def w32 (s : EIDECon β) (offset val : U32) : Access (EIDECon β) Unit :=
  match offset with
  | 0x000 => .ok { s with ide0Cfg.primaryTiming := (val, s.ide0Cfg.primaryTiming.2) } ()
  | 0x004 => .ok { s with ide0Cfg.primaryTiming := (s.ide0Cfg.primaryTiming.1, val) } ()
  | 0x008 => .ok { s with ide0Cfg.secondaryTiming := (val, s.ide0Cfg.secondaryTiming.2) } ()
  | 0x00c => .ok { s with ide0Cfg.secondaryTiming := (s.ide0Cfg.secondaryTiming.1, val) } ()
  | 0x010 => .ok { s with ide1Cfg.primaryTiming := (val, s.ide1Cfg.primaryTiming.2) } ()
  | 0x014 => .ok { s with ide1Cfg.primaryTiming := (s.ide1Cfg.primaryTiming.1, val) } ()
  | 0x018 => .ok { s with ide1Cfg.secondaryTiming := (val, s.ide1Cfg.secondaryTiming.2) } ()
  | 0x01c => .ok { s with ide1Cfg.secondaryTiming := (s.ide1Cfg.secondaryTiming.1, val) } ()
  | 0x028 => .raise (s.writeCfg val) (.stubWrite .debug)
  | 0x02c => .raise s .unimplemented
  | 0x1e0 => (s.ide.write16 .data (val.setWidth 16)).zoom s.putIde
  | 0x1e4 => s.ideWrite8 .features val
  | 0x1e8 => s.ideWrite8 .sectorCount val
  | 0x1ec => s.ideWrite8 .sectorNo val
  | 0x1f0 => s.ideWrite8 .cylinderLo val
  | 0x1f4 => s.ideWrite8 .cylinderHi val
  | 0x1f8 => s.ideWrite8 .deviceHead val
  | 0x1fc => s.ideWrite8 .command val
  | 0x3f8 => s.ideWrite8 .devControl val
  | 0x3fc => s.ideWrite8 .dataLatch val
  | 0x400 => .raise { s with dmaControl := val } (.stubWrite .debug)
  | 0x408 =>
    if val.toNat + 4 ≥ 2 ^ 32 then .panic overflow else .ok { s with dmaLength := val + 4 } ()
  | 0x40c => .ok { s with dmaAddr := val } ()
  | 0x410 => .raise { s with unknown := val } (.stubWrite .error)
  | _ => .raise s .unexpected

instance : Memory (EIDECon β) where
  r32 := r32
  w32 := w32

end EIDECon
end Clicky
