import Clicky.Ide.Drive

/-! The IDE controller: two drives behind one set of registers. -/
namespace Clicky

inductive IdeIdx where
  | ide0 | ide1
  deriving DecidableEq, Repr

def IdeIdx.ofBool : Bool → IdeIdx
  | false => .ide0
  | true => .ide1

def IdeIdx.display : IdeIdx → String
  | .ide0 => "IDE0"
  | .ide1 => "IDE1"

/-- Some registers are aliases of one another. -/
inductive IdeReg where
  | data | error | features | sectorCount | sectorNo | cylinderLo | cylinderHi | deviceHead
  | status | command | altStatus | devControl | dataLatch | lba0 | lba1 | lba2 | lba3
  deriving DecidableEq, Repr

structure IdeController (β : Type) where
  commonIrqLine : Line
  dmarq : Line
  selectedDevice : IdeIdx := .ide0
  ide0 : Option (IdeUnit β) := none
  ide1 : Option (IdeUnit β) := none

def truncToU8 (val : U16) : Except MemException U8 :=
  if val > 0xff then .error (contractViolation ">8-bit access to a 8-bit interface" .error)
  else .ok (val.setWidth 8)

namespace IdeController

variable {β : Type} {α : Type}

def unit? (s : IdeController β) : IdeIdx → Option (IdeUnit β)
  | .ide0 => s.ide0
  | .ide1 => s.ide1

def setUnit (s : IdeController β) (idx : IdeIdx) (u : Option (IdeUnit β)) : IdeController β :=
  match idx with
  | .ide0 => { s with ide0 := u }
  | .ide1 => { s with ide1 := u }

def lend (s : IdeController β) (u : IdeUnit β) : IdeDrive β :=
  { u with irq := s.commonIrqLine, dmarq := s.dmarq }

def putSelected (s : IdeController β) (d : IdeDrive β) : IdeController β :=
  { s with commonIrqLine := d.irq, dmarq := d.dmarq }.setUnit s.selectedDevice (some d.toIdeUnit)

def noDrive (idx : IdeIdx) : MemException :=
  .contractViolation ("tried to access " ++ idx.display ++ " when no drive is connected") .info
    (some 0xff)

/-- `selected_ide!`, with what is then done to the drive. -/
def onSelected (s : IdeController β) (f : IdeDrive β → Access (IdeDrive β) α) :
    Access (IdeController β) α :=
  match s.unit? s.selectedDevice with
  | none => .raise s (noDrive s.selectedDevice)
  | some u => (f (s.lend u)).zoom s.putSelected

def new (irq dmarq : Line) : IdeController β := { commonIrqLine := irq, dmarq }

def detach (s : IdeController β) (idx : IdeIdx) : IdeController β × Option β :=
  (s.setUnit idx none, (s.unit? idx).map IdeUnit.blockdev)

def attach (s : IdeController β) (idx : IdeIdx) (blockdev : β) : IdeController β × Option β :=
  let (s, oldDrive) := s.detach idx
  (s.setUnit idx (some { blockdev }), oldDrive)

def irqState (s : IdeController β) (idx : IdeIdx) : Bool :=
  ((s.unit? idx).map fun u => (s.lend u).irq.isAsserting).getD false

end IdeController

namespace IdeDrive

variable {β : Type} [BlockDev β]

def read8 (d : IdeDrive β) : IdeReg → Access (IdeDrive β) U8
  | .data => d.dataRead8
  | .error | .features => .ok d d.reg.error
  | .sectorCount => .ok d d.reg.sectorCount
  | .sectorNo | .lba0 => .ok d d.reg.lba0SectorNo
  | .cylinderLo | .lba1 => .ok d d.reg.lba1CylLo
  | .cylinderHi | .lba2 => .ok d d.reg.lba2CylHi
  | .deviceHead | .lba3 => .ok d d.reg.lba3DevHead
  | .status | .command => .ok { d with irq := d.irq.clear } d.reg.status
  | .altStatus | .devControl => .ok d d.reg.status
  | .dataLatch => .raise d .unimplemented

def write8 (d : IdeDrive β) (val : U8) : IdeReg → Access (IdeDrive β) Unit
  | .data => d.dataWrite8 val
  | .features | .error => .ok { d with reg.feature := val } ()
  | .sectorCount => .ok { d with reg.sectorCount := val } ()
  | .sectorNo | .lba0 => .ok { d with reg.lba0SectorNo := val } ()
  | .cylinderLo | .lba1 => .ok { d with reg.lba1CylLo := val } ()
  | .cylinderHi | .lba2 => .ok { d with reg.lba2CylHi := val } ()
  | .deviceHead | .lba3 => .ok { d with reg.lba3DevHead := val } ()
  | .command | .status => d.execCmd val
  | .devControl | .altStatus =>
    .ok { d with reg.srst := val.getBit 2, reg.nein := val.getBit 1 } ()
  | .dataLatch => .raise d .unimplemented

def dataRead16 (d : IdeDrive β) : Access (IdeDrive β) U16 :=
  d.dataRead8.bind fun d val =>
    if d.cfg.eightbit then .ok d (val.setWidth 16)
    else d.dataRead8.bind fun d hiVal => .ok d (val.setWidth 16 ||| hiVal.setWidth 16 <<< 8)

def dataWrite16 (d : IdeDrive β) (val : U16) : Access (IdeDrive β) Unit :=
  if d.cfg.eightbit then
    match truncToU8 val with
    | .error e => .raise d e
    | .ok val => d.dataWrite8 val
  else (d.dataWrite8 (val.setWidth 8)).bind fun d _ => d.dataWrite8 ((val >>> 8).setWidth 8)

end IdeDrive

namespace IdeController

variable {β : Type} [BlockDev β]

def read8 (s : IdeController β) (reg : IdeReg) : Access (IdeController β) U8 :=
  s.onSelected fun d => d.read8 reg

/-- A write to `DeviceHead` selects the drive it then goes to. -/
def select (s : IdeController β) (reg : IdeReg) (val : U8) : IdeController β :=
  match reg with
  | .deviceHead | .lba3 => { s with selectedDevice := .ofBool (val.getBit DevHead.DEV) }
  | _ => s

def write8 (s : IdeController β) (reg : IdeReg) (val : U8) : Access (IdeController β) Unit :=
  (s.select reg val).onSelected fun d => d.write8 val reg

def read16 (s : IdeController β) (reg : IdeReg) : Access (IdeController β) U16 :=
  match reg with
  | .data => s.onSelected fun d => d.dataRead16
  | _ => (s.read8 reg).map (·.setWidth 16)

def write16 (s : IdeController β) (reg : IdeReg) (val : U16) : Access (IdeController β) Unit :=
  match reg with
  | .data => s.onSelected fun d => d.dataWrite16 val
  | _ => s.write8 reg (val.setWidth 8)

end IdeController
end Clicky
