import Clicky.Block
import Clicky.Signal
import Clicky.Ide.Identify

/-! One IDE drive: its sector buffer, its registers, the two data paths and the commands. -/
namespace Clicky

namespace Status
@[simp] abbrev BSY : Nat := 7
@[simp] abbrev DRDY : Nat := 6
@[simp] abbrev DSC : Nat := 4
@[simp] abbrev DRQ : Nat := 3
@[simp] abbrev ERR : Nat := 0
end Status

namespace DevHead
@[simp] abbrev L : Nat := 6
@[simp] abbrev DEV : Nat := 4
end DevHead

inductive IdeCmd where
  | identifyDevice | readMultiple | writeMultiple | readSectors | readSectorsNoRetry
  | standbyImmediate | standbyImmediateAlt | writeSectors | writeSectorsNoRetry
  | setMultipleMode | setFeatures | readDMA | readDMANoRetry | writeDMA | writeDMANoRetry
  | recalibrate | readNativeMaxAddress | setMaxAddress | initializeDriveParameters
  | sleep | sleepAlt | flushCache
  deriving DecidableEq, Repr

def IdeCmd.tryFrom (cmd : U8) : Option IdeCmd :=
  match cmd with
  | 0xec => some .identifyDevice
  | 0xc4 => some .readMultiple
  | 0xc5 => some .writeMultiple
  | 0x20 => some .readSectors
  | 0x21 => some .readSectorsNoRetry
  | 0xe0 => some .standbyImmediate
  | 0x94 => some .standbyImmediateAlt
  | 0x30 => some .writeSectors
  | 0x31 => some .writeSectorsNoRetry
  | 0xc6 => some .setMultipleMode
  | 0xef => some .setFeatures
  | 0xc8 => some .readDMA
  | 0xc9 => some .readDMANoRetry
  | 0xca => some .writeDMA
  | 0xcb => some .writeDMANoRetry
  | 0x10 => some .recalibrate
  | 0xf8 => some .readNativeMaxAddress
  | 0xf9 => some .setMaxAddress
  | 0x91 => some .initializeDriveParameters
  | 0x99 => some .sleep
  | 0xe6 => some .sleepAlt
  | 0xe7 => some .flushCache
  | _ => none

structure IdeIoBuf where
  buf : List U8
  idx : Nat
  sized : buf.length = 512

namespace IdeIoBuf

def empty : IdeIoBuf := { buf := zeroBytes 512, idx := 0, sized := length_zeroBytes 512 }

def read8 (b : IdeIoBuf) : Option (U8 × IdeIoBuf) :=
  b.buf[b.idx]?.map fun ret => (ret, { b with idx := b.idx + 1 })

def write8 (b : IdeIoBuf) (val : U8) : Option IdeIoBuf :=
  if b.idx < 512 then
    some { buf := b.buf.set b.idx val, idx := b.idx + 1, sized := (List.length_set ..).trans b.sized }
  else none

def newTransfer (b : IdeIoBuf) : IdeIoBuf := { b with idx := 0 }
def isDoneTransfer (b : IdeIoBuf) : Bool := b.idx ≥ 512

def fill (b : IdeIoBuf) (bytes : List U8) : IdeIoBuf :=
  { b with buf := b.buf.overwrite 0 bytes, sized := (List.length_overwrite ..).trans b.sized }

end IdeIoBuf

inductive IdeDriveState where
  | idle | readReady | readAsyncLoad | writeReady | writeAsyncFlush
  deriving DecidableEq, Repr

def IdeDriveState.debug : IdeDriveState → String
  | .idle => "Idle"
  | .readReady => "ReadReady"
  | .readAsyncLoad => "ReadAsyncLoad"
  | .writeReady => "WriteReady"
  | .writeAsyncFlush => "WriteAsyncFlush"

inductive IdeTransferMode where
  | pio | pioNoIORDY | pioFlowControl (v : U8) | dmaSingleWord (v : U8) | dmaMultiWord (v : U8)
  | reserved | invalid
  deriving DecidableEq, Repr

def leadingZeros (v : U8) : Nat := if v = 0 then 8 else 7 - v.toNat.log2

def IdeTransferMode.fromU8 (val : U8) : IdeTransferMode :=
  match leadingZeros val with
  | 8 => .pio
  | 7 => .pioNoIORDY
  | 6 => .invalid
  | 5 => .invalid
  | 4 => .pioFlowControl (val &&& 7)
  | 3 => .dmaSingleWord (val &&& 7)
  | 2 => .dmaMultiWord (val &&& 7)
  | _ => .reserved

def IdeTransferMode.isDma : IdeTransferMode → Bool
  | .dmaSingleWord _ | .dmaMultiWord _ => true
  | _ => false

structure IdeRegs where
  error : U8 := 0
  feature : U8 := 0
  sectorCount : U8 := 0
  lba0SectorNo : U8 := 0
  lba1CylLo : U8 := 0
  lba2CylHi : U8 := 0
  lba3DevHead : U8 := 0
  status : U8 := 0
  srst : Bool := false
  nein : Bool := false
  deriving DecidableEq, Repr

structure IdeDriveConfig where
  eightbit : Bool := false
  multiSect : U8 := 0
  transferMode : IdeTransferMode := .pio
  deriving DecidableEq, Repr

/-- What a drive has to itself. -/
structure IdeUnit (β : Type) where
  blockdev : β
  state : IdeDriveState := .idle
  remainingSectors : Nat := 0
  iobuf : IdeIoBuf := .empty
  reg : IdeRegs := { status := ((0 : U8).setBit Status.DRDY true).setBit Status.DSC true }
  cfg : IdeDriveConfig := {}

/-- A drive at work. Both lines are shared with the controller and the other drive. -/
structure IdeDrive (β : Type) extends IdeUnit β where
  irq : Line
  dmarq : Line

def hexByte (v : U8) : String := "0x" ++ hexDigits v

def contractViolation (msg : String) (severity : Level) : MemException :=
  .contractViolation msg severity none

namespace IdeDrive

variable {β : Type} [BlockDev β]

def pulseIrq (d : IdeDrive β) : IdeDrive β := { d with irq := d.irq.clear.assert }

/-- The interrupt after a sector, which DMA does without. -/
def pulseIrqUnlessDma (d : IdeDrive β) : IdeDrive β :=
  if d.cfg.transferMode.isDma then d else d.pulseIrq

def getSectorOffset (d : IdeDrive β) : Option Nat :=
  if d.reg.lba3DevHead.getBit DevHead.L then
    some ((d.reg.lba3DevHead.getBits 0 3).toNat <<< 24 ||| d.reg.lba2CylHi.toNat <<< 16 |||
      d.reg.lba1CylLo.toNat <<< 8 ||| d.reg.lba0SectorNo.toNat)
  else
    let sector := d.reg.lba0SectorNo.toNat
    let cyl := d.reg.lba2CylHi.toNat <<< 8 ||| d.reg.lba1CylLo.toNat
    let head := (d.reg.lba3DevHead.getBits 0 3).toNat
    let totalCyls := BlockDev.len d.blockdev / (numHeads * numSectors * 512)
    if sector < numSectors ∨ cyl < totalCyls ∨ head < numHeads then none
    else some ((cyl * numHeads + head) * numSectors + sector)

def loadSector (d : IdeDrive β) : Access (IdeDrive β) Unit :=
  let (blockdev, bytes, ended) := BlockDev.readExact d.blockdev 512
  let d := { d with blockdev, iobuf := d.iobuf.fill bytes }
  match ended with
  | .ok () => .ok d ()
  | .error e => .raise d (.ofIo e)

def storeSector (d : IdeDrive β) : Access (IdeDrive β) Unit :=
  let (blockdev, ended) := BlockDev.writeAll d.blockdev d.iobuf.buf
  let d := { d with blockdev }
  match ended with
  | .ok () => .ok d ()
  | .error e => .raise d (.ofIo e)

def seekSector (d : IdeDrive β) (offset : Nat) : Access (IdeDrive β) Unit :=
  let (blockdev, moved) := BlockDev.seek d.blockdev (offset * 512)
  let d := { d with blockdev }
  match moved with
  | .ok _ => .ok d ()
  | .error e => .raise d (.ofIo e)

def pastRead : MemException := .fatal "assert: read past end of IDE iobuf"
def pastWrite : MemException := .fatal "assert: write past end of IDE iobuf"

def finishRead (d : IdeDrive β) : IdeDrive β :=
  let d := { d with
    state := .idle
    reg.status := ((d.reg.status.setBit Status.DRDY true).setBit Status.DRQ false).setBit
      Status.BSY false }
  let d := d.pulseIrq
  { d with dmarq := d.dmarq.clear }

def loadNext (d : IdeDrive β) : Access (IdeDrive β) Unit :=
  let d := { d with
    reg.status := (d.reg.status.setBit Status.DRQ false).setBit Status.BSY true
    state := .readAsyncLoad }
  d.loadSector.bind fun d _ =>
    let d := { d with
      iobuf := d.iobuf.newTransfer
      state := .readReady
      reg.status := (d.reg.status.setBit Status.DRQ true).setBit Status.BSY false }
    .ok d.pulseIrqUnlessDma ()

def dataRead8 (d : IdeDrive β) : Access (IdeDrive β) U8 :=
  if d.state ≠ .readReady then
    .raise d (.fatal ("cannot read data while drive is in an invalid state: " ++ d.state.debug))
  else match d.iobuf.read8 with
    | none => .raise d pastRead
    | some (ret, iobuf) =>
      let d := { d with iobuf }
      if d.iobuf.isDoneTransfer then
        match d.remainingSectors with
        | 0 => .panic "attempt to subtract with overflow"
        | 1 => .ok { d with remainingSectors := 0 }.finishRead ret
        | left + 2 => { d with remainingSectors := left + 1 }.loadNext.map fun _ => ret
      else .ok d ret

def finishSector (d : IdeDrive β) : Access (IdeDrive β) Unit :=
  let d := { d with
    iobuf := d.iobuf.newTransfer
    state := .writeReady
    reg.status := (d.reg.status.setBit Status.DRQ true).setBit Status.BSY false }
  let d := d.pulseIrqUnlessDma
  match d.remainingSectors with
  | 0 => .panic "attempt to subtract with overflow"
  | 1 =>
    let d := { d with
      remainingSectors := 0
      state := .idle
      reg.status := (d.reg.status.setBit Status.DRDY true).setBit Status.DRQ false }
    let d := d.pulseIrq
    .ok { d with dmarq := d.dmarq.clear } ()
  | left + 2 => .ok { d with remainingSectors := left + 1 } ()

def dataWrite8 (d : IdeDrive β) (val : U8) : Access (IdeDrive β) Unit :=
  if d.state ≠ .writeReady then
    .raise d (.fatal ("cannot write data while drive is in an invalid state: " ++ d.state.debug))
  else match d.iobuf.write8 val with
    | none => .raise d pastWrite
    | some iobuf =>
      let d := { d with iobuf }
      if d.iobuf.isDoneTransfer then
        if d.remainingSectors = 0 then
          .panic "assertion failed: self.remaining_sectors != 0"
        else
          let d := { d with
            reg.status := (d.reg.status.setBit Status.DRQ false).setBit Status.BSY true
            state := .writeAsyncFlush }
          d.storeSector.bind fun d _ => d.finishSector
      else .ok d ()

/-- How `exec_cmd` starts, whatever the command. -/
def begin (d : IdeDrive β) (body : IdeDrive β → Access (IdeDrive β) Unit) :
    Access (IdeDrive β) Unit :=
  if d.reg.status.getBit Status.BSY then
    .raise d (contractViolation "tried to exec IDE cmd while drive is busy" .warn)
  else
    body { d with
      reg.status := (d.reg.status.setBit Status.BSY true).setBit Status.ERR false
      reg.error := 0 }

def sectors (d : IdeDrive β) : Nat :=
  if d.reg.sectorCount = 0 then 256 else d.reg.sectorCount.toNat

def ready (d : IdeDrive β) : IdeDrive β :=
  { d with reg.status := d.reg.status.setBit Status.BSY false }

def identifyDevice (d : IdeDrive β) : Access (IdeDrive β) Unit :=
  let iobuf := (d.iobuf.fill (driveMeta (BlockDev.len d.blockdev)).toHdDriveid).newTransfer
  let d := { d with
    iobuf
    state := .readReady
    remainingSectors := 1
    reg.status := (d.reg.status.setBit Status.BSY false).setBit Status.DRQ true }
  .ok d.pulseIrq ()

def readSectors (d : IdeDrive β) : Access (IdeDrive β) Unit :=
  match d.getSectorOffset with
  | none => .raise d (.fatal "invalid offset")
  | some offset =>
    let d := { d with state := .readAsyncLoad }
    (d.seekSector offset).bind fun d _ => d.loadSector.bind fun d _ =>
      let d := { d with
        remainingSectors := d.sectors
        iobuf := d.iobuf.newTransfer
        state := .readReady
        reg.status := (((d.reg.status.setBit Status.BSY false).setBit Status.DSC true).setBit
          Status.DRDY true).setBit Status.DRQ true }
      .ok d.pulseIrq ()

def writeSectors (d : IdeDrive β) : Access (IdeDrive β) Unit :=
  match d.getSectorOffset with
  | none => .raise d (.fatal "invalid offset")
  | some offset =>
    let d := { d with state := .writeAsyncFlush }
    (d.seekSector offset).bind fun d _ =>
      let d := { d with
        remainingSectors := d.sectors
        iobuf := d.iobuf.newTransfer
        state := .writeReady
        reg.status := (((d.reg.status.setBit Status.BSY false).setBit Status.DSC true).setBit
          Status.DRDY false).setBit Status.DRQ true }
      .ok d.pulseIrq ()

/-- `ReadMultiple` and `WriteMultiple`: one sector at a time is all there is. -/
def multiple (d : IdeDrive β) (unset stubbed : String)
    (body : IdeDrive β → Access (IdeDrive β) Unit) : Access (IdeDrive β) Unit :=
  if d.cfg.multiSect = 0 then .raise d (contractViolation unset .error)
  else if d.cfg.multiSect ≠ 1 then .raise d (.fatal stubbed)
  else d.ready.begin body

def readMultiple (d : IdeDrive β) : Access (IdeDrive β) Unit :=
  d.multiple "Called ReadMultiple before successful call to SetMultipleMode"
    "(stubbed Multi-Sector support) cannot ReadMultiple (0xc4) with multi_sect > 1" readSectors

def writeMultiple (d : IdeDrive β) : Access (IdeDrive β) Unit :=
  d.multiple "Called WriteMultiple before successful call to SetMultipleMode"
    "(stubbed Multi-Sector support) cannot WriteMultiple (0xc4) with multi_sect > 1" writeSectors

/-- `ReadDMA` and `WriteDMA`: the transfer of `body`, with a DMA request. -/
def dma (d : IdeDrive β) (unset : String) (body : IdeDrive β → Access (IdeDrive β) Unit) :
    Access (IdeDrive β) Unit :=
  if !d.cfg.transferMode.isDma then .raise d (contractViolation unset .error)
  else ({ d with dmarq := d.dmarq.assert } : IdeDrive β).ready.begin body

def readDMA (d : IdeDrive β) : Access (IdeDrive β) Unit :=
  d.dma "Called ReadDMA without setting DMA transfer mode" readSectors

def writeDMA (d : IdeDrive β) : Access (IdeDrive β) Unit :=
  d.dma "Called WriteDMA without setting DMA transfer mode" writeSectors

def setMultipleMode (d : IdeDrive β) : Access (IdeDrive β) Unit :=
  let d := { d with cfg.multiSect := d.reg.sectorCount }
  if d.cfg.multiSect > 1 then
    .raise d (.fatal
      "(stubbed Multi-Sector support) SetMultipleMode (0xc6) must be either 0 or 1")
  else .ok d.ready ()

def setFeatures (d : IdeDrive β) : Access (IdeDrive β) Unit :=
  match d.reg.feature with
  | 0x01 => .ok { d with cfg.eightbit := true }.ready ()
  | 0x03 => .ok { d with cfg.transferMode := .fromU8 d.reg.sectorCount }.ready ()
  | 0x81 => .ok { d with cfg.eightbit := false }.ready ()
  | other =>
    .raise d (.fatal ("SetFeatures (0xef) subcommand not implemented: " ++ hexByte other))

def flushCache (d : IdeDrive β) : IdeDrive β :=
  { d with
    reg.status := ((d.reg.status.setBit Status.BSY false).setBit Status.DRDY true).setBit
      Status.DRQ false }

/-- The end of the commands that are done at once: `Recalibrate`, `SetMaxAddress`,
`InitializeDriveParameters`, and `ReadNativeMaxAddress` after its registers. -/
def recalibrate (d : IdeDrive β) : IdeDrive β :=
  let d := { d with
    reg.status := (((d.reg.status.setBit Status.BSY false).setBit Status.DRDY true).setBit
      Status.DSC true).setBit Status.DRQ false }
  d.pulseIrq

def readNativeMaxAddress (d : IdeDrive β) : IdeDrive β :=
  let maxLba := min (BlockDev.len d.blockdev / 512 - 1) 0x0fffffff
  let d := { d with
    reg.lba0SectorNo := BitVec.ofNat 8 maxLba
    reg.lba1CylLo := BitVec.ofNat 8 (maxLba >>> 8)
    reg.lba2CylHi := BitVec.ofNat 8 (maxLba >>> 16)
    reg.lba3DevHead := (d.reg.lba3DevHead &&& ~~~(0x0f : U8)) |||
      (BitVec.ofNat 8 (maxLba >>> 24) &&& 0x0f) }
  d.recalibrate

def unknownCmd (d : IdeDrive β) (cmd : U8) : Access (IdeDrive β) Unit :=
  let d := { d with
    reg.status := (d.reg.status.setBit Status.BSY false).setBit Status.ERR true
    reg.error := 1 }
  .raise d (contractViolation ("unknown IDE command: " ++ hexByte cmd) .warn)

/-- The `match` of `exec_cmd`. Where a command goes on as another one, `exec_cmd` calls
itself with that one, once. -/
def dispatch (cmd : U8) (d : IdeDrive β) : Access (IdeDrive β) Unit :=
  match IdeCmd.tryFrom cmd with
  | some .identifyDevice => d.identifyDevice
  | some .readMultiple => d.readMultiple
  | some .readDMA | some .readDMANoRetry => d.readDMA
  | some .readSectors | some .readSectorsNoRetry => d.readSectors
  | some .standbyImmediate | some .standbyImmediateAlt => .ok d.ready ()
  | some .writeMultiple => d.writeMultiple
  | some .writeDMA | some .writeDMANoRetry => d.writeDMA
  | some .writeSectors | some .writeSectorsNoRetry => d.writeSectors
  | some .setMultipleMode => d.setMultipleMode
  | some .setFeatures => d.setFeatures
  | some .flushCache => .ok d.flushCache ()
  | some .sleep | some .sleepAlt => .ok d.ready.pulseIrq ()
  | some .recalibrate => .ok d.recalibrate ()
  | some .readNativeMaxAddress => .ok d.readNativeMaxAddress ()
  | some .setMaxAddress => .ok d.recalibrate ()
  | some .initializeDriveParameters => .ok d.recalibrate ()
  | none => d.unknownCmd cmd

def execCmd (d : IdeDrive β) (cmd : U8) : Access (IdeDrive β) Unit := d.begin (dispatch cmd)

end IdeDrive
end Clicky
