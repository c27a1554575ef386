import Clicky.Armv4t.Cpu
import Clicky.Lib.Encoding

/-! The instructions of the 32 bit set. -/
namespace Clicky.Armv4t
open CpuM

/-- The register in the four bits from `off` on. -/
def regField (inst : U32) (off : Nat) : Register := .ofBits (inst.extractLsb' off 4)

/-- The registers of a list, in the order the loops over `trailing_zeros` take them. -/
def registerList (list : BitVec 16) : List Register :=
  ((List.finRange 16).filter fun r => list.getLsbD r.val).map (Fin.castLE (by decide))

/-- One transfer after the other, each told how many came before it. -/
def transfers (each : Register → Nat → CpuM Unit) : List Register → Nat → CpuM Unit
  | [], _ => pure ()
  | r :: rs, idx => do
    each r idx
    transfers each rs (idx + 1)

namespace Arm

inductive Instruction where
  | branchEx | branch | dataProc0 | dataProc1 | dataProc2 | psrImm | psrReg | multiply | mulLong
  | singleXferI | singleXferR | hwSgnXferR | hwSgnXferI | blockXfer | swap | softwareInt
  | coprocReg | undefined
  deriving DecidableEq, Repr

namespace Instruction

def matchOrder : List Instruction :=
  [.branch, .branchEx, .swap, .psrImm, .psrReg, .dataProc0, .dataProc1, .dataProc2, .multiply,
    .mulLong, .singleXferI, .singleXferR, .hwSgnXferR, .hwSgnXferI, .blockXfer, .softwareInt,
    .coprocReg, .undefined]

def pattern : Instruction → U32 × U32
  | .branchEx => (0x0ffffff0, 0x012fff10)
  | .branch => (0x0e000000, 0x0a000000)
  | .dataProc0 => (0x0e000010, 0x00000000)
  | .dataProc1 => (0x0e000090, 0x00000010)
  | .dataProc2 => (0x0e000000, 0x02000000)
  | .psrImm => (0x0fb00000, 0x03200000)
  | .psrReg => (0x0f900ff0, 0x01000000)
  | .multiply => (0x0fc000f0, 0x00000090)
  | .mulLong => (0x0f8000f0, 0x00800090)
  | .singleXferI => (0x0e000000, 0x04000000)
  | .singleXferR => (0x0e000010, 0x06000000)
  | .hwSgnXferR => (0x0e400f90, 0x00000090)
  | .hwSgnXferI => (0x0e400090, 0x00400090)
  | .blockXfer => (0x0e000000, 0x08000000)
  | .swap => (0x0fb00ff0, 0x01000090)
  | .softwareInt => (0x0f000000, 0x0f000000)
  | .coprocReg => (0x0f000010, 0x0e000010)
  | .undefined => (0x00000000, 0x00000000)

def fits (typ : Instruction) (inst : U32) : Bool :=
  inst.maskMatch typ.pattern.1 typ.pattern.2

def decode (inst : U32) : Instruction := (matchOrder.find? (·.fits inst)).getD .undefined

end Instruction

def branchEx (inst : U32) : CpuM Unit := do
  let rn := regField inst 0
  let newPc ← reg rn
  setReg .pc (newPc &&& ~~~1)
  setReg .cpsr ((← reg .cpsr) ||| bitAt (newPc.getBit 0) flagT)

def branch (inst pc : U32) : CpuM Unit := do
  let offset := (inst.extractLsb' 0 24).setWidth 32
  let sOffset := (offset <<< 8).sshiftRight 6
  setReg .pc (pc + sOffset + 8)
  when (inst.getBit 24) (setReg .lr (pc + 4))

def kindAssertion : String := "assertion failed: (r == 1) == (inst_type == DataProc1)"
def rsAssertion : String := "assertion failed: rs <= 14u8"

/-- How far to shift: an immediate, or the low byte of a register. -/
def shiftAmount (typ : Instruction) (inst : U32) : CpuM Nat :=
  if typ = .dataProc0 then pure (inst.extractLsb' 7 5).toNat
  else do
    let rs := regField inst 8
    debugAssert (rs.val ≤ 14) rsAssertion
    return ((← reg rs) &&& 0xff).toNat

def regOperand (typ : Instruction) (inst : U32) (c : Bool) : CpuM Shifted := do
  let r := inst.getBit 4
  debugAssert (r = decide (typ = .dataProc1)) kindAssertion
  let rm := regField inst 0
  let shiftType := inst.extractLsb' 5 2
  let shift ← shiftAmount typ inst
  let valm := (← reg rm) + if rm = .pc then (if r then 8 else 4) else 0
  return if !r ∧ shift = 0 then argShift0 valm shiftType c
    else if shift ≠ 0 then argShift valm shift shiftType
    else (valm, c)

def immOperand (inst : U32) : Shifted :=
  let shift := (inst.extractLsb' 8 4).toNat * 2
  let imm := (inst.extractLsb' 0 8).setWidth 32
  shiftRor imm shift

/-- The second operand of a data processing instruction, and the carry of the shifter. -/
def operand (typ : Instruction) (inst : U32) (c : Bool) : CpuM Shifted :=
  if typ = .dataProc0 ∨ typ = .dataProc1 then regOperand typ inst c else pure (immOperand inst)

/-- The result of an operation and the flags it sets, from the flags there are. -/
def compute (opcode : BitVec 4) (valn valm : U32) (v c shiftCarry : Bool) : Flagged :=
  match opcode with
  | 0x0 | 0x8 => ⟨valn &&& valm, v, shiftCarry⟩
  | 0x1 | 0x9 => ⟨valn ^^^ valm, v, shiftCarry⟩
  | 0x2 | 0xA => subFlags valn valm false
  | 0x3 => subFlags valm valn false
  | 0x4 | 0xB => addFlags valn valm false
  | 0x5 => addFlags valn valm c
  | 0x6 => subFlags valn valm !c
  | 0x7 => subFlags valm valn !c
  | 0xC => ⟨valn ||| valm, v, shiftCarry⟩
  | 0xD => ⟨valm, v, shiftCarry⟩
  | 0xE => ⟨valn &&& ~~~valm, v, shiftCarry⟩
  | _ => ⟨~~~valm, v, shiftCarry⟩

/-- The operations that only compare. -/
def compares : BitVec 4 → Bool
  | 0x8 | 0x9 | 0xA | 0xB => true
  | _ => false

/-- The status that was saved on the entry of the current mode becomes the current one. -/
def restoreStatus : CpuM Unit := do
  let spsr ← reg .spsr
  fileSet (← mode).regBank .cpsr spsr

def dataProc (typ : Instruction) (inst cpsr : U32) : CpuM Unit := do
  let i := inst.getBit 25
  let s := inst.getBit 20
  let r := inst.getBit 4
  let c := cpsr.getBit flagC
  let v := cpsr.getBit flagV
  let opcode := inst.extractLsb' 21 4
  let rn := regField inst 16
  let rd := regField inst 12
  let valm ← operand typ inst c
  let valn := (← reg rn) + if rn = .pc then (if !i && r then 8 else 4) else 0
  let new := compute opcode valn valm.1 v c valm.2
  when s (if rd ≠ .pc then setFlags (buildFlags new.v new.c (new.res == 0) (isNeg new.res))
    else restoreStatus)
  when (!compares opcode) (setReg rd new.res)

/-- What an `MSR` writes, before the mask. -/
def psrVal (inst : U32) : CpuM U32 :=
  if !inst.getBit 25 then reg (regField inst 0)
  else
    let rot := (inst.extractLsb' 8 4).toNat * 2
    let imm : U32 := (inst.extractLsb' 0 8).setWidth 32
    pure (imm.rotateRight rot)

/-- The bits an `MSR` writes. User mode cannot change the control bits. -/
def psrMask (inst : U32) (mode : Mode) : U32 :=
  let f := inst.getBit 19
  let ctrl := mode != .user && inst.getBit 16
  (if f then 0xf0000000 else 0) + if ctrl then 0x000000ff else 0

/-- Only a write to the current status checks the mode bits. -/
def writePsr (rs : Register) (newPsr : U32) : CpuM Unit :=
  if rs = .cpsr then do fileSet (← mode).regBank .cpsr newPsr else setReg rs newPsr

def psrTarget (inst : U32) : Register := if inst.getBit 22 then .spsr else .cpsr

def psrWrite (inst : U32) : CpuM Unit := do
  let mask := psrMask inst (← mode)
  let val ← psrVal inst
  let cur ← reg (psrTarget inst)
  writePsr (psrTarget inst) ((cur &&& ~~~mask) ||| (val &&& mask))

def psr (inst : U32) : CpuM Unit :=
  if !inst.getBit 21 then do setReg (regField inst 12) (← reg (psrTarget inst)) else psrWrite inst

def multiply (inst cpsr : U32) : CpuM Unit := do
  let rd := regField inst 16
  let rn := regField inst 12
  let rs := regField inst 8
  let rm := regField inst 0
  let prod := (← reg rm) * (← reg rs)
  let res := prod + (← (if inst.getBit 21 then reg rn else pure 0))
  setReg rd res
  when (inst.getBit 20) (setFlags (buildFlags (cpsr.getBit flagV) false (res == 0) (res.getBit 31)))

def mulLong (inst : U32) : CpuM Unit := do
  let rdhi := regField inst 16
  let rdlo := regField inst 12
  let vs ← reg (regField inst 8)
  let vm ← reg (regField inst 0)
  let hi ← reg rdhi
  let lo ← reg rdlo
  let prod : BitVec 64 :=
    if !inst.getBit 22 then vs.setWidth 64 * vm.setWidth 64
    else vs.signExtend 64 * vm.signExtend 64
  let res := prod + if inst.getBit 21 then combine64 hi lo else 0
  setReg rdhi (split64 res).1
  setReg rdlo (split64 res).2
  when (inst.getBit 20) (setFlags (buildFlags false false (res == 0) ((split64 res).1.getBit 31)))

/-- Where a transfer with this base and offset goes to, and what the base becomes. -/
def addresses (inst base offset : U32) : U32 × U32 :=
  let postAddr := if inst.getBit 23 then base + offset else base - offset
  (if inst.getBit 24 then postAddr else base, postAddr)

/-- Post-indexing implies a writeback. A loaded register is not overwritten by it. -/
def writeback (inst : U32) (rn rd : Register) (postAddr : U32) : CpuM Unit :=
  when ((!inst.getBit 24 ∨ inst.getBit 21) ∧ (rd ≠ rn ∨ !inst.getBit 20)) (setReg rn postAddr)

/-- The base of a transfer: relative to the program counter, it is two words ahead. -/
def transferBase (rn : Register) : CpuM U32 :=
  return (← reg rn) + if rn = .pc then 4 else 0

/-- What a store takes from a register. -/
def storeVal (rd : Register) : CpuM U32 := return (← reg rd) + if rd = .pc then 8 else 0

def singleOffset (typ : Instruction) (inst cpsr : U32) : CpuM U32 :=
  if typ = .singleXferI then pure ((inst.extractLsb' 0 12).setWidth 32)
  else do
    let shift := (inst.extractLsb' 7 5).toNat
    let shiftType := inst.extractLsb' 5 2
    let valm ← reg (regField inst 0)
    return if shift = 0 then (argShift0 valm shiftType (cpsr.getBit flagC)).1
      else (argShift valm shift shiftType).1

def singleXfer (typ : Instruction) (inst cpsr : U32) : CpuM Unit := do
  let b := inst.getBit 22
  let l := inst.getBit 20
  let rn := regField inst 16
  let rd := regField inst 12
  let offset ← singleOffset typ inst cpsr
  let base ← transferBase rn
  let (addr, postAddr) := addresses inst base offset
  (if !l then do
    let val ← storeVal rd
    if !b then w32 addr val else w8 addr (val.setWidth 8)
  else do setReg rd (← (if !b then r32 addr else BitVec.setWidth 32 <$> r8 addr)))
  writeback inst rn rd postAddr

def storeAssertion : String := "assertion failed: s == 0 && h == 1"
def unreachable : String := "internal error: entered unreachable code"

def hwSgnOffset (typ : Instruction) (inst : U32) : CpuM U32 :=
  if typ = .hwSgnXferR then reg (regField inst 0)
  else
    let hi : U32 := (inst.extractLsb' 8 4).setWidth 32
    pure ((hi <<< 4) ||| (inst.extractLsb' 0 4).setWidth 32)

/-- What a signed or halfword load brings. -/
def hwSgnLoad (s h : Bool) (addr : U32) : CpuM U32 :=
  match s, h with
  | false, false => crash unreachable
  | false, true => BitVec.setWidth 32 <$> r16 (addr &&& ~~~1)
  | true, false => BitVec.signExtend 32 <$> r8 addr
  | true, true => BitVec.signExtend 32 <$> r16 (addr &&& ~~~1)

def hwSgnXfer (typ : Instruction) (inst : U32) : CpuM Unit := do
  let l := inst.getBit 20
  let s := inst.getBit 6
  let h := inst.getBit 5
  let rn := regField inst 16
  let rd := regField inst 12
  let offset ← hwSgnOffset typ inst
  let base ← transferBase rn
  let (addr, postAddr) := addresses inst base offset
  (if !l then do
    debugAssert (!s ∧ h) storeAssertion
    let val ← storeVal rd
    w16 (addr &&& ~~~1) (val.setWidth 16)
  else do setReg rd (← hwSgnLoad s h addr))
  writeback inst rn rd postAddr

/-- What a block store takes from a register: from the base, what it was, if it comes first. -/
def blockVal (pc : U32) (w : Bool) (rn r : Register) (idx : Nat) (origBase : U32) : CpuM U32 :=
  if r = .pc then pure (pc + 12)
  else if r = rn ∧ w ∧ idx = 0 then pure origBase
  else reg r

def blockXfer (inst pc : U32) : CpuM Unit := do
  let p := inst.getBit 24
  let u := inst.getBit 23
  let s := inst.getBit 22
  let w := inst.getBit 21
  let l := inst.getBit 20
  let rn := regField inst 16
  let reglist := inst.extractLsb' 0 16
  let total := (registerList reglist).length
  let origBase ← reg rn
  let size := BitVec.ofNat 32 (total * 4)
  let postAddr := if u then origBase + size else origBase - size
  let addr := if u then origBase else postAddr
  -- going up and incrementing before, or down and decrementing after, starts a word further on
  let preIncr := if p = u then 1 else 0
  let idxAddr (idx : Nat) : U32 := addr + BitVec.ofNat 32 ((idx + preIncr) * 4)
  if !s ∨ reglist.getBit 15 then do
    when w (setReg rn postAddr)
    transfers (fun r idx =>
      if !l then do w32 (idxAddr idx) (← blockVal pc w rn r idx origBase)
      else do
        setReg r (← r32 (idxAddr idx))
        when (r = .pc ∧ s) restoreStatus) (registerList reglist) 0
  else
    transfers (fun r idx =>
      if !l then do w32 (idxAddr idx) (← fileGet 0 r)
      else do fileSet 0 r (← r32 (idxAddr idx))) (registerList reglist) 0

def swap (inst : U32) : CpuM Unit := do
  let b := inst.getBit 22
  let rn := regField inst 16
  let rd := regField inst 12
  let rm := regField inst 0
  let addr := (← reg rn) &&& ~~~(if b then 0 else 3)
  let val ← (if !b then r32 addr else BitVec.setWidth 32 <$> r8 addr)
  let oval ← reg rm
  (if !b then w32 addr oval else w8 addr (oval.setWidth 8))
  setReg rd val

/-- There are no coprocessors: a write is only logged, and a read gives 0. -/
def coprocReg (inst : U32) : CpuM Unit :=
  when (inst.getBit 20) (setReg (regField inst 12) 0)

/-- The instruction itself, after the program counter has moved on and the condition is met. `pc` is
its address, and `cpsr` the status it started with. -/
def perform (typ : Instruction) (inst pc cpsr : U32) : CpuM Bool :=
  match typ with
  | .branchEx => do branchEx inst; return true
  | .branch => do branch inst pc; return true
  | .dataProc0 | .dataProc1 | .dataProc2 => do dataProc typ inst cpsr; return true
  | .psrImm | .psrReg => do psr inst; return true
  | .multiply => do multiply inst cpsr; return true
  | .mulLong => do mulLong inst; return true
  | .singleXferI | .singleXferR => do singleXfer typ inst cpsr; return true
  | .hwSgnXferR | .hwSgnXferI => do hwSgnXfer typ inst; return true
  | .blockXfer => do blockXfer inst pc; return true
  | .swap => do swap inst; return true
  | .softwareInt => do exception .software; return true
  | .coprocReg => do coprocReg inst; return true
  | .undefined => return false

/-- What follows the fetch. -/
def execute (inst pc : U32) : CpuM Bool := do
  let cpsr ← reg .cpsr
  setReg .pc (pc + 4)
  if !condMet (inst.extractLsb' 28 4) cpsr then return true
  else perform (Instruction.decode inst) inst pc cpsr

end Arm

/-- Whether the word fetched is an instruction. -/
def executeArm : CpuM Bool := do
  let pc ← reg .pc
  let inst ← x32 pc
  Arm.execute inst pc

end Clicky.Armv4t
