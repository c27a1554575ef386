import Clicky.Armv4t.Arm

/-! The instructions of the 16 bit set. -/
namespace Clicky.Armv4t
open CpuM

namespace Thumb

inductive Instruction where
  | shifted | addSub | immOp | aluOp | hiRegBx | pcLoad | singleXferR | hwSgnXfer | singleXferI
  | hwXferI | spXfer | loadAddr | spAdd | pushPop | blockXfer | condBranch | softwareInt | branch
  | longBranch | undefined
  deriving DecidableEq, Repr

namespace Instruction

def matchOrder : List Instruction :=
  [.branch, .addSub, .aluOp, .shifted, .immOp, .hiRegBx, .pcLoad, .singleXferR, .hwSgnXfer,
    .singleXferI, .hwXferI, .spXfer, .loadAddr, .spAdd, .pushPop, .blockXfer, .softwareInt,
    .condBranch, .longBranch, .undefined]

def pattern : Instruction → U16 × U16
  | .shifted => (0xe000, 0x0000)
  | .addSub => (0xf800, 0x1800)
  | .immOp => (0xe000, 0x2000)
  | .aluOp => (0xfc00, 0x4000)
  | .hiRegBx => (0xfc00, 0x4400)
  | .pcLoad => (0xf800, 0x4800)
  | .singleXferR => (0xf200, 0x5000)
  | .hwSgnXfer => (0xf200, 0x5200)
  | .singleXferI => (0xe000, 0x6000)
  | .hwXferI => (0xf000, 0x8000)
  | .spXfer => (0xf000, 0x9000)
  | .loadAddr => (0xf000, 0xa000)
  | .spAdd => (0xff00, 0xb000)
  | .pushPop => (0xf600, 0xb400)
  | .blockXfer => (0xf000, 0xc000)
  | .condBranch => (0xf000, 0xd000)
  | .softwareInt => (0xff00, 0xdf00)
  | .branch => (0xf800, 0xe000)
  | .longBranch => (0xf000, 0xf000)
  | .undefined => (0x0000, 0x0000)

def fits (typ : Instruction) (inst : U16) : Bool :=
  inst.maskMatch typ.pattern.1 typ.pattern.2

def decode (inst : U16) : Instruction := (matchOrder.find? (·.fits inst)).getD .undefined

end Instruction

/-- The low register in the three bits from `off` on. -/
def lowField (inst : U16) (off : Nat) : Register := .ofBits ((inst.extractLsb' off 3).setWidth 4)

/-- An unsigned number in the `len` bits from `off` on. -/
def immField (inst : U16) (off len : Nat) : U32 := (inst.extractLsb' off len).setWidth 32

def setFlagsOf (res : U32) (v c : Bool) : CpuM Unit :=
  setFlags (buildFlags v c (res == 0) (isNeg res))

def shifted (inst : U16) (cpsr : U32) : CpuM Unit := do
  let op := inst.extractLsb' 11 2
  let shift := (inst.extractLsb' 6 5).toNat
  let rs := lowField inst 3
  let rd := lowField inst 0
  let val ← reg rs
  let new :=
    if shift = 0 then argShift0 val op (cpsr.getBit flagC) else argShift val shift op
  setReg rd new.1
  setFlagsOf new.1 (cpsr.getBit flagV) new.2

def addSub (inst : U16) : CpuM Unit := do
  let i := inst.getBit 10
  let op := inst.getBit 9
  let rs := lowField inst 3
  let rd := lowField inst 0
  let val2 ← (if !i then reg (lowField inst 6) else pure (immField inst 6 3))
  let vals ← reg rs
  let new := if !op then addFlags vals val2 false else subFlags vals val2 false
  setReg rd new.res
  setFlagsOf new.res new.v new.c

def immOp (inst : U16) (cpsr : U32) : CpuM Unit := do
  let op := inst.extractLsb' 11 2
  let rd := lowField inst 8
  let imm := immField inst 0 8
  let vald ← reg rd
  let new : Flagged :=
    match op with
    | 0 => ⟨imm, cpsr.getBit flagV, cpsr.getBit flagC⟩
    | 1 | 3 => subFlags vald imm false
    | 2 => addFlags vald imm false
  when (op ≠ 1) (setReg rd new.res)
  setFlagsOf new.res new.v new.c

def aluCompute (op : BitVec 4) (vald vals : U32) (v c : Bool) : Flagged :=
  match op with
  | 0x0 | 0x8 => ⟨vald &&& vals, v, c⟩
  | 0x1 => ⟨vald ^^^ vals, v, c⟩
  | 0x2 | 0x3 | 0x4 | 0x7 =>
    let shift := (vals &&& 0xff).toNat
    let shiftType : BitVec 4 := ((op >>> 1) &&& 2) ||| (op &&& 1)
    let new := if shift = 0 then (vald, c) else argShift vald shift (shiftType.setWidth 2)
    ⟨new.1, v, new.2⟩
  | 0x5 => addFlags vald vals c
  | 0x6 => subFlags vald vals !c
  | 0x9 => subFlags 0 vals false
  | 0xA => subFlags vald vals false
  | 0xB => addFlags vald vals false
  | 0xC => ⟨vald ||| vals, v, c⟩
  | 0xD => ⟨vald * vals, v, false⟩
  | 0xE => ⟨vald &&& ~~~vals, v, c⟩
  | _ => ⟨~~~vals, v, c⟩

/-- The operations that only compare. -/
def aluCompares : BitVec 4 → Bool
  | 0x8 | 0xA | 0xB => true
  | _ => false

def aluOp (inst : U16) (cpsr : U32) : CpuM Unit := do
  let op := inst.extractLsb' 6 4
  let rs := lowField inst 3
  let rd := lowField inst 0
  let vals ← reg rs
  let vald ← reg rd
  let new := aluCompute op vald vals (cpsr.getBit flagV) (cpsr.getBit flagC)
  when (!aluCompares op) (setReg rd new.res)
  setFlagsOf new.res new.v new.c

/-- A branch to an address that names the instruction set in its lowest bit. -/
def bx (vals cpsr : U32) : CpuM Unit := do
  let newT := vals.getBit 0
  setReg .pc (vals &&& (if !newT then ~~~3 else ~~~1 : U32))
  setReg .cpsr ((cpsr &&& ~~~((1 : U32) <<< flagT)) ||| bitAt newT flagT)

def hiRegOp (op : BitVec 2) (crd : Register) (vals cpsr : U32) : CpuM Unit :=
  match op with
  | 0 => do setReg crd ((← reg crd) + vals)
  | 1 => do
    let new := subFlags (← reg crd) vals false
    setFlagsOf new.res new.v new.c
  | 2 => setReg crd vals
  | 3 => bx vals cpsr

def hiRegBx (inst : U16) (cpsr : U32) : CpuM Unit := do
  let op := inst.extractLsb' 8 2
  let crs : Register := .ofBits (inst.extractLsb' 3 4)
  let crd : Register := .ofBits (inst.extractLsb' 7 1 ++ inst.extractLsb' 0 3)
  let vals := (← reg crs) + if crs = .pc then 2 else 0
  hiRegOp op crd vals cpsr
  if crd = .pc then setReg .pc ((← reg .pc) &&& ~~~1)

def pcLoad (inst : U16) : CpuM Unit := do
  let rd := lowField inst 8
  let offset := immField inst 0 8
  let addr := ((← reg .pc) + 2 + offset * 4) &&& ~~~3
  setReg rd (← r32 addr)

def singleXferR (inst : U16) : CpuM Unit := do
  let l := inst.getBit 11
  let b := inst.getBit 10
  let rd := lowField inst 0
  let offset ← reg (lowField inst 6)
  let addr := (← reg (lowField inst 3)) + offset
  match l, b with
  | false, false => w32 addr (← reg rd)
  | false, true => w8 addr ((← reg rd).setWidth 8)
  | true, false => setReg rd (← r32 addr)
  | true, true => setReg rd ((← r8 addr).setWidth 32)

def hwSgnXfer (inst : U16) : CpuM Unit := do
  let h := inst.getBit 11
  let s := inst.getBit 10
  let rd := lowField inst 0
  let offset ← reg (lowField inst 6)
  let addr := (← reg (lowField inst 3)) + offset
  match s, h with
  | false, false => w16 (addr &&& ~~~1) ((← reg rd).setWidth 16)
  | false, true => setReg rd ((← r16 (addr &&& ~~~1)).setWidth 32)
  | true, false => setReg rd ((← r8 addr).signExtend 32)
  | true, true => setReg rd ((← r16 (addr &&& ~~~1)).signExtend 32)

def singleXferI (inst : U16) : CpuM Unit := do
  let l := inst.getBit 11
  let b := inst.getBit 12
  let offset := immField inst 6 5
  let rb := lowField inst 3
  let rd := lowField inst 0
  if !b then
    let addr := (← reg rb) + offset * 4
    if !l then w32 addr (← reg rd) else setReg rd (← r32 addr)
  else
    let addr := (← reg rb) + offset
    if !l then w8 addr ((← reg rd).setWidth 8) else setReg rd ((← r8 addr).setWidth 32)

def hwXferI (inst : U16) : CpuM Unit := do
  let l := inst.getBit 11
  let offset := immField inst 6 5
  let rb := lowField inst 3
  let rd := lowField inst 0
  let addr := ((← reg rb) + offset * 2) &&& ~~~1
  if !l then w16 addr ((← reg rd).setWidth 16) else setReg rd ((← r16 addr).setWidth 32)

def spXfer (inst : U16) : CpuM Unit := do
  let l := inst.getBit 11
  let rd := lowField inst 8
  let offset := immField inst 0 8 * 4
  let addr := (← reg .sp) + offset
  if !l then w32 addr (← reg rd) else setReg rd (← r32 addr)

def loadAddr (inst : U16) : CpuM Unit := do
  let s := inst.getBit 11
  let rd := lowField inst 8
  let imm := immField inst 0 8
  let pc ← reg .pc
  let sp ← reg .sp
  let base := if !s then (pc + 2) &&& ~~~2 else sp
  setReg rd (base + imm * 4)

def spAdd (inst : U16) : CpuM Unit := do
  let s := inst.getBit 7
  let imm := immField inst 0 7 * 4
  let sp ← reg .sp
  setReg .sp (if !s then sp + imm else sp - imm)

def pushPop (inst : U16) : CpuM Unit := do
  let l := inst.getBit 11
  let r := inst.getBit 8
  let rlist := inst.extractLsb' 0 8
  let total := (registerList (rlist.setWidth 16)).length + if r then 1 else 0
  let base ← reg .sp
  let size := BitVec.ofNat 32 (total * 4)
  let postAddr := if !l then base - size else base + size
  let addr := if !l then postAddr else base
  let extra : BitVec 16 := if r then (if !l then 1 <<< 14 else 1 <<< 15) else 0
  transfers (fun r i =>
    let idxAddr := addr + BitVec.ofNat 32 (i * 4)
    if !l then do w32 idxAddr (← reg r)
    else do setReg r ((← r32 idxAddr) &&& (if r = .pc then ~~~1 else ~~~0 : U32)))
    (registerList (rlist.setWidth 16 ||| extra)) 0
  setReg .sp postAddr

def blockXfer (inst : U16) : CpuM Unit := do
  let l := inst.getBit 11
  let rb := lowField inst 8
  let rlist := registerList ((inst.extractLsb' 0 8).setWidth 16)
  let base ← reg rb
  setReg rb (base + BitVec.ofNat 32 (rlist.length * 4))
  transfers (fun r i =>
    let idxAddr := base + BitVec.ofNat 32 (i * 4)
    if !l then do w32 idxAddr (← (if i = 0 ∧ r = rb then pure base else reg r))
    else do setReg r (← r32 idxAddr)) rlist 0

def condBranch (inst : U16) (pc cpsr : U32) : CpuM Unit := do
  let offset := (inst.extractLsb' 0 8).signExtend 32
  if condMet (inst.extractLsb' 8 4) cpsr then setReg .pc (pc + 4 + (offset <<< 1))

def branch (inst : U16) (pc : U32) : CpuM Unit := do
  let offset := signExtend (immField inst 0 11 <<< 1) 12
  setReg .pc (pc + 4 + offset)

def longBranch (inst : U16) (pc : U32) : CpuM Unit := do
  let offset := immField inst 0 11
  if !inst.getBit 11 then
    setReg .lr (pc + 4 + signExtend (offset <<< 12) 23)
  else
    setReg .pc ((← reg .lr) + (offset <<< 1))
    setReg .lr ((pc + 2) ||| 1)

/-- The instruction itself, after the program counter has moved on. `pc` is its address, and `cpsr`
the status it started with. -/
def perform (typ : Instruction) (inst : U16) (pc cpsr : U32) : CpuM Bool :=
  match typ with
  | .shifted => do shifted inst cpsr; return true
  | .addSub => do addSub inst; return true
  | .immOp => do immOp inst cpsr; return true
  | .aluOp => do aluOp inst cpsr; return true
  | .hiRegBx => do hiRegBx inst cpsr; return true
  | .pcLoad => do pcLoad inst; return true
  | .singleXferR => do singleXferR inst; return true
  | .hwSgnXfer => do hwSgnXfer inst; return true
  | .singleXferI => do singleXferI inst; return true
  | .hwXferI => do hwXferI inst; return true
  | .spXfer => do spXfer inst; return true
  | .loadAddr => do loadAddr inst; return true
  | .spAdd => do spAdd inst; return true
  | .pushPop => do pushPop inst; return true
  | .blockXfer => do blockXfer inst; return true
  | .condBranch => do condBranch inst pc cpsr; return true
  | .softwareInt => do exception .software; return true
  | .branch => do branch inst pc; return true
  | .longBranch => do longBranch inst pc; return true
  | .undefined => return false

/-- What follows the fetch. -/
def execute (inst : U16) (pc : U32) : CpuM Bool := do
  let cpsr ← reg .cpsr
  setReg .pc (pc + 2)
  perform (Instruction.decode inst) inst pc cpsr

end Thumb

/-- Whether the halfword fetched is an instruction. -/
def executeThumb : CpuM Bool := do
  let pc ← reg .pc
  let inst ← x16 pc
  Thumb.execute inst pc

end Clicky.Armv4t
