import Clicky.Armv4t.Flags
import Clicky.Armv4t.Transfers

/-! The 16 bit instructions as 32 bit ones: the word that each of them stands for, and that the two
halves of the interpreter do the same on the two. -/
namespace Clicky.Armv4t
open CpuM BitVec

namespace Thumb

/-- A low register at its place in a word. -/
def low (inst : U16) (off place : Nat) : U32 := field 32 place (inst.extractLsb' off 3)

/-- The word that a register operation stands for. -/
def expandAlu (inst : U16) : U32 :=
  let rs := low inst 3
  let rd := low inst 0
  match inst.extractLsb' 6 4 with
  | 0x0 => 0xe0100000 ||| rd 16 ||| rd 12 ||| rs 0
  | 0x1 => 0xe0300000 ||| rd 16 ||| rd 12 ||| rs 0
  | 0x2 => 0xe1b00010 ||| rd 12 ||| rs 8 ||| rd 0
  | 0x3 => 0xe1b00030 ||| rd 12 ||| rs 8 ||| rd 0
  | 0x4 => 0xe1b00050 ||| rd 12 ||| rs 8 ||| rd 0
  | 0x5 => 0xe0b00000 ||| rd 16 ||| rd 12 ||| rs 0
  | 0x6 => 0xe0d00000 ||| rd 16 ||| rd 12 ||| rs 0
  | 0x7 => 0xe1b00070 ||| rd 12 ||| rs 8 ||| rd 0
  | 0x8 => 0xe1100000 ||| rd 16 ||| rs 0
  | 0x9 => 0xe2700000 ||| rs 16 ||| rd 12
  | 0xA => 0xe1500000 ||| rd 16 ||| rs 0
  | 0xB => 0xe1700000 ||| rd 16 ||| rs 0
  | 0xC => 0xe1900000 ||| rd 16 ||| rd 12 ||| rs 0
  | 0xD => 0xe0100090 ||| rd 16 ||| rd 8 ||| rs 0
  | 0xE => 0xe1d00000 ||| rd 16 ||| rd 12 ||| rs 0
  | _ => 0xe1f00000 ||| rd 12 ||| rs 0

/-- `MOV`, `CMP`, `ADD` and `SUB` of an immediate. -/
def expandImm (inst : U16) : U32 :=
  let rd := low inst 8
  let imm := field 32 0 (inst.extractLsb' 0 8)
  match inst.extractLsb' 11 2 with
  | 0 => 0xe3b00000 ||| rd 12 ||| imm
  | 1 => 0xe3500000 ||| rd 16 ||| imm
  | 2 => 0xe2900000 ||| rd 16 ||| rd 12 ||| imm
  | 3 => 0xe2500000 ||| rd 16 ||| rd 12 ||| imm

/-- `ADD`, `CMP` and `MOV` of any registers but the program counter. -/
def expandHiReg (inst : U16) : Option U32 :=
  let crs := inst.extractLsb' 3 4
  let crd := inst.extractLsb' 7 1 ++ inst.extractLsb' 0 3
  if crs = 15 ∨ crd = 15 then none
  else
    match inst.extractLsb' 8 2 with
    | 0 => some (0xe0800000 ||| field 32 16 crd ||| field 32 12 crd ||| field 32 0 crs)
    | 1 => some (0xe1500000 ||| field 32 16 crd ||| field 32 0 crs)
    | 2 => some (0xe1a00000 ||| field 32 12 crd ||| field 32 0 crs)
    | 3 => none

def expandShifted (inst : U16) : U32 :=
  0xe1b00000 ||| low inst 0 12 ||| field 32 7 (inst.extractLsb' 6 5) |||
    field 32 5 (inst.extractLsb' 11 2) ||| low inst 3 0

def expandAddSub (inst : U16) : U32 :=
  let rs := low inst 3 16
  let rd := low inst 0 12
  let rn := low inst 6 0
  match inst.getBit 10, inst.getBit 9 with
  | false, false => 0xe0900000 ||| rs ||| rd ||| rn
  | false, true => 0xe0500000 ||| rs ||| rd ||| rn
  | true, false => 0xe2900000 ||| rs ||| rd ||| rn
  | true, true => 0xe2500000 ||| rs ||| rd ||| rn

/-- A transfer at an address that is the sum of two registers. -/
def expandXferR (op : U32) (inst : U16) : U32 := op ||| low inst 3 16 ||| low inst 0 12 ||| low inst 6 0

def expandSingleR (inst : U16) : U32 :=
  match inst.getBit 11, inst.getBit 10 with
  | false, false => expandXferR 0xe7800000 inst
  | false, true => expandXferR 0xe7c00000 inst
  | true, false => expandXferR 0xe7900000 inst
  | true, true => expandXferR 0xe7d00000 inst

def expandHwSgn (inst : U16) : U32 :=
  match inst.getBit 10, inst.getBit 11 with
  | false, false => expandXferR 0xe18000b0 inst
  | false, true => expandXferR 0xe19000b0 inst
  | true, false => expandXferR 0xe19000d0 inst
  | true, true => expandXferR 0xe19000f0 inst

def expandSingleI (inst : U16) : U32 :=
  let rb := low inst 3 16
  let rd := low inst 0 12
  let offset := inst.extractLsb' 6 5
  match inst.getBit 12, inst.getBit 11 with
  | false, false => 0xe5800000 ||| rb ||| rd ||| field 32 2 offset
  | false, true => 0xe5900000 ||| rb ||| rd ||| field 32 2 offset
  | true, false => 0xe5c00000 ||| rb ||| rd ||| field 32 0 offset
  | true, true => 0xe5d00000 ||| rb ||| rd ||| field 32 0 offset

def expandHwI (inst : U16) : U32 :=
  (if inst.getBit 11 then 0xe1d000b0 else 0xe1c000b0) ||| low inst 3 16 ||| low inst 0 12 |||
    field 32 8 (inst.extractLsb' 9 2) ||| low inst 6 1

def expandSp (inst : U16) : U32 :=
  (if inst.getBit 11 then 0xe59d0000 else 0xe58d0000) ||| low inst 8 12 |||
    field 32 2 (inst.extractLsb' 0 8)

def expandSpAdd (inst : U16) : U32 :=
  (if inst.getBit 7 then 0xe24ddf00 else 0xe28ddf00) ||| field 32 0 (inst.extractLsb' 0 7)

def expandPush (inst : U16) : U32 :=
  0xe92d0000 ||| field 32 14 (inst.extractLsb' 8 1) ||| field 32 0 (inst.extractLsb' 0 8)

def expandBlock (inst : U16) : U32 :=
  (if inst.getBit 11 then 0xe8b00000 else 0xe8a00000) ||| low inst 8 16 |||
    field 32 0 (inst.extractLsb' 0 8)

/-- The word that an instruction stands for, if the program counter has no part in it. -/
def expand (inst : U16) : Option U32 :=
  match Instruction.decode inst with
  | .shifted => some (expandShifted inst)
  | .addSub => some (expandAddSub inst)
  | .immOp => some (expandImm inst)
  | .aluOp => some (expandAlu inst)
  | .hiRegBx => expandHiReg inst
  | .singleXferR => some (expandSingleR inst)
  | .hwSgnXfer => some (expandHwSgn inst)
  | .singleXferI => some (expandSingleI inst)
  | .hwXferI => some (expandHwI inst)
  | .spXfer => some (expandSp inst)
  | .loadAddr =>
    if inst.getBit 11 then some (0xe28d0f00 ||| low inst 8 12 ||| field 32 0 (inst.extractLsb' 0 8))
    else none
  | .spAdd => some (expandSpAdd inst)
  | .pushPop =>
    if !inst.getBit 11 then some (expandPush inst)
    else if inst.getBit 8 then none
    else some (0xe8bd0000 ||| field 32 0 (inst.extractLsb' 0 8))
  | .blockXfer => some (expandBlock inst)
  | .softwareInt => some (0xef000000 ||| field 32 0 (inst.extractLsb' 0 8))
  | .pcLoad | .condBranch | .branch | .longBranch | .undefined => none

/-! ### The fields of the words -/

@[simp] theorem ofBits_eq_pc (x : BitVec 4) : Register.ofBits x = .pc ↔ x = 15#4 := by
  revert x
  decide

@[simp] theorem setWidth_low_ne (x : BitVec 3) : x.setWidth 4 ≠ 15#4 := by
  revert x
  decide

@[simp] theorem ofBits_low_val (x : BitVec 3) : (Register.ofBits (x.setWidth 4)).val ≤ 14 := by
  revert x
  decide

@[simp] theorem ofBits_sp : Register.ofBits 13#4 = .sp := rfl

@[simp] theorem sp_ne_pc : Register.sp ≠ .pc := by decide

/-- Offsets in words, as the twelve bits of a transfer have them. -/
theorem wordOffset_field {n : Nat} (x : BitVec n) (short : n ≤ 10) :
    (field 12 2 x).setWidth 32 = x.setWidth 32 * 4#32 := by
  apply eq_of_toNat_eq
  have lt : x.toNat < 2 ^ 10 := x.isLt.trans_le (Nat.pow_le_pow_right (by decide) short)
  simp [field, Nat.shiftLeft_eq]
  omega

/-- And as a byte with a rotation has them. -/
theorem wordOffset_rotated {n : Nat} (x : BitVec n) (short : n ≤ 8) :
    (x.setWidth 32).rotateRight 30 = x.setWidth 32 * 4#32 := by
  have byte : ∀ x : BitVec 8, (x.setWidth 32).rotateRight 30 = x.setWidth 32 * 4#32 := by decide
  have widened : (x.setWidth 8).setWidth 32 = x.setWidth 32 := setWidth_setWidth (by omega)
  rw [← widened, byte]

/-- Offsets in halfwords, split as a halfword transfer has them. -/
theorem halfwordOffset_split (inst : U16) :
    (inst.extractLsb' 9 2).setWidth 32 <<< 4 ||| (field 4 1 (inst.extractLsb' 6 3)).setWidth 32 =
      immField inst 6 5 * 2#32 := by
  have split : ∀ x : BitVec 5, (x.extractLsb' 3 2).setWidth 32 <<< 4 |||
      (field 4 1 (x.extractLsb' 0 3)).setWidth 32 = x.setWidth 32 * 2#32 := by decide
  have high : inst.extractLsb' 9 2 = (inst.extractLsb' 6 5).extractLsb' 3 2 := by
    ext i bound
    simp [show 3 + i < 5 by omega]
    congr 1
    omega
  have low : inst.extractLsb' 6 3 = (inst.extractLsb' 6 5).extractLsb' 0 3 := by
    ext i bound
    simp [show i < 5 by omega]
  rw [high, low, split, immField]

/-! ### Arithmetic -/

/-- The two halves agree on an instruction, wherever each of them finds it. -/
def SameAs (thumb : CpuM Unit) (word cpsr : U32) : Prop :=
  ∀ pc, (do thumb; return true) = Arm.perform (Arm.Instruction.decode word) word pc cpsr

theorem sameAs_of_run (typ : Arm.Instruction) {thumb : CpuM Unit} {word cpsr : U32}
    (decodes : Arm.Instruction.decode word = typ)
    (same : ∀ s pc, (thumb s >>= fun p => .done (true, p.2)) = Arm.perform typ word pc cpsr s) :
    SameAs thumb word cpsr := by
  intro pc
  rw [decodes]
  exact funext fun s => same s pc

theorem sameAs_dataProc (typ : Arm.Instruction) {thumb : CpuM Unit} {word cpsr : U32}
    (decodes : Arm.Instruction.decode word = typ)
    (kind : typ = .dataProc0 ∨ typ = .dataProc1 ∨ typ = .dataProc2)
    (same : ∀ s, thumb s = Arm.dataProc typ word cpsr s) : SameAs thumb word cpsr := by
  intro pc
  rw [decodes, show thumb = Arm.dataProc typ word cpsr from funext same]
  rcases kind with rfl | rfl | rfl <;> rfl

section words

attribute [local simp] low lowField immField regField extractLsb'_or wordOffset_field wordOffset_rotated
  halfwordOffset_split shiftRor argShift0 r8 r16 r32 w8 w16 w32

attribute [local simp] Arm.Instruction.decode Arm.Instruction.matchOrder Arm.Instruction.fits
  Arm.Instruction.pattern Arm.compute Arm.compares Arm.immOperand Arm.transferBase Arm.storeVal
  Arm.addresses Arm.writeback

theorem shifted_expand (inst : U16) (cpsr : U32) :
    SameAs (shifted inst cpsr) (expandShifted inst) cpsr := by
  refine sameAs_dataProc .dataProc0 ?_ (by simp) fun s => ?_
  · simp [expandShifted]
  · rw [expandShifted, Arm.dataProc_run (Arm.operand_immShift (by simp) (by simp)) (by simp) (by simp)]
    simp [shifted]

theorem addSub_expand (inst : U16) (cpsr : U32) :
    SameAs (addSub inst) (expandAddSub inst) cpsr := by
  cases imm : inst.getBit 10 with
  | false =>
    refine sameAs_dataProc .dataProc0 ?_ (by simp) fun s => ?_
    · cases sub : inst.getBit 9 <;> simp [expandAddSub, imm, sub]
    · cases sub : inst.getBit 9 <;> simp only [expandAddSub, imm, sub] <;>
        rw [Arm.dataProc_run (Arm.operand_immShift (by simp) (by simp)) (by simp) (by simp)] <;>
          simp [addSub, imm, sub]
  | true =>
    refine sameAs_dataProc .dataProc2 ?_ (by simp) fun s => ?_
    · cases sub : inst.getBit 9 <;> simp [expandAddSub, imm, sub]
    · cases sub : inst.getBit 9 <;> simp only [expandAddSub, imm, sub] <;>
        rw [Arm.dataProc_run Arm.operand_imm (by simp) (by simp)] <;>
        simp [addSub, imm, sub]

theorem immOp_expand (inst : U16) (cpsr : U32)
    (carry : inst.extractLsb' 11 2 = 0 → cpsr.getBit flagC = false) :
    SameAs (immOp inst cpsr) (expandImm inst) cpsr := by
  refine sameAs_dataProc .dataProc2 ?_ (by simp) fun s => ?_
  · unfold expandImm
    split <;> simp
  · unfold expandImm
    split <;> rename_i op <;>
      rw [Arm.dataProc_run Arm.operand_imm (by simp) (by simp)] <;>
      simp_all [immOp]

theorem aluOp_expand (inst : U16) (cpsr : U32) : SameAs (aluOp inst cpsr) (expandAlu inst) cpsr := by
  unfold expandAlu
  split
  case h_3 | h_4 | h_5 | h_8 =>
    refine sameAs_dataProc .dataProc1 ?_ (by simp) fun s => ?_
    · simp
    · rw [Arm.dataProc_run (Arm.operand_regShift (by simp) (by simp) (by simp)) (by simp) (by simp)]
      simp_all [aluOp, aluCompute, aluCompares]
  case h_10 =>
    refine sameAs_dataProc .dataProc2 ?_ (by simp) fun s => ?_
    · simp
    · rw [Arm.dataProc_run Arm.operand_imm (by simp) (by simp)]
      simp_all [aluOp, aluCompute, aluCompares]
  case h_14 =>
    refine sameAs_of_run .multiply ?_ fun s pc => ?_
    · simp
    · simp only [Arm.perform, bind_run, Arm.multiply_run]
      simp_all [aluOp, aluCompute, aluCompares, BitVec.mul_comm]
  all_goals
    refine sameAs_dataProc .dataProc0 ?_ (by simp) fun s => ?_
    · simp
    · rw [Arm.dataProc_run (Arm.operand_immShift (by simp) (by simp))
        (by simp) (by simp)]
      simp_all [aluOp, aluCompute, aluCompares]

theorem hiReg_expand {inst : U16} {word : U32} (expands : expandHiReg inst = some word) (cpsr : U32) :
    SameAs (hiRegBx inst cpsr) word cpsr := by
  by_cases used :
      inst.extractLsb' 3 4 = 15 ∨ inst.extractLsb' 7 1 ++ inst.extractLsb' 0 3 = (15 : BitVec 4)
  · simp only [expandHiReg, if_pos used] at expands
    cases expands
  · simp only [expandHiReg, if_neg used] at expands
    have crs := fun same => used (.inl same)
    have crd := fun same => used (.inr same)
    split at expands
    case h_4 => cases expands
    all_goals
      cases expands
      refine sameAs_dataProc .dataProc0 ?_ (by simp) fun s => ?_
      · simp
      · rw [Arm.dataProc_run (Arm.operand_immShift (by simp) (by simpa using crs)) (by simp_all)
          (by simp_all)]
        simp_all [hiRegBx, hiRegOp, addFlags_res]

/-! ### Transfers -/

theorem singleXferR_expand (inst : U16) (cpsr : U32) :
    SameAs (singleXferR inst) (expandSingleR inst) cpsr := by
  unfold expandSingleR
  split <;> rename_i l b <;> refine sameAs_of_run .singleXferR ?_ fun s pc => ?_
  case h_1.refine_1 | h_2.refine_1 | h_3.refine_1 | h_4.refine_1 =>
    simp [expandXferR]
  all_goals
    simp [singleXferR, l, b, Arm.perform, Arm.singleXfer, Arm.singleOffset, expandXferR]

theorem hwSgnXfer_expand (inst : U16) (cpsr : U32) :
    SameAs (hwSgnXfer inst) (expandHwSgn inst) cpsr := by
  unfold expandHwSgn
  split <;> rename_i sgn h <;> refine sameAs_of_run .hwSgnXferR ?_ fun s pc => ?_
  case h_1.refine_1 | h_2.refine_1 | h_3.refine_1 | h_4.refine_1 =>
    simp [expandXferR]
  all_goals
    simp [hwSgnXfer, sgn, h, Arm.perform, Arm.hwSgnXfer, Arm.hwSgnOffset, Arm.hwSgnLoad, expandXferR]

theorem singleXferI_expand (inst : U16) (cpsr : U32) :
    SameAs (singleXferI inst) (expandSingleI inst) cpsr := by
  unfold expandSingleI
  split <;> rename_i b l <;> refine sameAs_of_run .singleXferI ?_ fun s pc => ?_
  case h_1.refine_1 | h_2.refine_1 | h_3.refine_1 | h_4.refine_1 =>
    simp
  all_goals
    simp [singleXferI, l, b, Arm.perform, Arm.singleXfer, Arm.singleOffset]

theorem hwXferI_expand (inst : U16) (cpsr : U32) :
    SameAs (hwXferI inst) (expandHwI inst) cpsr := by
  refine sameAs_of_run .hwSgnXferI ?_ fun s pc => ?_ <;> cases l : inst.getBit 11
  case refine_1.false | refine_1.true =>
    simp [expandHwI, l]
  all_goals
    simp [hwXferI, l, Arm.perform, Arm.hwSgnXfer, Arm.hwSgnOffset, Arm.hwSgnLoad, expandHwI]

theorem spXfer_expand (inst : U16) (cpsr : U32) :
    SameAs (spXfer inst) (expandSp inst) cpsr := by
  refine sameAs_of_run .singleXferI ?_ fun s pc => ?_ <;> cases l : inst.getBit 11
  case refine_1.false | refine_1.true =>
    simp [expandSp, l]
  all_goals
    simp [spXfer, l, Arm.perform, Arm.singleXfer, Arm.singleOffset, expandSp]

theorem spAdd_expand (inst : U16) (cpsr : U32) :
    SameAs (spAdd inst) (expandSpAdd inst) cpsr := by
  refine sameAs_dataProc .dataProc2 ?_ (by simp) fun s => ?_ <;> cases sub : inst.getBit 7
  case refine_1.false | refine_1.true =>
    simp [expandSpAdd, sub]
  all_goals
    rw [Arm.dataProc_run Arm.operand_imm (by simp [expandSpAdd, sub])
      (by simp [expandSpAdd, sub])]
    simp [spAdd, sub, expandSpAdd, addFlags_res, subFlags_res]

theorem loadAddr_expand {inst : U16} (sp : inst.getBit 11 = true) (cpsr : U32) :
    SameAs (loadAddr inst) (0xe28d0f00 ||| low inst 8 12 ||| field 32 0 (inst.extractLsb' 0 8))
      cpsr := by
  refine sameAs_dataProc .dataProc2 ?_ (by simp) fun s => ?_
  · simp
  · rw [Arm.dataProc_run Arm.operand_imm (by simp) (by simp)]
    simp [loadAddr, sp, addFlags_res]

theorem expandPush_list (inst : U16) : (expandPush inst).extractLsb' 0 16 =
    pushed (inst.extractLsb' 0 8) (inst.getBit 8) := by
  have link : inst.extractLsb' 8 1 = BitVec.ofBool (inst.getBit 8) := by
    ext i bound
    simp [show i = 0 by omega, getBit]
  cases lr : inst.getBit 8 <;> simp [expandPush, pushed, link, lr, BitVec.or_comm,
    show field 16 14 0#1 = 0#16 from rfl, show field 16 14 1#1 = 0x4000#16 from rfl]

theorem pushPop_push (inst : U16) (cpsr : U32) (push : inst.getBit 11 = false) :
    SameAs (pushPop inst) (expandPush inst) cpsr := by
  have base : regField (expandPush inst) 16 = .sp := by
    simp [expandPush]
  have bits : (expandPush inst).getBit 24 = true ∧ (expandPush inst).getBit 23 = false ∧
      (expandPush inst).getBit 22 = false ∧ (expandPush inst).getBit 21 = true ∧
      (expandPush inst).getBit 20 = false := by
    simp [expandPush]
  have list : (inst.extractLsb' 0 8).setWidth 16 ||| (if inst.getBit 8 then 0x4000#16 else 0#16) =
      pushed (inst.extractLsb' 0 8) (inst.getBit 8) := rfl
  refine sameAs_of_run .blockXfer ?_ fun s pc => ?_
  · simp [expandPush]
  · simp [pushPop, push, Arm.perform, Arm.blockXfer, expandPush_list, list, base, bits, length_pushed,
      -regField, -w32]
    apply transfers_then_set
    intro r listed idx
    funext s
    simp [Arm.blockVal, ne_of_pushed _ _ listed,
      s.index_setIndex_of_ne (r := .sp) (by decide) (ne_of_pushed _ _ listed).1.symm]

theorem pushPop_pop (inst : U16) (cpsr : U32) (pop : inst.getBit 11 = true)
    (stay : inst.getBit 8 = false) :
    SameAs (pushPop inst) (0xe8bd0000 ||| field 32 0 (inst.extractLsb' 0 8)) cpsr := by
  refine sameAs_of_run .blockXfer ?_ fun s pc => ?_
  · simp
  · simp [pushPop, pop, stay, Arm.perform, Arm.blockXfer, -r32]
    apply transfers_then_set
    intro r listed idx
    funext s
    have lower : r ≠ .sp ∧ r ≠ .pc := ne_of_pushed (inst.extractLsb' 0 8) false
      (by simpa [pushed, -mem_registerList] using listed)
    simp [lower, s.setIndex_comm (r := .sp) (by decide) lower.1.symm,
      show ∀ x : U32, x &&& 4294967295#32 = x from fun _ => and_allOnes]

theorem blockXfer_expand (inst : U16) (cpsr : U32) :
    SameAs (blockXfer inst) (expandBlock inst) cpsr := by
  refine sameAs_of_run .blockXfer ?_ fun s pc => ?_ <;> cases l : inst.getBit 11
  case refine_1.false | refine_1.true =>
    simp [expandBlock, l]
  all_goals
    have plain : (expandBlock inst).getBit 22 = false := by simp [expandBlock, l]
    have lower {r : Register} (listed : r ∈ registerList ((inst.extractLsb' 0 8).setWidth 16)) :
        r ≠ .pc :=
      (ne_of_pushed (inst.extractLsb' 0 8) false
        (by simpa [pushed, -mem_registerList] using listed)).2
    simp only [Arm.perform, Arm.blockXfer, plain]
    simp [blockXfer, l, expandBlock, -r32, -w32]
    refine congrArg (fun part : CpuM Unit => part _ >>= fun p => .done (true, p.2))
      (transfers_congr (fun r listed idx => ?_) 0)
    funext s
    by_cases first : idx = 0 ∧ r = .ofBits ((inst.extractLsb' 8 3).setWidth 4) <;>
      simp [Arm.blockVal, lower listed, And.comm, first]

theorem softwareInt_expand (inst : U16) (cpsr : U32) :
    SameAs (exception .software) (0xef000000 ||| field 32 0 (inst.extractLsb' 0 8)) cpsr := by
  refine sameAs_of_run .softwareInt ?_ fun s pc => rfl
  simp

/-- A `MOV` of an immediate leaves the carry as it is, but its word clears it. -/
theorem movImm_carry {inst : U16} {cpsr : U32} (mov : inst.extractLsb' 11 2 = 0)
    (carry : cpsr.getBit flagC = true) (pc : U32) (s : RegFile) :
    (immOp inst cpsr s >>= fun p => .done (true, p.2)) ≠
      Arm.perform (Arm.Instruction.decode (expandImm inst)) (expandImm inst) pc cpsr s := by
  have word : expandImm inst = 0xe3b00000 ||| low inst 8 12 ||| field 32 0 (inst.extractLsb' 0 8) := by
    simp [expandImm, mov]
  have decodes : Arm.Instruction.decode (expandImm inst) = .dataProc2 := by simp [word]
  rw [decodes, word, Arm.perform, bind_run, Arm.dataProc_run Arm.operand_imm (by simp) (by simp)]
  intro same
  simp [immOp, mov, carry] at same
  have flags := congrArg (fun s : RegFile => s.status.getBit flagC) same
  simp [RegFile.status_setIndex _ (Register.ofBits_lt _)] at flags

theorem expandHiReg_always {inst : U16} {word : U32} (expands : expandHiReg inst = some word) :
    word.extractLsb' 28 4 = 14#4 := by
  unfold expandHiReg at expands
  dsimp only at expands
  split at expands
  · cases expands
  · split at expands <;> cases expands <;> simp

/-- Every word is executed under any flags. -/
theorem expand_always {inst : U16} {word : U32} (expands : expand inst = some word) :
    word.extractLsb' 28 4 = 14#4 := by
  unfold expand at expands
  split at expands <;> try cases expands
  · simp [expandShifted]
  · unfold expandAddSub
    split <;> simp
  · unfold expandImm
    split <;> simp
  · unfold expandAlu
    split <;> simp
  · exact expandHiReg_always expands
  · unfold expandSingleR
    split <;> simp [expandXferR]
  · unfold expandHwSgn
    split <;> simp [expandXferR]
  · unfold expandSingleI
    split <;> simp
  · unfold expandHwI
    split <;> simp
  · unfold expandSp
    split <;> simp
  · split at expands <;> cases expands
    simp
  · unfold expandSpAdd
    split <;> simp
  · split at expands
    · cases expands
      simp [expandPush]
    · split at expands <;> cases expands
      simp
  · unfold expandBlock
    split <;> simp
  · simp

end words

/-! ### All of them -/

theorem perform_expand {inst : U16} {word : U32} (expands : expand inst = some word) (pc pc' : U32)
    {cpsr : U32} (carry : Instruction.decode inst = .immOp → inst.extractLsb' 11 2 = 0 →
      cpsr.getBit flagC = false) :
    perform (Instruction.decode inst) inst pc cpsr =
      Arm.perform (Arm.Instruction.decode word) word pc' cpsr := by
  unfold expand at expands
  split at expands <;> rename_i typ <;> rw [typ] <;> try cases expands
  · exact shifted_expand inst cpsr pc'
  · exact addSub_expand inst cpsr pc'
  · exact immOp_expand inst cpsr (carry typ) pc'
  · exact aluOp_expand inst cpsr pc'
  · exact hiReg_expand expands cpsr pc'
  · exact singleXferR_expand inst cpsr pc'
  · exact hwSgnXfer_expand inst cpsr pc'
  · exact singleXferI_expand inst cpsr pc'
  · exact hwXferI_expand inst cpsr pc'
  · exact spXfer_expand inst cpsr pc'
  · split at expands
    · cases expands
      exact loadAddr_expand ‹_› cpsr pc'
    · cases expands
  · exact spAdd_expand inst cpsr pc'
  · split at expands <;> rename_i l
    · cases expands
      exact pushPop_push inst cpsr (by simpa using l) pc'
    · split at expands <;> rename_i r
      · cases expands
      · cases expands
        exact pushPop_pop inst cpsr (by simpa using l) (by simpa using r) pc'
  · exact blockXfer_expand inst cpsr pc'
  · exact softwareInt_expand inst cpsr pc'

/-- Whether a `MOV` of an immediate stands for a word that does not do the same: the interpreter
leaves the carry as it is, but clears it for the word. -/
def LosesCarry (inst : U16) (status : U32) : Prop :=
  Instruction.decode inst = .immOp ∧ inst.extractLsb' 11 2 = 0 ∧ status.getBit flagC = true

theorem execute_word {inst : U16} {word : U32} (expands : expand inst = some word) (pc : U32) (s : RegFile) :
    Arm.execute word (pc - 2) s = Arm.perform (Arm.Instruction.decode word) word (pc - 2) s.status
      (s.setIndex .pc (pc + 2)) := by
  have always : condMet (word.extractLsb' 28 4) s.status = true := by
    rw [expand_always expands]
    rfl
  have next : pc - 2 + 4 = pc + 2 := by bv_omega
  rw [Arm.execute, next]
  simp [always]

theorem execute_halfword (inst : U16) (pc : U32) (s : RegFile) :
    execute inst pc s = perform (Instruction.decode inst) inst pc s.status (s.setIndex .pc (pc + 2)) := by
  simp [execute]

theorem execute_losesCarry {inst : U16} {word : U32} (expands : expand inst = some word) (pc : U32)
    {s : RegFile} (loses : LosesCarry inst s.status) : execute inst pc s ≠ Arm.execute word (pc - 2) s := by
  obtain ⟨typ, op, carry⟩ := loses
  rw [execute_halfword, execute_word expands, typ]
  obtain rfl : expandImm inst = word := by simpa [expand, typ] using expands
  exact movImm_carry op carry (pc - 2) _

/-- An instruction does what its word does two bytes further back, whatever the registers and the
memory, apart from the carry that a `MOV` loses. -/
theorem execute_expand_iff {inst : U16} {word : U32} (expands : expand inst = some word) (pc : U32)
    (s : RegFile) : execute inst pc s = Arm.execute word (pc - 2) s ↔ ¬ LosesCarry inst s.status := by
  constructor
  · exact fun same loses => execute_losesCarry expands pc loses same
  · intro keeps
    rw [execute_halfword, execute_word expands]
    rw [perform_expand expands pc (pc - 2) fun typ op => by simpa [LosesCarry, typ, op] using keeps]

/-- `ADD R0, R0, R1` is `ADDS R0, R0, R1`. -/
theorem execute_expand_iff_add : execute 0x1840 0x100 RegFile.newEmpty =
    Arm.execute 0xe0900001 0xfe RegFile.newEmpty :=
  (execute_expand_iff (by decide) 0x100 RegFile.newEmpty).mpr fun loses => absurd loses.1 (by decide)

end Thumb
end Clicky.Armv4t
