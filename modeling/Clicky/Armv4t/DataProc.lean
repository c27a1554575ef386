import Clicky.Armv4t.Thumb

/-! What the arithmetic instructions leave in the register file. -/
namespace Clicky.Armv4t
open CpuM

namespace RegFile

/-- The file with the flags of a result. -/
def withFlags (s : RegFile) (new : Flagged) : RegFile :=
  s.store cpsr (s.status.setBits 28 31 (buildFlags new.v new.c (new.res == 0) (isNeg new.res)))

/-- The file with a result, and its flags if they are asked for. -/
def withResult (s : RegFile) (flags write : Bool) (rd : Register) (new : Flagged) : RegFile :=
  let s := if flags then s.withFlags new else s
  if write then s.setIndex rd new.res else s

theorem store_comm (s : RegFile) {a b : Fin 37} (apart : a ≠ b) (x y : U32) :
    (s.store a x).store b y = (s.store b y).store a x := by
  simp only [store, Function.update_comm apart]

theorem setIndex_comm (s : RegFile) {r r' : Register} (general : r.val < 16) (apart : r ≠ r')
    (x y : U32) : (s.setIndex r x).setIndex r' y = (s.setIndex r' y).setIndex r x :=
  s.store_comm (fun same => apart (regMap_inj general same)) x y

theorem withFlags_setIndex (s : RegFile) {r : Register} (general : r.val < 16) (val : U32)
    (new : Flagged) : (s.setIndex r val).withFlags new = (s.withFlags new).setIndex r val := by
  simp only [withFlags, status_setIndex s general]
  exact s.store_comm (regMap_ne_cpsr general) _ _

@[simp] theorem withResult_index (s : RegFile) (flags write : Bool) (rd : Register) (new : Flagged) :
    s.withResult flags write rd new = if write then
      (if flags then s.withFlags new else s).setIndex rd new.res
    else if flags then s.withFlags new else s := rfl

end RegFile

theorem addFlags_res (lhs rhs : U32) : (addFlags lhs rhs false).res = lhs + rhs :=
  BitVec.add_zero _

theorem subFlags_res (lhs rhs : U32) : (subFlags lhs rhs false).res = lhs - rhs :=
  BitVec.sub_zero _

@[simp] theorem setFlags_run (flags : U32) (s : RegFile) :
    setFlags flags s = .done ((), s.store cpsr (s.status.setBits 28 31 flags)) := by
  change Dialogue.done ((), s.setIndex .cpsr ((s.index .cpsr).setBits 28 31 flags)) = _
  rw [RegFile.setIndex_cpsr, RegFile.index_cpsr]

@[simp] theorem setFlagsOf_run (res : U32) (v c : Bool) (s : RegFile) :
    Thumb.setFlagsOf res v c s = .done ((), s.withFlags ⟨res, v, c⟩) := setFlags_run _ s

@[simp] theorem RegFile.withFlags_setIndex_field (s : RegFile) (x : BitVec 4) (val : U32)
    (new : Flagged) :
    (s.setIndex (.ofBits x) val).withFlags new = (s.withFlags new).setIndex (.ofBits x) val :=
  s.withFlags_setIndex (Register.ofBits_lt x) val new

namespace Arm

variable {inst : U32} {c : Bool} {s : RegFile}

theorem execute_of_met {inst : U32} {s : RegFile} (met : condMet (inst.extractLsb' 28 4) s.status = true)
    (pc : U32) : execute inst pc s =
      perform (Instruction.decode inst) inst pc s.status (s.setIndex .pc (pc + 4)) := by
  simp [execute, met]

theorem operand_immShift (imm : inst.getBit 4 = false) (rm : regField inst 0 ≠ .pc) :
    operand .dataProc0 inst c s = .done (
      if (inst.extractLsb' 7 5).toNat = 0 then argShift0 (s.index (regField inst 0)) (inst.extractLsb' 5 2) c
      else argShift (s.index (regField inst 0)) (inst.extractLsb' 7 5).toNat (inst.extractLsb' 5 2), s) := by
  simp only [operand, regOperand, shiftAmount, imm, rm]
  split <;> simp_all

theorem operand_regShift (register : inst.getBit 4 = true) (rs : (regField inst 8).val ≤ 14)
    (rm : regField inst 0 ≠ .pc) :
    operand .dataProc1 inst c s = .done (
      if (s.index (regField inst 8) &&& 0xff).toNat = 0 then (s.index (regField inst 0), c)
      else argShift (s.index (regField inst 0)) (s.index (regField inst 8) &&& 0xff).toNat
        (inst.extractLsb' 5 2), s) := by
  simp [operand, regOperand, shiftAmount, register, rm, rs]

theorem operand_imm : operand .dataProc2 inst c s = .done (immOperand inst, s) := rfl

/-- The program counter counts as two words further on, or three if the shift is in a register. -/
def firstOperand (inst : U32) (s : RegFile) : U32 :=
  let rn := regField inst 16
  s.index rn + if rn = .pc then (if !inst.getBit 25 && inst.getBit 4 then 8 else 4) else 0

theorem firstOperand_eq (rn : regField inst 16 ≠ .pc) :
    firstOperand inst s = s.index (regField inst 16) := by
  simp [firstOperand, rn]

/-- A data processing instruction that does not write the program counter. -/
theorem dataProc_run_of_rd {typ : Instruction} {cpsr : U32} {valm : Shifted}
    (second : operand typ inst (cpsr.getBit flagC) s = .done (valm, s))
    (rd : regField inst 12 ≠ .pc) :
    dataProc typ inst cpsr s = .done ((),
      s.withResult (inst.getBit 20) (!compares (inst.extractLsb' 21 4)) (regField inst 12)
        (compute (inst.extractLsb' 21 4) (firstOperand inst s) valm.1 (cpsr.getBit flagV)
          (cpsr.getBit flagC) valm.2)) := by
  cases flags : inst.getBit 20 <;> cases compare : compares (inst.extractLsb' 21 4) <;>
    simp [dataProc, second, rd, flags, compare, RegFile.withFlags, firstOperand]

/-- A data processing instruction without the program counter. -/
theorem dataProc_run {typ : Instruction} {cpsr : U32} {valm : Shifted}
    (second : operand typ inst (cpsr.getBit flagC) s = .done (valm, s)) (rn : regField inst 16 ≠ .pc)
    (rd : regField inst 12 ≠ .pc) :
    dataProc typ inst cpsr s = .done ((),
      s.withResult (inst.getBit 20) (!compares (inst.extractLsb' 21 4)) (regField inst 12)
        (compute (inst.extractLsb' 21 4) (s.index (regField inst 16)) valm.1 (cpsr.getBit flagV)
          (cpsr.getBit flagC) valm.2)) := by
  rw [dataProc_run_of_rd second rd, firstOperand_eq rn]

theorem multiply_run (inst cpsr : U32) (s : RegFile) :
    multiply inst cpsr s = .done ((), s.withResult (inst.getBit 20) true (regField inst 16)
      ⟨s.index (regField inst 0) * s.index (regField inst 8) +
        (if inst.getBit 21 then s.index (regField inst 12) else 0), cpsr.getBit flagV, false⟩) := by
  have flags (res : U32) :
      setFlags (buildFlags (cpsr.getBit flagV) false (res == 0#32) (res.getBit 31)) =
        Thumb.setFlagsOf res (cpsr.getBit flagV) false := by
    rw [Thumb.setFlagsOf, isNeg, BitVec.msb_eq_getLsbD_last]
    rfl
  cases acc : inst.getBit 21 <;> cases set : inst.getBit 20 <;>
    simp [multiply, acc, set, flags, -setFlags_run, regField]

end Arm
end Clicky.Armv4t
