import Clicky.Armv4t.DataProc

/-! What the flags of an addition and of a subtraction say about the numbers. -/
namespace Clicky.Armv4t
open CpuM

/-! ### The flags in a status register -/

theorem getLsbD_buildFlags (v c z n : Bool) : (buildFlags v c z n).getLsbD 0 = v ∧
    (buildFlags v c z n).getLsbD 1 = c ∧ (buildFlags v c z n).getLsbD 2 = z ∧
    (buildFlags v c z n).getLsbD 3 = n := by
  revert v c z n
  decide

namespace RegFile

theorem status_withFlags (s : RegFile) (new : Flagged) : (s.withFlags new).status =
    s.status.setBits 28 31 (buildFlags new.v new.c (new.res == 0) (isNeg new.res)) :=
  s.store_reg_self _ _

variable (s : RegFile) (new : Flagged)

@[simp] theorem flagV_withFlags : (s.withFlags new).status.getBit flagV = new.v := by
  rw [status_withFlags, BitVec.getBit, BitVec.getLsbD_setBits _ _ (by decide) (by decide)]
  exact (getLsbD_buildFlags ..).1

@[simp] theorem flagC_withFlags : (s.withFlags new).status.getBit flagC = new.c := by
  rw [status_withFlags, BitVec.getBit, BitVec.getLsbD_setBits _ _ (by decide) (by decide)]
  exact (getLsbD_buildFlags ..).2.1

@[simp] theorem flagZ_withFlags : (s.withFlags new).status.getBit flagZ = (new.res == 0) := by
  rw [status_withFlags, BitVec.getBit, BitVec.getLsbD_setBits _ _ (by decide) (by decide)]
  exact (getLsbD_buildFlags ..).2.2.1

@[simp] theorem flagN_withFlags : (s.withFlags new).status.getBit flagN = isNeg new.res := by
  rw [status_withFlags, BitVec.getBit, BitVec.getLsbD_setBits _ _ (by decide) (by decide)]
  exact (getLsbD_buildFlags ..).2.2.2

end RegFile

/-! ### Carry and overflow -/

theorem isNeg_eq (x : U32) : isNeg x = decide (2 ^ 31 ≤ x.toNat) := by
  simp [isNeg, BitVec.msb_eq_decide]

theorem toInt_eq (x : U32) : x.toInt = x.toNat - if isNeg x then 2 ^ 32 else 0 := by
  rw [isNeg_eq, BitVec.toInt_eq_toNat_cond]
  split <;> split <;> simp_all <;> omega

variable (lhs rhs : U32) (carry : Bool)

/-- An addition with its carry is exact. -/
theorem addFlags_value : (addFlags lhs rhs carry).res.toNat + 2 ^ 32 * (addFlags lhs rhs carry).c.toNat =
    lhs.toNat + rhs.toNat + carry.toNat := by
  have res : (addFlags lhs rhs carry).res.toNat = (lhs.toNat + rhs.toNat + carry.toNat) % 2 ^ 32 := by
    simp [addFlags, BitVec.toNat_add]
  have out : (addFlags lhs rhs carry).c = decide (2 ^ 32 ≤ lhs.toNat + rhs.toNat + carry.toNat) := by
    change (isNeg lhs && isNeg rhs || isNeg lhs && !isNeg (addFlags lhs rhs carry).res ||
      isNeg rhs && !isNeg (addFlags lhs rhs carry).res) = _
    have := carry.toNat_lt
    rw [Bool.eq_iff_iff]
    simp [isNeg_eq, res]
    omega
  have := carry.toNat_lt
  rw [res, out]
  by_cases carries : 2 ^ 32 ≤ lhs.toNat + rhs.toNat + carry.toNat
  · simp only [carries, decide_true, Bool.toNat_true]
    omega
  · simp only [carries, decide_false, Bool.toNat_false]
    omega

/-- A subtraction with its borrow is exact: the carry says that there was none. -/
theorem subFlags_value : (subFlags lhs rhs carry).res.toNat + rhs.toNat + carry.toNat =
    lhs.toNat + 2 ^ 32 * (!(subFlags lhs rhs carry).c).toNat := by
  have res : (subFlags lhs rhs carry).res.toNat =
      (2 ^ 33 + lhs.toNat - rhs.toNat - carry.toNat) % 2 ^ 32 := by
    have := carry.toNat_lt
    simp [subFlags, BitVec.toNat_sub]
    omega
  have out : (subFlags lhs rhs carry).c = decide (rhs.toNat + carry.toNat ≤ lhs.toNat) := by
    change (isNeg lhs && !isNeg rhs || isNeg lhs && !isNeg (subFlags lhs rhs carry).res ||
      !isNeg rhs && !isNeg (subFlags lhs rhs carry).res) = _
    have := carry.toNat_lt
    rw [Bool.eq_iff_iff]
    simp [isNeg_eq, res]
    omega
  have := carry.toNat_lt
  rw [res, out]
  by_cases fits : rhs.toNat + carry.toNat ≤ lhs.toNat
  · simp only [fits, decide_true, Bool.not_true, Bool.toNat_false]
    omega
  · simp only [fits, decide_false, Bool.not_false, Bool.toNat_true]
    omega

/-- The numbers that a signed word can be. -/
def Fits (x : Int) : Prop := -2 ^ 31 ≤ x ∧ x < 2 ^ 31

instance (x : Int) : Decidable (Fits x) := inferInstanceAs (Decidable (_ ∧ _))

theorem subFlags_v : (subFlags lhs rhs carry).v = !decide (Fits (lhs.toInt - rhs.toInt - carry.toNat)) := by
  have value := subFlags_value lhs rhs carry
  have := carry.toNat_lt
  have := (!(subFlags lhs rhs carry).c).toNat_lt
  change (isNeg lhs && !isNeg rhs && !isNeg (subFlags lhs rhs carry).res ||
    !isNeg lhs && isNeg rhs && isNeg (subFlags lhs rhs carry).res) = _
  rw [Bool.eq_iff_iff]
  simp [toInt_eq, isNeg_eq, Fits]
  omega

/-! ### Comparisons -/

/-- The comparison that a condition stands for, after two words were compared. -/
def Compared (cond : BitVec 4) (lhs rhs : U32) : Prop :=
  match cond with
  | 0x0 => lhs = rhs
  | 0x1 => lhs ≠ rhs
  | 0x2 => rhs.toNat ≤ lhs.toNat
  | 0x3 => lhs.toNat < rhs.toNat
  | 0x4 => isNeg (lhs - rhs)
  | 0x5 => ¬ isNeg (lhs - rhs)
  | 0x6 => ¬ Fits (lhs.toInt - rhs.toInt)
  | 0x7 => Fits (lhs.toInt - rhs.toInt)
  | 0x8 => rhs.toNat < lhs.toNat
  | 0x9 => lhs.toNat ≤ rhs.toNat
  | 0xA => rhs.toInt ≤ lhs.toInt
  | 0xB => lhs.toInt < rhs.toInt
  | 0xC => rhs.toInt < lhs.toInt
  | 0xD => lhs.toInt ≤ rhs.toInt
  | _ => True

theorem sub_zero_iff : (subFlags lhs rhs false).res = 0 ↔ lhs = rhs := by
  rw [subFlags_res]
  constructor <;> intro same <;> bv_omega

theorem sub_carry_iff : (subFlags lhs rhs false).c = true ↔ rhs.toNat ≤ lhs.toNat := by
  have value := subFlags_value lhs rhs false
  have := (subFlags lhs rhs false).res.isLt
  cases out : (subFlags lhs rhs false).c <;> simp [out] at value ⊢ <;> omega

theorem sub_negative_iff : (isNeg (subFlags lhs rhs false).res = (subFlags lhs rhs false).v) ↔
    rhs.toInt ≤ lhs.toInt := by
  have value := subFlags_value lhs rhs false
  have := (!(subFlags lhs rhs false).c).toNat_lt
  rw [subFlags_v, isNeg_eq, Bool.eq_iff_iff]
  simp [toInt_eq, isNeg_eq, Fits] at value ⊢
  omega

/-- After a comparison, an instruction is executed just when its condition holds of the words. -/
theorem condMet_compared (cond : BitVec 4) (s : RegFile) :
    condMet cond (s.withFlags (subFlags lhs rhs false)).status = true ↔ Compared cond lhs rhs := by
  have zero : ((subFlags lhs rhs false).res == 0) = decide (lhs = rhs) := by
    rw [Bool.eq_iff_iff, beq_iff_eq, decide_eq_true_iff, sub_zero_iff]
  have carry : (subFlags lhs rhs false).c = decide (rhs.toNat ≤ lhs.toNat) := by
    rw [Bool.eq_iff_iff, decide_eq_true_iff, sub_carry_iff]
  have sign : (isNeg (subFlags lhs rhs false).res == (subFlags lhs rhs false).v) =
      decide (rhs.toInt ≤ lhs.toInt) := by
    rw [Bool.eq_iff_iff, beq_iff_eq, decide_eq_true_iff, sub_negative_iff]
  have negative := congrArg isNeg (subFlags_res lhs rhs)
  have overflow := subFlags_v lhs rhs false
  have signed : lhs = rhs ↔ lhs.toInt = rhs.toInt := BitVec.toInt_inj.symm
  have unsigned : lhs = rhs ↔ lhs.toNat = rhs.toNat := BitVec.toNat_inj.symm
  unfold condMet Compared
  simp only [RegFile.flagV_withFlags, RegFile.flagC_withFlags, RegFile.flagZ_withFlags,
    RegFile.flagN_withFlags]
  split <;> simp_all [bne] <;> omega

namespace RegFile

variable (s : RegFile) {r : Register} (general : r.val < 16)
include general

theorem index_withFlags (new : Flagged) : (s.withFlags new).index r = s.index r :=
  s.store_reg_of_ne (regMap_ne_cpsr general) _

end RegFile

theorem regField_lt (inst : U32) (off : Nat) : (regField inst off).val < 16 := Register.ofBits_lt _

namespace Arm

/-- After a `CMP`, whether an instruction is executed is whether its condition holds of the words. A
`CMP` with the program counter for its destination restores the saved status instead. -/
theorem compare_executes {typ : Instruction} {inst cpsr : U32} {valm : Shifted} {s : RegFile}
    (second : operand typ inst (cpsr.getBit flagC) s = .done (valm, s))
    (opcode : inst.extractLsb' 21 4 = 0xA) (flags : inst.getBit 20 = true)
    (rd : regField inst 12 ≠ .pc) :
    ∃ s', dataProc typ inst cpsr s = .done ((), s') ∧ (∀ r : Register, r.val < 16 → s'.index r = s.index r) ∧
      ∀ next pc, (Compared (next.extractLsb' 28 4) (firstOperand inst s) valm.1 →
          execute next pc s' =
            perform (Instruction.decode next) next pc s'.status (s'.setIndex .pc (pc + 4))) ∧
        (¬ Compared (next.extractLsb' 28 4) (firstOperand inst s) valm.1 →
          execute next pc s' = .done (true, s'.setIndex .pc (pc + 4))) := by
  refine ⟨s.withFlags (subFlags (firstOperand inst s) valm.1 false), ?_, ?_, fun next pc => ?_⟩
  · rw [dataProc_run_of_rd second rd]
    simp [opcode, flags, compares, compute]
  · exact fun r general => s.index_withFlags general _
  · rw [← condMet_compared _ _ _ s]
    constructor
    · exact fun met => execute_of_met met pc
    · intro unmet
      simp [execute, unmet]

/-- `CMP PC, R1`, and `MOVHI R2, #1`. -/
theorem compare_executes_registers : ∃ s', dataProc .dataProc0 0xe15f0001 0 RegFile.newEmpty = .done ((), s') ∧
    execute 0x83a02001 0x100 s' = perform .dataProc2 0x83a02001 0x100 s'.status (s'.setIndex .pc 0x104) := by
  have second : operand .dataProc0 0xe15f0001 ((0 : U32).getBit flagC) RegFile.newEmpty =
      .done ((0, false), RegFile.newEmpty) := rfl
  obtain ⟨s', ran, _, executes⟩ := compare_executes second rfl rfl (by decide)
  have first : firstOperand 0xe15f0001 RegFile.newEmpty = 4 := rfl
  rw [first] at executes
  exact ⟨s', ran, (executes 0x83a02001 0x100).1 (by decide : (0 : U32).toNat < (4 : U32).toNat)⟩

/-! ### Numbers of several words -/

/-- `ADCS` of registers. -/
structure Adcs (inst : U32) : Prop where
  always : inst.extractLsb' 28 4 = 14
  decodes : Instruction.decode inst = .dataProc0
  opcode : inst.extractLsb' 21 4 = 5
  flags : inst.getBit 20 = true
  unshifted : inst.getBit 4 = false ∧ inst.extractLsb' 7 5 = 0 ∧ inst.extractLsb' 5 2 = 0
  registers : regField inst 16 ≠ .pc ∧ regField inst 12 ≠ .pc ∧ regField inst 0 ≠ .pc

/-- Instructions without a branch, one after the other. -/
def straight : List U32 → U32 → CpuM Unit
  | [], _ => pure ()
  | inst :: rest, pc => do
    let _ ← execute inst pc
    straight rest (pc + 4)

/-- What the words stand for, the lowest first. -/
def limbs : List U32 → Nat
  | [] => 0
  | word :: rest => word.toNat + 2 ^ 32 * limbs rest

/-- What an `ADCS` leaves. -/
def added (inst pc : U32) (s : RegFile) : RegFile :=
  let new := addFlags (s.index (regField inst 16)) (s.index (regField inst 0)) (s.status.getBit flagC)
  ((s.setIndex .pc (pc + 4)).withFlags new).setIndex (regField inst 12) new.res

theorem Adcs.execute_run {inst : U32} (adcs : Adcs inst) (pc : U32) (s : RegFile) :
    execute inst pc s = .done (true, added inst pc s) := by
  obtain ⟨always, decodes, opcode, flags, ⟨register, amount, shift⟩, rn, rd, rm⟩ := adcs
  have met : condMet (inst.extractLsb' 28 4) s.status = true := by
    rw [always]
    rfl
  rw [execute_of_met met, decodes, perform, bind_run, dataProc_run (operand_immShift register rm) rn rd]
  simp [added, opcode, flags, compares, compute, amount, shift, argShift0,
    s.index_setIndex_of_ne (r := .pc) (by decide) rn.symm,
    s.index_setIndex_of_ne (r := .pc) (by decide) rm.symm]

section added

variable {inst pc : U32} {s : RegFile}

theorem carry_added : (added inst pc s).status.getBit flagC =
    (addFlags (s.index (regField inst 16)) (s.index (regField inst 0)) (s.status.getBit flagC)).c := by
  rw [added, RegFile.status_setIndex _ (regField_lt _ _), RegFile.flagC_withFlags]

theorem index_added {r : Register} (general : r.val < 16) (apart : r ≠ .pc) (other : regField inst 12 ≠ r) :
    (added inst pc s).index r = s.index r := by
  rw [added, RegFile.index_setIndex_of_ne _ (regField_lt _ _) other, RegFile.index_withFlags _ general,
    s.index_setIndex_of_ne (by decide) apart.symm]

end added

/-- No sum is put where a later addition reads or writes. -/
def Apart (first later : U32) : Prop :=
  regField first 12 ≠ regField later 16 ∧ regField first 12 ≠ regField later 0 ∧
    regField first 12 ≠ regField later 12

/-- A chain of `ADCS` adds numbers of as many words as there are registers for. -/
theorem straight_adcs {insts : List U32} (adcs : ∀ inst ∈ insts, Adcs inst)
    (apart : insts.Pairwise Apart) (pc : U32) (s : RegFile) :
    ∃ s', straight insts pc s = .done ((), s') ∧
      limbs (insts.map fun inst => s'.index (regField inst 12)) +
          2 ^ (32 * insts.length) * (s'.status.getBit flagC).toNat =
        limbs (insts.map fun inst => s.index (regField inst 16)) +
          limbs (insts.map fun inst => s.index (regField inst 0)) + (s.status.getBit flagC).toNat ∧
      ∀ r : Register, r.val < 16 → r ≠ .pc → (∀ inst ∈ insts, regField inst 12 ≠ r) →
        s'.index r = s.index r := by
  induction insts generalizing pc s with
  | nil => exact ⟨s, rfl, by simp [limbs], fun _ _ _ _ => rfl⟩
  | cons inst insts ih =>
    obtain ⟨before, later⟩ := List.pairwise_cons.mp apart
    have head := adcs inst List.mem_cons_self
    have tail := fun i listed => adcs i (List.mem_cons_of_mem _ listed)
    obtain ⟨s', ran, value, kept⟩ := ih tail later (pc + 4) (added inst pc s)
    refine ⟨s', ?_, ?_, fun r general counter free => ?_⟩
    · rw [straight, bind_run, head.execute_run]
      exact ran
    · have lhs (i : U32) (listed : i ∈ insts) :
          (added inst pc s).index (regField i 16) = s.index (regField i 16) :=
        index_added (regField_lt _ _) (tail i listed).registers.1 (before i listed).1
      have rhs (i : U32) (listed : i ∈ insts) :
          (added inst pc s).index (regField i 0) = s.index (regField i 0) :=
        index_added (regField_lt _ _) (tail i listed).registers.2.2 (before i listed).2.1
      have sum : s'.index (regField inst 12) = (addFlags (s.index (regField inst 16))
          (s.index (regField inst 0)) (s.status.getBit flagC)).res := by
        rw [kept _ (regField_lt _ _) head.registers.2.1 fun i listed => (before i listed).2.2.symm]
        exact RegFile.index_setIndex_self ..
      rw [List.map_congr_left lhs, List.map_congr_left rhs, carry_added] at value
      have first := addFlags_value (s.index (regField inst 16)) (s.index (regField inst 0))
        (s.status.getBit flagC)
      have shifted : 2 ^ (32 * (inst :: insts).length) * (s'.status.getBit flagC).toNat =
          2 ^ 32 * (2 ^ (32 * insts.length) * (s'.status.getBit flagC).toNat) := by
        rw [List.length_cons, Nat.mul_succ, Nat.pow_add, Nat.mul_comm (2 ^ _) (2 ^ 32), Nat.mul_assoc]
      rw [shifted]
      simp only [List.map_cons, limbs, sum]
      omega
    · rw [kept r general counter fun i listed => free i (List.mem_cons_of_mem _ listed)]
      exact index_added general counter (free inst List.mem_cons_self)

/-- `ADCS R0, R0, R2` and `ADCS R1, R1, R3`, where the first sum carries into the second. -/
theorem straight_adcs_two : ∃ s', straight [0xe0b00002, 0xe0b11003] 0x100
      ((((RegFile.newEmpty.setIndex 0 0xffffffff).setIndex 1 5).setIndex 2 1).setIndex 3 7) =
        .done ((), s') ∧
    limbs [s'.index 0, s'.index 1] + 2 ^ 64 * (s'.status.getBit flagC).toNat =
      limbs [0xffffffff, 5] + limbs [1, 7] := by
  have adcs : ∀ inst ∈ [0xe0b00002, 0xe0b11003], Adcs inst := by
    simp only [List.forall_mem_cons]
    exact ⟨⟨rfl, rfl, rfl, rfl, by decide, by decide⟩, ⟨rfl, rfl, rfl, rfl, by decide, by decide⟩, by simp⟩
  have apart : [0xe0b00002, 0xe0b11003].Pairwise Apart := by
    simp [Apart]
    decide
  obtain ⟨s', ran, value, _⟩ := straight_adcs adcs apart 0x100
    ((((RegFile.newEmpty.setIndex 0 0xffffffff).setIndex 1 5).setIndex 2 1).setIndex 3 7)
  exact ⟨s', ran, value⟩

end Arm

end Clicky.Armv4t
