import Clicky.Armv4t.DataProc
import Clicky.Armv4t.Sync

/-! The return from an exception: the program that was interrupted goes on as if nothing had been. -/
namespace Clicky.Armv4t
open CpuM Runs

namespace Arm

theorem restoreStatus_run {s : RegFile} {mode back : Mode} (known : s.mode? = some mode)
    (named : Mode.fromBits (modeBits (s.index .spsr)) = some back) :
    restoreStatus s = .done ((), { s.store cpsr (s.index .spsr) with bank := back.regBank }) := by
  have here : CpuM.mode s = .done (mode, s) := by
    rw [CpuM.mode, RegFile.mode_eq_ok.mpr known]
  simp [restoreStatus, here, fileSet_cpsr_of_named s _ named]

/-- Arithmetic on the program counter with the flags asked for brings the saved status back. -/
theorem dataProc_returns {typ : Instruction} {inst cpsr : U32} {valm : Shifted} {s : RegFile}
    {mode back : Mode} (second : operand typ inst (cpsr.getBit flagC) s = .done (valm, s))
    (rn : regField inst 16 ≠ .pc) (rd : regField inst 12 = .pc) (flags : inst.getBit 20 = true)
    (writes : compares (inst.extractLsb' 21 4) = false) (known : s.mode? = some mode)
    (named : Mode.fromBits (modeBits (s.index .spsr)) = some back) :
    dataProc typ inst cpsr s = .done ((),
      ({ s.store Clicky.cpsr (s.index .spsr) with bank := back.regBank }).setIndex .pc
        (compute (inst.extractLsb' 21 4) (s.index (regField inst 16)) valm.1 (cpsr.getBit flagV)
          (cpsr.getBit flagC) valm.2).res) := by
  simp [dataProc, second, rn, rd, flags, writes, restoreStatus_run known named]

end Arm

/-- The instruction that returns from an exception: `SUBS PC, LR, #4` or `MOVS PC, LR`. -/
def Exception.returnWord (exc : Exception) : U32 := if exc.isInterrupt then 0xe25ef004 else 0xe1b0f00e

/-- What a handler must have put back before it returns: it is in the mode that it was entered in, has
the return address and the saved status, and the program's registers are as they were. -/
structure Handled (exc : Exception) (s h : RegFile) : Prop where
  mode : h.mode? = some exc.modeOnEntry
  bank : h.bank = exc.modeOnEntry.regBank
  lr : h.index .lr = exc.newLr s
  spsr : h.index .spsr = s.status
  restored : ∀ r : Register, r.val < 15 → h.get s.bank r = s.index r

/-- Two register files that a program cannot tell apart. -/
structure SameView (s s' : RegFile) : Prop where
  bank : s'.bank = s.bank
  status : s'.status = s.status
  regs : ∀ r : Register, r.val < 16 → s'.index r = s.index r

section returns

variable {exc : Exception} {s h : RegFile}

theorem Handled.named (handled : Handled exc s h) (r : U32) :
    (h.setIndex .pc r).mode? = some exc.modeOnEntry ∧ (h.setIndex .pc r).index .lr = exc.newLr s ∧
      (h.setIndex .pc r).index .spsr = s.status := by
  refine ⟨?_, ?_, ?_⟩
  · rw [RegFile.mode?_congr (congrArg modeBits (h.status_setIndex (by decide) r)), handled.mode]
  · rw [h.index_setIndex_of_ne (by decide) (by decide), handled.lr]
  · rw [h.index_setIndex_of_ne (by decide) (by decide), handled.spsr]

/-- What the return instruction leaves. -/
def RegFile.returned (s h : RegFile) (back : Mode) : RegFile :=
  ({ h.store cpsr s.status with bank := back.regBank }).setIndex .pc (s.reg 15)

theorem perform_returnWord (handled : Handled exc s h) {back : Mode} (named : s.mode? = some back)
    (pc pc' : U32) : Arm.perform (Arm.Instruction.decode exc.returnWord) exc.returnWord pc h.status
      (h.setIndex .pc pc') = .done (true, s.returned (h.setIndex .pc pc') back) := by
  obtain ⟨known, lr, spsr⟩ := handled.named pc'
  have saved : Mode.fromBits (modeBits ((h.setIndex .pc pc').index .spsr)) = some back := by
    rw [spsr]
    exact named
  cases interrupt : exc.isInterrupt with
  | true =>
    have word : exc.returnWord = 0xe25ef004 := by simp [Exception.returnWord, interrupt]
    have decodes : Arm.Instruction.decode 0xe25ef004 = .dataProc2 := by decide
    have address : (h.setIndex .pc pc').index .lr - 4 = s.reg 15 := by
      rw [lr, Exception.newLr, interrupt, if_pos rfl, BitVec.add_sub_cancel]
    have result (v c shiftCarry : Bool) : (Arm.compute 0x2 ((h.setIndex .pc pc').index .lr) 4 v c
        shiftCarry).res = s.reg 15 := (subFlags_res _ _).trans address
    rw [word, decodes, Arm.perform, bind_run, Arm.dataProc_returns Arm.operand_imm (by decide)
      (by decide) (by decide) (by decide) known saved, spsr, Dialogue.done_bind, RegFile.returned,
      ← result]
    rfl
  | false =>
    have word : exc.returnWord = 0xe1b0f00e := by simp [Exception.returnWord, interrupt]
    have decodes : Arm.Instruction.decode 0xe1b0f00e = .dataProc0 := by decide
    have address : (h.setIndex .pc pc').index .lr = s.reg 15 := by
      rw [lr, Exception.newLr, interrupt]
      rfl
    have result (a : U32) (v c shiftCarry : Bool) : (Arm.compute 0xD a
        ((h.setIndex .pc pc').index .lr) v c shiftCarry).res = s.reg 15 := address
    rw [word, decodes, Arm.perform, bind_run, Arm.dataProc_returns (Arm.operand_immShift (by decide)
      (by decide)) (by decide) (by decide) (by decide) (by decide) known saved, spsr, Dialogue.done_bind,
      RegFile.returned, ← result]
    rfl

theorem sameView_returned (sync : s.InSync) (handled : Handled exc s h) {back : Mode}
    (named : s.mode? = some back) (pc' : U32) :
    SameView s (s.returned (h.setIndex .pc pc') back) := by
  have bank : back.regBank = s.bank := by
    obtain ⟨mode, named', placed⟩ := sync
    obtain rfl : back = mode := Option.some.inj (named.symm.trans named')
    exact placed.symm
  refine ⟨bank, ?_, fun r general => ?_⟩
  · rw [RegFile.returned, RegFile.status_setIndex _ (by decide)]
    exact (h.setIndex .pc pc').store_reg_self cpsr s.status
  · by_cases counter : r = .pc
    · subst counter
      rw [RegFile.returned, RegFile.index_setIndex_self, RegFile.index, regMap_pc]
    · have low : r.val < 15 := by
        have apart : r.val ≠ 15 := fun same => counter (Fin.ext same)
        omega
      have elsewhere : regMap h.bank .pc ≠ regMap s.bank r := by
        rw [regMap_pc, ← regMap_pc s.bank]
        exact fun same => counter (regMap_inj (by decide) same).symm
      rw [RegFile.returned, RegFile.index_setIndex_of_ne _ (by decide) (Ne.symm counter),
        RegFile.index, bank, RegFile.store_reg_of_ne _ (regMap_ne_cpsr general), RegFile.setIndex,
        RegFile.store_reg_of_ne _ elsewhere.symm]
      exact handled.restored r low

end returns

section runs

variable {σ : Type} {answer : (op : MemOp) → σ → Outcome Empty σ op.Answer}

/-- An exception whose handler puts back what it used, and returns: the program that it came between
goes on with the same registers and the same status, whatever happened in the meantime. -/
theorem run_exception {exc : Exception} {m h : RegFile × σ} {handler : List (Event σ)}
    (sync : m.1.InSync) (unmasked : exc.masked m.1.status = false) (fits : ¬ exc.Overflows m.1)
    (ran : run (next answer) (m.1.entered exc (exc.newLr m.1), m.2) handler = some h)
    (handled : Handled exc m.1 h.1) (fetches : Fetches answer h (.arm exc.returnWord)) :
    ∃ m', run (next answer) m (.exception exc :: handler ++ [.step]) = some m' ∧
      SameView m.1 m'.1 := by
  obtain ⟨mem, fetched⟩ := fetches
  obtain ⟨back, named, _⟩ := id sync
  have entry : next answer m (.exception exc) = some (m.1.entered exc (exc.newLr m.1), m.2) := by
    rw [next, CpuM.on, exception_done fits, unmasked]
    rfl
  have always : condMet (exc.returnWord.extractLsb' 28 4) h.1.status = true := by
    cases exc <;> rfl
  have returns : next answer h .step =
      some (m.1.returned (h.1.setIndex .pc (h.1.index .pc + 4)) back, mem) := by
    rw [next, CpuM.on, step_on fetched, CpuM.aligned, Fetched.execute, Arm.execute_of_met always,
      perform_returnWord handled named]
    rfl
  refine ⟨(m.1.returned (h.1.setIndex .pc (h.1.index .pc + 4)) back, mem), ?_,
    sameView_returned sync handled named _⟩
  rw [run_append, run, entry, Option.bind_some, ran, Option.bind_some, run, returns]
  rfl

end runs

/-- `MOV SP, #64` at the vector of an interrupt, and the return after it. -/
def movesStack (op : MemOp) (_ : Unit) : Outcome Empty Unit op.Answer :=
  match op with
  | .r8 _ | .r16 _ | .x16 _ => .ok () 0
  | .r32 addr | .x32 addr => .ok () (if addr = 0x18 then 0xe3a0d040 else 0xe25ef004)
  | .w8 _ _ | .w16 _ _ | .w32 _ _ => .ok () ()

def stackMoved : RegFile :=
  ((atUser.entered .interrupt (Exception.interrupt.newLr atUser)).setIndex .pc 0x1c).setIndex .sp 0x40

theorem run_exception_interrupt : ∃ m',
    run (next movesStack) (atUser, ()) [.exception .interrupt, .step, .step] = some m' ∧
      SameView atUser m'.1 := by
  have handled : Handled .interrupt atUser stackMoved :=
    { mode := rfl, bank := rfl, lr := rfl, spsr := rfl, restored := by decide }
  exact @run_exception Unit movesStack .interrupt (atUser, ()) (stackMoved, ()) [.step] inSync_atUser rfl
    (fun overflows => absurd overflows.2.2 (by decide)) rfl handled ⟨(), rfl⟩

end Clicky.Armv4t
