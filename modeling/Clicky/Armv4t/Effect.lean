import Clicky.Armv4t.Step
import Clicky.Armv4t.Transfers

/-! What an instruction may do: the writes to the register file it is made of, and the memory it may
ask for. -/
namespace Clicky.Armv4t
open CpuM Dialogue BitVec

/-- Where the condition flags are. -/
def flagMask : U32 := 0xf0000000

/-- Where the condition flags and the instruction set are. -/
def stateMask : U32 := 0xf0000020

theorem agree_setBits (x flags : U32) : AgreeOutside stateMask (x.setBits 28 31 flags) x := by
  refine agreeOutside_of_getLsbD fun i bound outside => ?_
  rw [getLsbD_setBits x flags (by decide) bound, if_neg]
  rintro ⟨low, high⟩
  obtain rfl | rfl | rfl | rfl : i = 28 ∨ i = 29 ∨ i = 30 ∨ i = 31 := by omega
  all_goals exact absurd outside (by decide)

theorem agree_or_thumb (x : U32) (thumb : Bool) : AgreeOutside stateMask (x ||| bitAt thumb flagT) x :=
  agreeOutside_or (by cases thumb <;> rfl) x

theorem agree_clear_thumb (x : U32) : AgreeOutside stateMask (x &&& ~~~((1 : U32) <<< flagT)) x := by
  rw [AgreeOutside, BitVec.and_assoc]
  rfl

/-- One write of an instruction. -/
inductive Move : RegFile → RegFile → Prop
  | general (s : RegFile) (r : Register) (val : U32) (range : r.val < 16) :
      Move s (s.setIndex r val)
  /-- A register of the user bank, written from another mode. -/
  | user (s : RegFile) (r : Register) (val : U32) (range : r.val < 16) :
      Move s (s.store (regMap 0 r) val)
  /-- The flags and the instruction set. -/
  | flags (s : RegFile) (val : U32) (agree : AgreeOutside (stateMask) val s.status) :
      Move s (s.store cpsr val)
  | restore (s s' : RegFile) (bank : Fin 6) (ok : s.set bank .cpsr (s.index .spsr) = .ok s') :
      Move s s'
  /-- In user mode, only the flags. -/
  | status (s s' : RegFile) (bank : Fin 6) (val : U32) (ok : s.set bank .cpsr val = .ok s')
      (unprivileged : s.mode? = some .user → AgreeOutside flagMask val s.status) : Move s s'
  | savedFlags (s : RegFile) (val : U32) (agree : AgreeOutside flagMask val (s.index .spsr)) :
      Move s (s.setIndex .spsr val)

/-- The memory an instruction asks for: data, and halfwords from even addresses. -/
def MemOp.IsData : MemOp → Prop
  | .r16 addr => addr.getBit 0 = false
  | .w16 addr _ => addr.getBit 0 = false
  | .x16 _ => False
  | .x32 _ => False
  | _ => True

/-- What a loop keeps in each round. -/
theorem keeps_transfers {asks : MemOp → Prop} {fails : String → Prop} {I : RegFile → Prop}
    {each : Register → Nat → CpuM Unit} (round : ∀ r idx, r.val < 16 → Keeps asks fails I (each r idx))
    {list : List Register} (general : ∀ r ∈ list, r.val < 16) (idx : Nat) :
    Keeps asks fails I (transfers each list idx) := by
  induction list generalizing idx with
  | nil => exact Keeps.pure ()
  | cons r list ih =>
    exact (round r idx (general r List.mem_cons_self)).bind fun _ =>
      ih (fun r' later => general r' (.tail r later)) (idx + 1)

/-- The address with bit 0 cleared is even. -/
theorem even_addr (addr : U32) : (addr &&& ~~~1).getBit 0 = false := by
  simp [BitVec.getBit]

/-- An invariant that every write of an instruction keeps, and panics that are allowed where it
holds and the mode is not a mode. -/
structure Closed (fails : String → Prop) (I : RegFile → Prop) : Prop where
  move : ∀ {s s' : RegFile}, I s → Move s s' → I s'
  moded : ∀ {s : RegFile}, I s → s.mode? = none → fails s.invalidMode
  sets : ∀ {s : RegFile} {bank : Fin 6} {val : U32} {message : String}, I s →
    s.set bank .cpsr val = .error message → fails message

/-! ### The parts of an instruction -/

section parts

variable {asks : MemOp → Prop} {fails : String → Prop} {I : RegFile → Prop}

theorem keeps_reg (r : Register) : Keeps asks fails I (reg r) := by
  intro s inside
  exact inside

theorem keeps_fileGet (bank : Fin 6) (r : Register) : Keeps asks fails I (fileGet bank r) := by
  intro s inside
  exact inside

theorem keeps_crash {α : Type} {message : String} (allowed : fails message) :
    Keeps asks fails I (crash message : CpuM α) := by
  intro s _
  exact allowed

theorem keeps_call {op : MemOp} (asked : asks op) : Keeps asks fails I (call op) := by
  intro s inside
  exact ⟨asked, fun _ => inside⟩

theorem keeps_when {c : Prop} [Decidable c] {part : CpuM Unit} (kept : c → Keeps asks fails I part) :
    Keeps asks fails I (when c part) := Keeps.ite kept fun _ => .pure ()

theorem keeps_debugAssert {c : Prop} [Decidable c] {message : String} (holds : ¬ c → fails message) :
    Keeps asks fails I (debugAssert c message) :=
  Keeps.ite (fun _ => .pure ()) fun not => keeps_crash (holds not)

variable (closed : Closed fails I)
include closed

theorem keeps_setReg {r : Register} (general : r.val < 16) (val : U32) :
    Keeps asks fails I (setReg r val) := by
  intro s inside
  exact closed.move inside (.general s r val general)

theorem keeps_fileSet_user {r : Register} (general : r.val < 16) (val : U32) :
    Keeps asks fails I (fileSet 0 r val) := by
  intro s inside
  have other : r ≠ .cpsr := by
    rintro rfl
    exact absurd general (by decide)
  simp only [fileSet, RegFile.set_of_ne s 0 other]
  exact closed.move inside (.user s r val general)

theorem keeps_setFlags (flags : U32) : Keeps asks fails I (setFlags flags) := by
  intro s inside
  change I (s.setIndex .cpsr ((s.index .cpsr).setBits 28 31 flags))
  rw [RegFile.setIndex_cpsr, RegFile.index_cpsr]
  exact closed.move inside (.flags s _ (agree_setBits s.status flags))

theorem keeps_restoreStatus : Keeps asks fails I Arm.restoreStatus := by
  intro s inside
  change ((mode s) >>= fun p => fileSet p.1.regBank .cpsr (s.index .spsr) p.2).All asks fails _
  unfold mode
  cases known : s.mode with
  | error message =>
    obtain ⟨none, rfl⟩ := RegFile.mode_eq_error.mp known
    exact closed.moded inside none
  | ok mode =>
    change (fileSet mode.regBank .cpsr (s.index .spsr) s).All asks fails _
    unfold fileSet
    cases set : s.set mode.regBank .cpsr (s.index .spsr) with
    | error message => exact closed.sets inside set
    | ok s' => exact closed.move inside (.restore s s' _ set)

end parts

/-! ### The instructions -/

namespace Arm

theorem Instruction.decode_fits (inst : U32) : (Instruction.decode inst).fits inst := by
  unfold Instruction.decode
  cases found : Instruction.matchOrder.find? (·.fits inst) with
  | none => simp [Instruction.fits, Instruction.pattern, BitVec.maskMatch]
  | some typ =>
    have fits : typ.fits inst = true := List.find?_some (p := fun t : Instruction => t.fits inst) found
    exact fits

/-- The panic that an instruction raises by itself. -/
def crash? (typ : Instruction) (inst : U32) : Option String :=
  match typ with
  | .dataProc1 => if 14 < (regField inst 8).val then some rsAssertion else none
  | .hwSgnXferR | .hwSgnXferI =>
    if inst.getBit 20 then
      if !inst.getBit 6 && !inst.getBit 5 then some unreachable else none
    else if !inst.getBit 6 && inst.getBit 5 then none else some storeAssertion
  | _ => none

/-- An `MSR` that writes the control bits of the saved status. -/
def savesControl (typ : Instruction) (inst : U32) : Bool :=
  (typ == .psrImm || typ == .psrReg) && inst.getBit 22 && inst.getBit 21 && inst.getBit 16

/-- Without the control bits, and always in user mode, the mask has the flags only. -/
theorem psrMask_flags (inst : U32) (mode : Mode) (low : mode = .user ∨ inst.getBit 16 = false) :
    psrMask inst mode &&& ~~~flagMask = 0 := by
  have none : (mode != .user && inst.getBit 16) = false := by
    rcases low with rfl | clear
    · rfl
    · simp [clear]
  simp only [psrMask, none]
  cases inst.getBit 19 <;> rfl

theorem psrVal_run (inst : U32) (s : RegFile) : ∃ val, psrVal inst s = .done (val, s) := by
  unfold psrVal
  split <;> exact ⟨_, rfl⟩

theorem psrWrite_run (inst : U32) {s : RegFile} {mode : Mode} (known : s.mode = .ok mode) :
    ∃ val, psrWrite inst s = writePsr (psrTarget inst)
      ((s.index (psrTarget inst) &&& ~~~psrMask inst mode) ||| (val &&& psrMask inst mode)) s := by
  obtain ⟨val, reads⟩ := psrVal_run inst s
  refine ⟨val, ?_⟩
  change ((CpuM.mode s) >>= fun p => (psrVal inst p.2) >>= fun q => _) = _
  simp only [CpuM.mode, known, done_bind, reads]
  rfl

section keeps

variable {fails : String → Prop} {I : RegFile → Prop} (closed : Closed fails I)
include closed

theorem keeps_regField (inst : U32) (off : Nat) (val : U32) :
    Keeps MemOp.IsData fails I (setReg (regField inst off) val) :=
  keeps_setReg closed (Register.ofBits_lt _) val

theorem keeps_branchEx (inst : U32) : Keeps MemOp.IsData fails I (branchEx inst) := by
  refine (keeps_reg _).bind fun newPc => ?_
  refine (keeps_setReg closed (by decide) _).bind fun _ => ?_
  intro s inside
  change I (s.setIndex .cpsr (s.index .cpsr ||| bitAt (newPc.getBit 0) flagT))
  rw [RegFile.setIndex_cpsr, RegFile.index_cpsr]
  exact closed.move inside (.flags s _ (agree_or_thumb _ _))

theorem keeps_branch (inst pc : U32) : Keeps MemOp.IsData fails I (branch inst pc) := by
  refine (keeps_setReg closed (by decide) _).bind fun _ => ?_
  exact keeps_when fun _ => keeps_setReg closed (by decide) _

omit closed in
theorem keeps_operand {typ : Instruction} {inst : U32} (c : Bool)
    (kind : typ = .dataProc0 ∨ typ = .dataProc1 → inst.getBit 4 = decide (typ = .dataProc1))
    (crashes : ∀ m, crash? typ inst = some m → fails m) :
    Keeps MemOp.IsData fails I (operand typ inst c) := by
  refine Keeps.ite (fun register => ?_) fun _ => .pure _
  refine (keeps_debugAssert fun other => absurd (kind register) other).bind fun _ => ?_
  refine Keeps.bind ?_ fun shift => (keeps_reg _).bind fun _ => .pure _
  refine Keeps.ite (fun _ => .pure _) fun other => ?_
  have shifts : typ = .dataProc1 := register.resolve_left other
  refine (keeps_debugAssert fun high => crashes rsAssertion ?_).bind fun _ => (keeps_reg _).bind fun _ =>
    .pure _
  rw [shifts, crash?, if_pos (by omega)]

theorem keeps_dataProc {typ : Instruction} {inst : U32} (cpsr : U32)
    (kind : typ = .dataProc0 ∨ typ = .dataProc1 → inst.getBit 4 = decide (typ = .dataProc1))
    (crashes : ∀ m, crash? typ inst = some m → fails m) :
    Keeps MemOp.IsData fails I (dataProc typ inst cpsr) := by
  refine (keeps_operand _ kind crashes).bind fun valm => (keeps_reg _).bind fun _ => ?_
  refine Keeps.bind (keeps_when fun _ => ?_) fun _ => keeps_when fun _ => keeps_regField closed inst 12 _
  exact Keeps.ite (fun _ => keeps_setFlags closed _) fun _ => keeps_restoreStatus closed

theorem keeps_psr {typ : Instruction} {inst : U32} (kind : typ = .psrImm ∨ typ = .psrReg)
    (saves : savesControl typ inst → ∀ s val, I s → s.mode? ≠ some .user → I (s.setIndex .spsr val)) :
    Keeps MemOp.IsData fails I (psr inst) := by
  refine Keeps.ite (fun _ => (keeps_reg _).bind fun _ => keeps_regField closed inst 12 _) fun write => ?_
  intro s inside
  cases known : s.mode with
  | error message =>
    obtain ⟨none, rfl⟩ := RegFile.mode_eq_error.mp known
    change ((mode s) >>= fun p => _).All MemOp.IsData fails _
    simp only [mode, known, panic_bind]
    exact closed.moded inside none
  | ok mode =>
    have named := RegFile.mode_eq_ok.mp known
    obtain ⟨val, written⟩ := psrWrite_run inst known
    rw [written]
    cases saved : inst.getBit 22 with
    | false =>
      simp only [psrTarget, saved, writePsr, Bool.false_eq_true, if_false, if_true]
      change ((CpuM.mode s) >>= fun p => _).All MemOp.IsData fails _
      simp only [CpuM.mode, known, done_bind, fileSet]
      cases set : s.set mode.regBank .cpsr _ with
      | error message => exact closed.sets inside set
      | ok s' =>
        refine closed.move inside (.status s s' _ _ set fun user => ?_)
        have low : mode = .user := Option.some.inj (named.symm.trans user)
        rw [RegFile.index_cpsr]
        exact agreeOutside_merge (psrMask_flags inst mode (.inl low)) _ val
    | true =>
      simp only [psrTarget, saved, writePsr, if_true, show Register.spsr ≠ .cpsr by decide, if_false]
      by_cases low : mode = .user ∨ inst.getBit 16 = false
      · exact closed.move inside (.savedFlags s _ (agreeOutside_merge (psrMask_flags inst mode low) _ val))
      · obtain ⟨privileged, control⟩ := not_or.mp low
        refine saves ?_ s _ inside ?_
        · rcases kind with rfl | rfl <;> simp_all [savesControl]
        · rw [named]
          exact fun user => privileged (Option.some.inj user)

theorem keeps_multiply (inst cpsr : U32) : Keeps MemOp.IsData fails I (multiply inst cpsr) := by
  refine (keeps_reg _).bind fun _ => (keeps_reg _).bind fun _ => Keeps.bind ?_ fun _ => ?_
  · exact Keeps.ite (fun _ => keeps_reg _) fun _ => .pure 0
  · exact (keeps_regField closed inst 16 _).bind fun _ => keeps_when fun _ => keeps_setFlags closed _

theorem keeps_mulLong (inst : U32) : Keeps MemOp.IsData fails I (mulLong inst) := by
  refine (keeps_reg _).bind fun _ => (keeps_reg _).bind fun _ => ?_
  refine (keeps_reg _).bind fun _ => (keeps_reg _).bind fun _ => ?_
  refine (keeps_regField closed inst 16 _).bind fun _ => (keeps_regField closed inst 12 _).bind fun _ => ?_
  exact keeps_when fun _ => keeps_setFlags closed _

theorem keeps_writeback (inst : U32) (off : Nat) (rd : Register) (postAddr : U32) :
    Keeps MemOp.IsData fails I (writeback inst (regField inst off) rd postAddr) :=
  keeps_when fun _ => keeps_regField closed inst off postAddr

omit closed in
theorem keeps_transferBase (rn : Register) : Keeps MemOp.IsData fails I (transferBase rn) :=
  (keeps_reg rn).bind fun _ => .pure _

omit closed in
theorem keeps_storeVal (rd : Register) : Keeps MemOp.IsData fails I (storeVal rd) :=
  (keeps_reg rd).bind fun _ => .pure _

theorem keeps_singleXfer (typ : Instruction) (inst cpsr : U32) :
    Keeps MemOp.IsData fails I (singleXfer typ inst cpsr) := by
  refine Keeps.bind ?_ fun offset => (keeps_transferBase _).bind fun base => ?_
  · exact Keeps.ite (fun _ => .pure _) fun _ => (keeps_reg _).bind fun _ => .pure _
  · refine Keeps.bind ?_ fun _ => keeps_writeback closed inst 16 _ _
    refine Keeps.ite (fun _ => ?_) fun _ => ?_
    · refine (keeps_storeVal _).bind fun val => ?_
      exact Keeps.ite (fun _ => keeps_call trivial) fun _ => keeps_call trivial
    · refine Keeps.bind ?_ fun val => keeps_regField closed inst 12 val
      exact Keeps.ite (fun _ => keeps_call trivial) fun _ => (keeps_call trivial).map _

theorem keeps_hwSgnXfer {typ : Instruction} {inst : U32} (halfword : typ = .hwSgnXferR ∨ typ = .hwSgnXferI)
    (crashes : ∀ m, crash? typ inst = some m → fails m) :
    Keeps MemOp.IsData fails I (hwSgnXfer typ inst) := by
  have own : crash? typ inst = if inst.getBit 20 then
      if !inst.getBit 6 && !inst.getBit 5 then some unreachable else none
    else if !inst.getBit 6 && inst.getBit 5 then none else some storeAssertion := by
    rcases halfword with rfl | rfl <;> rfl
  refine Keeps.bind ?_ fun offset => (keeps_transferBase _).bind fun base => ?_
  · exact Keeps.ite (fun _ => keeps_reg _) fun _ => .pure _
  · refine Keeps.bind ?_ fun _ => keeps_writeback closed inst 16 _ _
    refine Keeps.ite (fun store => ?_) fun load => ?_
    · refine (keeps_debugAssert fun other => crashes _ ?_).bind fun _ => ?_
      · rw [own]
        simp_all
      · exact (keeps_storeVal _).bind fun val => keeps_call (even_addr _)
    · refine Keeps.bind ?_ fun val => keeps_regField closed inst 12 val
      unfold hwSgnLoad
      split
      · rename_i s h
        refine keeps_crash (crashes _ ?_)
        rw [own]
        simp_all
      · exact (keeps_call (even_addr _)).map _
      · exact (keeps_call trivial).map _
      · exact (keeps_call (even_addr _)).map _

theorem keeps_blockXfer (inst pc : U32) : Keeps MemOp.IsData fails I (blockXfer inst pc) := by
  refine (keeps_reg _).bind fun origBase => Keeps.ite (fun _ => ?_) fun _ => ?_
  · refine Keeps.bind (keeps_when fun _ => keeps_regField closed inst 16 _) fun _ => ?_
    refine keeps_transfers (fun r idx general => ?_) registerList_lt 0
    refine Keeps.ite (fun _ => ?_) fun _ => ?_
    · refine Keeps.bind ?_ fun _ => keeps_call trivial
      exact Keeps.ite (fun _ => .pure _) fun _ => Keeps.ite (fun _ => .pure _) fun _ => keeps_reg r
    · refine Keeps.bind (keeps_call trivial) fun val => (keeps_setReg closed general val).bind fun _ => ?_
      exact keeps_when fun _ => keeps_restoreStatus closed
  · refine keeps_transfers (fun r idx general => ?_) registerList_lt 0
    refine Keeps.ite (fun _ => ?_) fun _ => ?_
    · exact (keeps_fileGet 0 r).bind fun _ => keeps_call trivial
    · exact (keeps_call trivial).bind fun val => keeps_fileSet_user closed general val

theorem keeps_swap (inst : U32) : Keeps MemOp.IsData fails I (swap inst) := by
  refine (keeps_reg _).bind fun base => Keeps.bind ?_ fun val => (keeps_reg _).bind fun oval => ?_
  · exact Keeps.ite (fun _ => keeps_call trivial) fun _ => (keeps_call trivial).map _
  · refine Keeps.bind ?_ fun _ => keeps_regField closed inst 12 val
    exact Keeps.ite (fun _ => keeps_call trivial) fun _ => keeps_call trivial

theorem keeps_coprocReg (inst : U32) : Keeps MemOp.IsData fails I (coprocReg inst) :=
  keeps_when fun _ => keeps_regField closed inst 12 0

theorem keeps_perform {typ : Instruction} {inst : U32} (pc cpsr : U32) (fits : typ.fits inst)
    (inner : typ ≠ .softwareInt) (crashes : ∀ m, crash? typ inst = some m → fails m)
    (saves : savesControl typ inst → ∀ s val, I s → s.mode? ≠ some .user → I (s.setIndex .spsr val)) :
    Keeps MemOp.IsData fails I (perform typ inst pc cpsr) := by
  have kind : typ = .dataProc0 ∨ typ = .dataProc1 → inst.getBit 4 = decide (typ = .dataProc1) := by
    rintro (rfl | rfl) <;> exact BitVec.getLsbD_of_maskMatch fits rfl
  cases typ with
  | branchEx => exact (keeps_branchEx closed inst).bind fun _ => .pure true
  | branch => exact (keeps_branch closed inst pc).bind fun _ => .pure true
  | dataProc0 => exact (keeps_dataProc closed cpsr kind crashes).bind fun _ => .pure true
  | dataProc1 => exact (keeps_dataProc closed cpsr kind crashes).bind fun _ => .pure true
  | dataProc2 => exact (keeps_dataProc closed cpsr kind crashes).bind fun _ => .pure true
  | psrImm => exact (keeps_psr closed (.inl rfl) saves).bind fun _ => .pure true
  | psrReg => exact (keeps_psr closed (.inr rfl) saves).bind fun _ => .pure true
  | multiply => exact (keeps_multiply closed inst cpsr).bind fun _ => .pure true
  | mulLong => exact (keeps_mulLong closed inst).bind fun _ => .pure true
  | singleXferI => exact (keeps_singleXfer closed _ inst cpsr).bind fun _ => .pure true
  | singleXferR => exact (keeps_singleXfer closed _ inst cpsr).bind fun _ => .pure true
  | hwSgnXferR => exact (keeps_hwSgnXfer closed (.inl rfl) crashes).bind fun _ => .pure true
  | hwSgnXferI => exact (keeps_hwSgnXfer closed (.inr rfl) crashes).bind fun _ => .pure true
  | blockXfer => exact (keeps_blockXfer closed inst pc).bind fun _ => .pure true
  | swap => exact (keeps_swap closed inst).bind fun _ => .pure true
  | softwareInt => exact absurd rfl inner
  | coprocReg => exact (keeps_coprocReg closed inst).bind fun _ => .pure true
  | undefined => exact .pure false

end keeps
end Arm

namespace Thumb

section keeps

variable {fails : String → Prop} {I : RegFile → Prop} (closed : Closed fails I)
include closed

theorem keeps_lowField (inst : U16) (off : Nat) (val : U32) :
    Keeps MemOp.IsData fails I (setReg (lowField inst off) val) :=
  keeps_setReg closed (Register.ofBits_lt _) val

theorem keeps_setFlagsOf (res : U32) (v c : Bool) : Keeps MemOp.IsData fails I (setFlagsOf res v c) :=
  keeps_setFlags closed _

theorem keeps_shifted (inst : U16) (cpsr : U32) : Keeps MemOp.IsData fails I (shifted inst cpsr) :=
  (keeps_reg _).bind fun _ => (keeps_lowField closed inst 0 _).bind fun _ => keeps_setFlagsOf closed _ _ _

theorem keeps_addSub (inst : U16) : Keeps MemOp.IsData fails I (addSub inst) := by
  refine Keeps.bind ?_ fun val2 => (keeps_reg _).bind fun _ => ?_
  · exact Keeps.ite (fun _ => keeps_reg _) fun _ => .pure _
  · exact (keeps_lowField closed inst 0 _).bind fun _ => keeps_setFlagsOf closed _ _ _

theorem keeps_immOp (inst : U16) (cpsr : U32) : Keeps MemOp.IsData fails I (immOp inst cpsr) := by
  refine (keeps_reg _).bind fun _ => Keeps.bind ?_ fun _ => keeps_setFlagsOf closed _ _ _
  exact keeps_when fun _ => keeps_lowField closed inst 8 _

theorem keeps_aluOp (inst : U16) (cpsr : U32) : Keeps MemOp.IsData fails I (aluOp inst cpsr) := by
  refine (keeps_reg _).bind fun _ => (keeps_reg _).bind fun _ => Keeps.bind ?_ fun _ =>
    keeps_setFlagsOf closed _ _ _
  exact keeps_when fun _ => keeps_lowField closed inst 0 _

/-- A branch that exchanges the instruction set writes the status it was given, but for one bit. -/
theorem keeps_bx (vals : U32) {s : RegFile} (inside : I s) :
    (bx vals s.status s).All MemOp.IsData fails fun p => I p.2 := by
  let s' := s.setIndex .pc (vals &&& (if !vals.getBit 0 then ~~~3 else ~~~1 : U32))
  have status : s'.status = s.status := s.status_setIndex (by decide) _
  change I (s'.setIndex .cpsr ((s.status &&& ~~~((1 : U32) <<< flagT)) ||| bitAt (vals.getBit 0) flagT))
  rw [RegFile.setIndex_cpsr, ← status]
  refine closed.move (closed.move inside (.general s .pc _ (by decide))) (.flags s' _ ?_)
  exact (agree_or_thumb _ _).trans (agree_clear_thumb _)

theorem keeps_hiRegBx (inst : U16) {s : RegFile} (inside : I s) :
    (hiRegBx inst s.status s).All MemOp.IsData fails fun p => I p.2 := by
  let crd : Register := .ofBits (inst.extractLsb' 7 1 ++ inst.extractLsb' 0 3)
  have operation (op : BitVec 2) (vals : U32) :
      (hiRegOp op crd vals s.status s).All MemOp.IsData fails fun p => I p.2 := by
    unfold hiRegOp
    split
    · exact ((keeps_reg crd).bind fun _ => keeps_setReg closed (Register.ofBits_lt _) _) s inside
    · exact ((keeps_reg crd).bind fun _ => keeps_setFlagsOf closed _ _ _) s inside
    · exact keeps_setReg closed (Register.ofBits_lt _) _ s inside
    · exact keeps_bx closed vals inside
  have rest : Keeps MemOp.IsData fails I (do
      if crd = .pc then setReg .pc ((← reg .pc) &&& ~~~1)) :=
    Keeps.ite (fun _ => (keeps_reg .pc).bind fun _ => keeps_setReg closed (by decide) _) fun _ => .pure ()
  change (hiRegOp _ crd _ s.status s >>= fun p => _).All MemOp.IsData fails _
  rw [all_bind]
  exact (operation _ _).mono (fun _ h => h) (fun _ h => h) fun p here => rest p.2 here

theorem keeps_pcLoad (inst : U16) : Keeps MemOp.IsData fails I (pcLoad inst) :=
  (keeps_reg _).bind fun _ => Keeps.bind (keeps_call trivial) fun val => keeps_lowField closed inst 8 val

theorem keeps_singleXferR (inst : U16) : Keeps MemOp.IsData fails I (singleXferR inst) := by
  refine (keeps_reg _).bind fun _ => (keeps_reg _).bind fun _ => ?_
  split
  · exact (keeps_reg _).bind fun _ => keeps_call trivial
  · exact (keeps_reg _).bind fun _ => keeps_call trivial
  · exact Keeps.bind (keeps_call trivial) fun val => keeps_lowField closed inst 0 val
  · exact Keeps.bind (keeps_call trivial) fun val => keeps_lowField closed inst 0 _

theorem keeps_hwSgnXfer (inst : U16) : Keeps MemOp.IsData fails I (hwSgnXfer inst) := by
  refine (keeps_reg _).bind fun _ => (keeps_reg _).bind fun _ => ?_
  split
  · exact (keeps_reg _).bind fun _ => keeps_call (even_addr _)
  · exact Keeps.bind (keeps_call (even_addr _)) fun val => keeps_lowField closed inst 0 _
  · exact Keeps.bind (keeps_call trivial) fun val => keeps_lowField closed inst 0 _
  · exact Keeps.bind (keeps_call (even_addr _)) fun val => keeps_lowField closed inst 0 _

theorem keeps_singleXferI (inst : U16) : Keeps MemOp.IsData fails I (singleXferI inst) := by
  refine Keeps.ite (fun _ => (keeps_reg _).bind fun _ => ?_) fun _ => (keeps_reg _).bind fun _ => ?_
  all_goals refine Keeps.ite (fun _ => (keeps_reg _).bind fun _ => keeps_call trivial) fun _ => ?_
  · exact Keeps.bind (keeps_call trivial) fun val => keeps_lowField closed inst 0 val
  · exact Keeps.bind (keeps_call trivial) fun val => keeps_lowField closed inst 0 _

theorem keeps_hwXferI (inst : U16) : Keeps MemOp.IsData fails I (hwXferI inst) := by
  refine (keeps_reg _).bind fun _ => Keeps.ite (fun _ => ?_) fun _ => ?_
  · exact (keeps_reg _).bind fun _ => keeps_call (even_addr _)
  · exact Keeps.bind (keeps_call (even_addr _)) fun val => keeps_lowField closed inst 0 _

theorem keeps_spXfer (inst : U16) : Keeps MemOp.IsData fails I (spXfer inst) := by
  refine (keeps_reg _).bind fun _ => Keeps.ite (fun _ => ?_) fun _ => ?_
  · exact (keeps_reg _).bind fun _ => keeps_call trivial
  · exact Keeps.bind (keeps_call trivial) fun val => keeps_lowField closed inst 8 val

theorem keeps_loadAddr (inst : U16) : Keeps MemOp.IsData fails I (loadAddr inst) :=
  (keeps_reg _).bind fun _ => (keeps_reg _).bind fun _ => keeps_lowField closed inst 8 _

theorem keeps_spAdd (inst : U16) : Keeps MemOp.IsData fails I (spAdd inst) :=
  (keeps_reg _).bind fun _ => keeps_setReg closed (by decide) _

theorem keeps_pushPop (inst : U16) : Keeps MemOp.IsData fails I (pushPop inst) := by
  refine (keeps_reg _).bind fun base => Keeps.bind ?_ fun _ => keeps_setReg closed (by decide) _
  refine keeps_transfers (fun r idx general => ?_) registerList_lt 0
  refine Keeps.ite (fun _ => (keeps_reg r).bind fun _ => keeps_call trivial) fun _ => ?_
  exact Keeps.bind (keeps_call trivial) fun val => keeps_setReg closed general _

theorem keeps_blockXfer (inst : U16) : Keeps MemOp.IsData fails I (blockXfer inst) := by
  refine (keeps_reg _).bind fun base => (keeps_lowField closed inst 8 _).bind fun _ => ?_
  refine keeps_transfers (fun r idx general => ?_) registerList_lt 0
  refine Keeps.ite (fun _ => ?_) fun _ => ?_
  · refine Keeps.bind ?_ fun _ => keeps_call trivial
    exact Keeps.ite (fun _ => .pure base) fun _ => keeps_reg r
  · exact Keeps.bind (keeps_call trivial) fun val => keeps_setReg closed general val

theorem keeps_condBranch (inst : U16) (pc cpsr : U32) :
    Keeps MemOp.IsData fails I (condBranch inst pc cpsr) :=
  Keeps.ite (fun _ => keeps_setReg closed (by decide) _) fun _ => .pure ()

theorem keeps_branch (inst : U16) (pc : U32) : Keeps MemOp.IsData fails I (branch inst pc) :=
  keeps_setReg closed (by decide) _

theorem keeps_longBranch (inst : U16) (pc : U32) : Keeps MemOp.IsData fails I (longBranch inst pc) := by
  refine Keeps.ite (fun _ => keeps_setReg closed (by decide) _) fun _ => (keeps_reg _).bind fun _ => ?_
  exact (keeps_setReg closed (by decide) _).bind fun _ => keeps_setReg closed (by decide) _

theorem keeps_perform {typ : Instruction} (inst : U16) (pc : U32) (inner : typ ≠ .softwareInt)
    {s : RegFile} (inside : I s) :
    (perform typ inst pc s.status s).All MemOp.IsData fails fun p => I p.2 := by
  cases typ with
  | shifted => exact ((keeps_shifted closed inst s.status).bind fun _ => .pure true) s inside
  | addSub => exact ((keeps_addSub closed inst).bind fun _ => .pure true) s inside
  | immOp => exact ((keeps_immOp closed inst s.status).bind fun _ => .pure true) s inside
  | aluOp => exact ((keeps_aluOp closed inst s.status).bind fun _ => .pure true) s inside
  | hiRegBx =>
    change (hiRegBx inst s.status s >>= fun p => _).All MemOp.IsData fails _
    rw [all_bind]
    exact (keeps_hiRegBx closed inst inside).mono (fun _ h => h) (fun _ h => h) fun p here => here
  | pcLoad => exact ((keeps_pcLoad closed inst).bind fun _ => .pure true) s inside
  | singleXferR => exact ((keeps_singleXferR closed inst).bind fun _ => .pure true) s inside
  | hwSgnXfer => exact ((keeps_hwSgnXfer closed inst).bind fun _ => .pure true) s inside
  | singleXferI => exact ((keeps_singleXferI closed inst).bind fun _ => .pure true) s inside
  | hwXferI => exact ((keeps_hwXferI closed inst).bind fun _ => .pure true) s inside
  | spXfer => exact ((keeps_spXfer closed inst).bind fun _ => .pure true) s inside
  | loadAddr => exact ((keeps_loadAddr closed inst).bind fun _ => .pure true) s inside
  | spAdd => exact ((keeps_spAdd closed inst).bind fun _ => .pure true) s inside
  | pushPop => exact ((keeps_pushPop closed inst).bind fun _ => .pure true) s inside
  | blockXfer => exact ((keeps_blockXfer closed inst).bind fun _ => .pure true) s inside
  | condBranch => exact ((keeps_condBranch closed inst pc s.status).bind fun _ => .pure true) s inside
  | softwareInt => exact absurd rfl inner
  | branch => exact ((keeps_branch closed inst pc).bind fun _ => .pure true) s inside
  | longBranch => exact ((keeps_longBranch closed inst pc).bind fun _ => .pure true) s inside
  | undefined => exact inside

end keeps
end Thumb
end Clicky.Armv4t
