import Clicky.Armv4t.Run

/-! The register file stays in sync with its mode, and the interpreter does not panic: in every run,
but for an instruction that raises a panic itself, and for writes to the saved status in system
mode. -/
namespace Clicky.Armv4t
open CpuM Dialogue Runs BitVec

theorem modeBits_of_agree {mask x y : U32} (agree : AgreeOutside mask x y)
    (apart : mask &&& 0x1f = 0) : modeBits x = modeBits y := agree.and_eq apart

namespace RegFile.InSync

variable {s s' : RegFile}

theorem store (sync : s.InSync) {slot : Fin 37} (apart : slot ≠ cpsr) (val : U32) :
    (s.store slot val).InSync :=
  sync.of_modeBits rfl (congrArg modeBits (store_reg_of_ne s apart.symm val))

theorem store_cpsr (sync : s.InSync) {val : U32} (bits : modeBits val = modeBits s.status) :
    (s.store cpsr val).InSync :=
  sync.of_modeBits rfl ((congrArg modeBits (store_reg_self s cpsr val)).trans bits)

theorem setIndex_spsr (sync : s.InSync) {val : U32}
    (bits : s.bank = 0 → modeBits val = modeBits s.status) : (s.setIndex .spsr val).InSync := by
  by_cases user : s.bank = 0
  · rw [setIndex, user, regMap_user_spsr]
    exact sync.store_cpsr (bits user)
  · exact sync.store (regMap_spsr_ne_cpsr user) val

theorem set_cpsr_ok (sync : s.InSync) {bank : Fin 6} {val : U32}
    (ok : s.set bank .cpsr val = .ok s') : s'.InSync := by
  obtain ⟨t, same, kept, _⟩ := sync.set_cpsr bank val
  cases same.symm.trans ok
  exact kept

theorem move (sync : s.InSync) (write : Move s s') : s'.InSync := by
  cases write with
  | general r val range => exact sync.store (regMap_ne_cpsr range) val
  | user r val range => exact sync.store (regMap_ne_cpsr range) val
  | flags val agree => exact sync.store_cpsr (modeBits_of_agree agree rfl)
  | restore _ bank ok => exact sync.set_cpsr_ok ok
  | status _ bank val ok _ => exact sync.set_cpsr_ok ok
  | savedFlags val agree =>
    refine sync.setIndex_spsr fun user => ?_
    rw [modeBits_of_agree agree rfl, index, user, regMap_user_spsr]

theorem closed (fails : String → Prop) : Closed fails RegFile.InSync where
  move := InSync.move
  moded sync none := by
    obtain ⟨mode, named, _⟩ := sync
    rw [none] at named
    cases named
  sets {s bank val message} sync error := by
    obtain ⟨t, same, _⟩ := sync.set_cpsr bank val
    rw [error] at same
    cases same

end RegFile.InSync

/-! ### Writes to the saved status -/

/-- What such a write comes to: it never panics, and in user mode it leaves the control bits alone. -/
theorem psr_saves {typ : Arm.Instruction} {inst : U32} (saves : Arm.savesControl typ inst) {s : RegFile}
    (sync : s.InSync) : ∃ val, Arm.psr inst s = .done ((), s.setIndex .spsr val) ∧
      (s.mode? = some .user → AgreeOutside flagMask val (s.index .spsr)) := by
  obtain ⟨mode, named, _⟩ := sync
  have bits : inst.getBit 22 = true ∧ inst.getBit 21 = true := by
    simp only [Arm.savesControl, Bool.and_eq_true] at saves
    exact ⟨saves.1.1.2, saves.1.2⟩
  obtain ⟨val, written⟩ := Arm.psrWrite_run inst (RegFile.mode_eq_ok.mpr named)
  refine ⟨(s.index .spsr &&& ~~~Arm.psrMask inst mode) ||| (val &&& Arm.psrMask inst mode), ?_,
    fun user => ?_⟩
  · simp only [Arm.psr, bits, Bool.not_true, Bool.false_eq_true, if_false, written]
    simp only [Arm.psrTarget, bits, if_true, Arm.writePsr, show Register.spsr ≠ .cpsr by decide, if_false]
    rfl
  · have low : mode = .user := Option.some.inj (named.symm.trans user)
    exact agreeOutside_merge (Arm.psrMask_flags inst mode (.inl low)) _ val

/-- It keeps the register file in sync, but for system mode, where the saved status is the current
one. -/
theorem psr_saves_inSync {typ : Arm.Instruction} {inst : U32} (saves : Arm.savesControl typ inst)
    {s : RegFile} (sync : s.InSync) (other : s.mode? ≠ some .system) :
    ∃ s', Arm.psr inst s = .done ((), s') ∧ s'.InSync := by
  obtain ⟨val, ran, user⟩ := psr_saves saves sync
  refine ⟨s.setIndex .spsr val, ran, sync.setIndex_spsr fun bank => ?_⟩
  obtain ⟨mode, named, placed⟩ := id sync
  have unprivileged : mode = .user := by
    rw [bank] at placed
    cases mode with
    | user => rfl
    | system => exact absurd named other
    | _ => exact absurd placed (by decide)
  rw [unprivileged] at named
  rw [modeBits_of_agree (user named) rfl, RegFile.index, bank, regMap_user_spsr]

theorem perform_saves {typ : Arm.Instruction} {inst : U32} (saves : Arm.savesControl typ inst)
    (pc cpsr : U32) : Arm.perform typ inst pc cpsr = do Arm.psr inst; return true := by
  cases typ <;> first | rfl | cases saves

/-! ### One step -/

/-- Nothing an instruction does panics, but for a panic that it raises by itself. -/
theorem execute_calm {inst : Fetched} {s : RegFile} (sync : s.InSync)
    (calm : inst.crash? s.status = none) :
    (inst.execute (s.index .pc) s).All MemOp.IsData (fun _ => False) fun p =>
      (inst.savesControl s.status → s.mode? ≠ some .system) → p.2.InSync := by
  have ends {d : MemM (Bool × RegFile)} (all : d.All MemOp.IsData (fun _ => False) (Ends RegFile.InSync)) :
      d.All MemOp.IsData (fun _ => False) fun p => p.2.InSync := by
    refine all.mono (fun _ h => h) (fun _ h => h) fun p ended => ?_
    obtain kept | ⟨_, mid, _, same⟩ := ended
    · exact kept
    · rw [same]
      exact mid.inSync_entered _ _
  cases saves : inst.savesControl s.status with
  | false =>
    have all := all_execute (RegFile.InSync.closed fun _ => False) inst sync (by simp [calm])
      (by simp [saves])
    exact (ends all).mono (fun _ h => h) (fun _ h => h) fun _ kept _ => kept
  | true =>
    cases inst with
    | thumb inst => cases saves
    | arm inst =>
      obtain ⟨met, control⟩ := Bool.and_eq_true_iff.mp saves
      have moved : (s.setIndex .pc (s.index .pc + 4)).InSync := sync.store (regMap_ne_cpsr (by decide)) _
      have status := s.status_setIndex (r := .pc) (by decide) (s.index .pc + 4)
      obtain ⟨val, ran, _⟩ := psr_saves control moved
      have performed : (Fetched.arm inst).execute (s.index .pc) s =
          .done (true, (s.setIndex .pc (s.index .pc + 4)).setIndex .spsr val) := by
        change (if !condMet (inst.extractLsb' 28 4) (s.index .cpsr) then pure true
          else Arm.perform _ inst _ _ : CpuM Bool) _ = _
        rw [RegFile.index_cpsr, met, perform_saves control]
        change (Arm.psr inst _ >>= fun p => _) = _
        rw [ran]
        rfl
      rw [performed]
      intro other
      obtain ⟨s', ran', kept⟩ := psr_saves_inSync control moved (by
        rw [RegFile.mode?, status]
        exact other rfl)
      cases ran.symm.trans ran'
      exact kept

/-- The panics that an instruction raises by itself are raised before it asks the memory. -/
theorem perform_crash {typ : Arm.Instruction} {inst : U32} {message : String} (fits : typ.fits inst)
    (crash : Arm.crash? typ inst = some message) (pc cpsr : U32) (s : RegFile) :
    Arm.perform typ inst pc cpsr s = .panic message := by
  have halfword (halfword : typ = .hwSgnXferR ∨ typ = .hwSgnXferI) :
      Arm.hwSgnXfer typ inst s = .panic message := by
    obtain ⟨offset, reads⟩ : ∃ offset, Arm.hwSgnOffset typ inst s = .done (offset, s) := by
      unfold Arm.hwSgnOffset
      split <;> exact ⟨_, rfl⟩
    have own : Arm.crash? typ inst = if inst.getBit 20 then
        if !inst.getBit 6 && !inst.getBit 5 then some Arm.unreachable else none
        else if !inst.getBit 6 && inst.getBit 5 then none else some Arm.storeAssertion := by
      rcases halfword with rfl | rfl <;> rfl
    rw [own] at crash
    simp only [Arm.hwSgnXfer, Arm.transferBase, bind_run, reads, done_bind]
    cases load : inst.getBit 20 <;> cases signed : inst.getBit 6 <;> cases half : inst.getBit 5 <;>
      simp_all [Arm.hwSgnLoad]
  cases typ with
  | dataProc1 =>
    have register : inst.getBit 4 = true := BitVec.getLsbD_of_maskMatch fits rfl
    by_cases high : 14 < (regField inst 8).val
    · have panics : Arm.dataProc .dataProc1 inst cpsr s = .panic message := by
        simp only [Arm.crash?, high, if_true, Option.some.injEq] at crash
        simp [Arm.dataProc, Arm.operand, Arm.regOperand, Arm.shiftAmount, register, crash, not_le.mpr high]
      change (Arm.dataProc _ inst cpsr s >>= fun p => _) = _
      rw [panics]
      rfl
    · simp [Arm.crash?, high] at crash
  | hwSgnXferR =>
    change (Arm.hwSgnXfer _ inst s >>= fun p => _) = _
    rw [halfword (.inl rfl)]
    rfl
  | hwSgnXferI =>
    change (Arm.hwSgnXfer _ inst s >>= fun p => _) = _
    rw [halfword (.inr rfl)]
    rfl
  | _ => cases crash

theorem execute_crash {inst : Fetched} {s : RegFile} {message : String}
    (crash : inst.crash? s.status = some message) (pc : U32) : inst.execute pc s = .panic message := by
  cases inst with
  | thumb inst => cases crash
  | arm inst =>
    simp only [Fetched.crash?] at crash
    split at crash
    · rename_i met
      change (if !condMet (inst.extractLsb' 28 4) (s.index .cpsr) then pure true
        else Arm.perform _ inst _ _ : CpuM Bool) _ = _
      rw [RegFile.index_cpsr, met]
      exact perform_crash (Arm.Instruction.decode_fits inst) crash _ _ _
    · cases crash

/-! ### Runs -/

section runs

variable {σ : Type} {answer : (op : MemOp) → σ → Outcome Empty σ op.Answer}

/-- A step whose fetch is done. -/
theorem step_on {m : RegFile × σ} {mem : σ} {inst : Fetched}
    (fetched : (fetch m.1).run answer m.2 = .ok mem inst) :
    (step m.1).run answer m.2 = (((inst.execute (m.1.index .pc)).aligned m.1).run answer mem).bind
      fun mem p => .ok mem (conclude p) := by
  rw [step_eq, run_bind, fetched, Outcome.bind_ok, run_bind]
  rfl

variable (answers : ∀ op mem, (answer op mem).Returns)
include answers

theorem exists_fetched (m : RegFile × σ) :
    ∃ mem inst, (fetch m.1).run answer m.2 = .ok mem inst := by
  have all := all_fetch (fun _ => False) m.1
  obtain ⟨mem, inst, ran, _⟩ := all.returns (fun op _ => answers op) m.2
  exact ⟨mem, inst, ran⟩

/-- An instruction that raises no panic itself is executed to its end. -/
theorem step_calm {m : RegFile × σ} (sync : m.1.InSync)
    (calm : ∀ inst, Fetches answer m inst → inst.crash? m.1.status = none) :
    ∃ m' inst, next answer m .step = some m' ∧ Fetches answer m inst ∧
      ((inst.savesControl m.1.status → m.1.mode? ≠ some .system) → m'.1.InSync) := by
  obtain ⟨mem, inst, fetched⟩ := exists_fetched answers m
  have all := execute_calm sync (calm inst ⟨mem, fetched⟩)
  have aligned : ((inst.execute (m.1.index .pc)).aligned m.1).All (MemOp.IsBusAccess (m.1.index .pc))
      (fun _ => False) _ := all.interpret fun op data => all_alignmentWrapper _ data
  obtain ⟨mem', p, ran, kept⟩ := aligned.returns (fun op _ => answers op) mem
  refine ⟨((conclude p).2, mem'), inst, ?_, ⟨mem, fetched⟩, fun other => ?_⟩
  · rw [next, CpuM.on, step_on fetched, ran]
    rfl
  · have inside := kept other
    unfold conclude
    split
    · exact inside
    · exact RegFile.inSync_entered _ _ _

/-- The interpreter panics exactly on the instructions that are made to. -/
theorem next_step_eq_none_iff {m : RegFile × σ} (sync : m.1.InSync) :
    next answer m .step = none ↔
      ∃ inst, Fetches answer m inst ∧ (inst.crash? m.1.status).isSome := by
  constructor
  · intro none
    by_contra quiet
    obtain ⟨m', _, some, _⟩ := step_calm answers sync fun inst fetches => by
      by_contra crashes
      exact quiet ⟨inst, fetches, Option.isSome_iff_ne_none.mpr crashes⟩
    rw [none] at some
    cases some
  · rintro ⟨inst, ⟨mem, fetched⟩, crashes⟩
    obtain ⟨message, crash⟩ := Option.isSome_iff_exists.mp crashes
    rw [next, CpuM.on, step_on fetched, CpuM.aligned, execute_crash crash]
    rfl

end runs

/-- A memory that holds one word everywhere. -/
def holding (word : U32) (op : MemOp) (_ : Unit) : Outcome Empty Unit op.Answer :=
  match op with
  | .r8 _ | .r16 _ | .x16 _ => .ok () 0
  | .r32 _ | .x32 _ => .ok () word
  | .w8 _ _ | .w16 _ _ | .w32 _ _ => .ok () ()

theorem returns_holding (word : U32) (op : MemOp) (mem : Unit) : (holding word op mem).Returns := by
  cases op <;> exact ⟨_, _, rfl⟩

/-- A program in user mode. -/
def atUser : RegFile := { reg := fun slot => if slot = cpsr then 0x10 else 0x100, bank := 0 }

theorem inSync_atUser : atUser.InSync := ⟨.user, rfl, rfl⟩

/-- `MOV R0, R0, LSL PC`. -/
theorem next_step_eq_none_shift : next (holding 0xe1a00f10) (atUser, ()) .step = none :=
  (next_step_eq_none_iff (returns_holding _) inSync_atUser).mpr ⟨.arm 0xe1a00f10, ⟨(), rfl⟩, by decide⟩

section runs

variable {σ : Type} {answer : (op : MemOp) → σ → Outcome Empty σ op.Answer}

/-- What a run may not do if it is to go on and stay in sync. -/
def Tame (answer : (op : MemOp) → σ → Outcome Empty σ op.Answer) (m : RegFile × σ) : Event σ → Prop
  | .step => ∀ inst, Fetches answer m inst → inst.crash? m.1.status = none ∧
      (inst.savesControl m.1.status → m.1.mode? ≠ some .system)
  | .exception exc => ¬ exc.Overflows m.1
  | .memory _ => True

variable (answers : ∀ op mem, (answer op mem).Returns)
include answers

theorem next_tame {m : RegFile × σ} {e : Event σ} (sync : m.1.InSync) (tame : Tame answer m e) :
    ∃ m', next answer m e = some m' ∧ m'.1.InSync := by
  cases e with
  | step =>
    obtain ⟨m', inst, taken, fetches, kept⟩ := step_calm answers sync fun inst fetches =>
      (tame inst fetches).1
    exact ⟨m', taken, kept (tame inst fetches).2⟩
  | exception exc =>
    refine ⟨(if exc.masked m.1.status then m.1 else m.1.entered exc (exc.newLr m.1), m.2), ?_, ?_⟩
    · rw [next, CpuM.on, exception_done tame]
      rfl
    · dsimp only
      split
      · exact sync
      · exact RegFile.inSync_entered _ _ _
  | memory change => exact ⟨_, rfl, sync⟩

/-- A run of such events goes on to its end, and the register file is in sync throughout. -/
theorem run_tame {m : RegFile × σ} {es : List (Event σ)} (sync : m.1.InSync)
    (tame : BeforeEach (next answer) (Tame answer) m es) :
    (run (next answer) m es).isSome ∧ Always (next answer) (fun m => m.1.InSync) m es := by
  induction es generalizing m with
  | nil => exact ⟨rfl, sync⟩
  | cons e es ih =>
    obtain ⟨m', taken, kept⟩ := next_tame answers sync tame.1
    obtain ⟨ends, always⟩ := ih kept (tame.2 m' taken)
    refine ⟨?_, sync, fun m'' same => ?_⟩
    · rw [Runs.run, taken]
      exact ends
    · cases taken.symm.trans same
      exact always

end runs

/-- From power-on, `MSR CPSR_c, #16` goes to user mode, and an interrupt is taken there. -/
theorem run_tame_interrupt : ∃ s, newCpu = .ok s ∧
    (run (next (holding 0xe321f010)) (s, ()) [.step, .exception .interrupt]).isSome := by
  refine ⟨_, rfl, ?_⟩
  refine (run_tame (returns_holding 0xe321f010) ⟨.supervisor, rfl, rfl⟩ ?_).1
  refine ⟨?_, fun m' taken => ⟨?_, fun _ _ => trivial⟩⟩
  · rintro inst ⟨mem, fetched⟩
    cases fetched
    exact ⟨rfl, fun saves => absurd saves (by decide)⟩
  · cases taken
    exact fun overflows => absurd overflows.2.2 (by decide)

end Clicky.Armv4t
