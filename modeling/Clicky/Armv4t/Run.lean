import Clicky.Armv4t.Effect
import Clicky.Lib.Runs

/-! Runs of the interpreter: its steps, the exceptions that are raised between them, and what else
happens to the memory meanwhile. -/
namespace Clicky.Armv4t
open CpuM Dialogue

/-! ### The entry of an exception -/

/-- The register file after the entry. -/
def RegFile.entered (s : RegFile) (exc : Exception) (newLr : U32) : RegFile :=
  let bank := exc.modeOnEntry.regBank
  { (((s.store (regMap bank .lr) newLr).store (regMap bank .spsr) s.status).store 15
      exc.address).store cpsr (entryStatus exc s.status) with bank }

theorem fromBits_entryStatus (exc : Exception) (status : U32) :
    Mode.fromBits (modeBits (entryStatus exc status)) = some exc.modeOnEntry := by
  have mode : modeBits (entryStatus exc status) =
      modeBits (exc.modeOnEntry.bits.setWidth 32 ||| bitAt exc.fiqDisable 6 ||| bitAt true 7) :=
    BitVec.or_and_of_disjoint (z := 0xf0000000) (by rw [BitVec.and_assoc]; rfl) rfl _
  rw [mode]
  cases exc <;> rfl

theorem fileSet_of_ne (s : RegFile) (bank : Fin 6) {r : Register} (other : r ≠ .cpsr) (val : U32) :
    fileSet bank r val s = .done ((), s.store (regMap bank r) val) := by
  simp only [fileSet, RegFile.set_of_ne s bank other]

theorem fileSet_cpsr_of_named (s : RegFile) (bank : Fin 6) {val : U32} {mode : Mode}
    (named : Mode.fromBits (modeBits val) = some mode) :
    fileSet bank .cpsr val s = .done ((), { s.store cpsr val with bank := mode.regBank }) := by
  simp only [fileSet, RegFile.set_cpsr_of_named s bank named]

theorem enter_run {exc : Exception} {s : RegFile} {newLr : U32}
    (returns : returnAddress exc (s.reg 15) s = .done (newLr, s)) :
    enter exc s = .done ((), s.entered exc newLr) := by
  change (returnAddress exc (s.reg 15) s >>= fun p => _) = _
  rw [returns, done_bind]
  change (fileSet _ .lr newLr s >>= fun p => (fileSet _ .spsr s.status p.2 >>= fun q =>
    (fileSet 0 .pc _ q.2 >>= fun r => fileSet 0 .cpsr (entryStatus exc s.status) r.2))) = _
  rw [fileSet_of_ne s _ (by decide), done_bind, fileSet_of_ne _ _ (by decide), done_bind,
    fileSet_of_ne _ _ (by decide), done_bind, fileSet_cpsr_of_named _ _ (fromBits_entryStatus exc _)]
  rfl

/-- An exception that is not an interrupt is always entered. -/
theorem exception_run {exc : Exception} (inner : exc ≠ .interrupt ∧ exc ≠ .fastInterrupt)
    (s : RegFile) : exception exc s = .done ((), s.entered exc (s.reg 15)) := by
  have entered : exception exc s = enter exc s := by
    cases exc <;> simp_all [exception]
  rw [entered]
  apply enter_run
  cases exc <;> simp_all [returnAddress]

theorem RegFile.status_entered (s : RegFile) (exc : Exception) (newLr : U32) :
    (s.entered exc newLr).status = entryStatus exc s.status := by
  simp [entered, status, store]

theorem RegFile.inSync_entered (s : RegFile) (exc : Exception) (newLr : U32) :
    (s.entered exc newLr).InSync := by
  refine ⟨exc.modeOnEntry, ?_, rfl⟩
  rw [mode?, status_entered, fromBits_entryStatus]

/-! ### The fetch, and what follows it -/

/-- The instruction that a step finds at the program counter. -/
inductive Fetched where
  | arm (inst : U32)
  | thumb (inst : U16)
  deriving DecidableEq, Repr

namespace Fetched

def execute (pc : U32) : Fetched → CpuM Bool
  | .arm inst => Arm.execute inst pc
  | .thumb inst => Thumb.execute inst pc

/-- The panic that the instruction raises by itself, if it is executed. -/
def crash? (cpsr : U32) : Fetched → Option String
  | .arm inst =>
    if condMet (inst.extractLsb' 28 4) cpsr then Arm.crash? (Arm.Instruction.decode inst) inst
    else none
  | .thumb _ => none

/-- An executed `MSR` to the control bits of the saved status. -/
def savesControl (cpsr : U32) : Fetched → Bool
  | .arm inst =>
    condMet (inst.extractLsb' 28 4) cpsr && Arm.savesControl (Arm.Instruction.decode inst) inst
  | .thumb _ => false

end Fetched

def fetch (s : RegFile) : MemM Fetched :=
  if s.status.getBit flagT then .ask (.r16 (s.index .pc)) fun inst => .done (.thumb inst)
  else alignmentWrapper.r32Aligned (s.index .pc) >>= fun inst => .done (.arm inst)

/-- What a step leaves, depending on whether there was an instruction. -/
def conclude (p : Bool × RegFile) : Bool × RegFile :=
  if p.1 then p else (false, p.2.entered .undefined (p.2.reg 15))

theorem step_eq (s : RegFile) :
    step s = fetch s >>= fun inst => (inst.execute (s.index .pc)).aligned s >>= fun p =>
      .done (conclude p) := by
  have finish (p : Bool × RegFile) : (when (!p.1) (exception .undefined) >>= fun _ => pure p.1 : CpuM Bool)
      p.2 = .done (conclude p) := by
    rcases p with ⟨ok | ok, s'⟩
    · change (exception .undefined s' >>= fun q => _) = _
      rw [exception_run (by decide), done_bind]
      rfl
    · rfl
  have steps : step s = (if !s.status.getBit flagT then executeArm.aligned else executeThumb.aligned :
      CpuM Bool) s >>= fun p => .done (conclude p) := by
    rw [← RegFile.index_cpsr]
    exact congrArg _ (funext finish)
  rw [steps, fetch]
  cases s.status.getBit flagT with
  | true => rfl
  | false =>
    change (alignmentWrapper (.x32 (s.index .pc)) >>= fun inst => _) >>= _ = _
    rw [bind_bind]
    rfl

/-- What an instruction leaves: what its writes keep, or the entry of a software interrupt. -/
def Ends (I : RegFile → Prop) (p : Bool × RegFile) : Prop :=
  I p.2 ∨ p.1 = true ∧ ∃ mid, I mid ∧ p.2 = mid.entered .software (mid.reg 15)

section all

variable {fails : String → Prop} {I : RegFile → Prop}

theorem all_softwareInt {s : RegFile} (inside : I s) :
    ((do exception .software; return true : CpuM Bool) s).All MemOp.IsData fails (Ends I) := by
  change (exception .software s >>= fun p => _).All MemOp.IsData fails _
  rw [exception_run (by decide), done_bind]
  exact .inr ⟨rfl, s, inside, rfl⟩

theorem all_execute (closed : Closed fails I) (inst : Fetched) {s : RegFile} (inside : I s)
    (crashes : ∀ m, inst.crash? s.status = some m → fails m)
    (saves : inst.savesControl s.status →
      ∀ t val, I t → t.mode? ≠ some .user → I (t.setIndex .spsr val)) :
    (inst.execute (s.index .pc) s).All MemOp.IsData fails (Ends I) := by
  have ends {d : MemM (Bool × RegFile)} (all : d.All MemOp.IsData fails fun p => I p.2) :
      d.All MemOp.IsData fails (Ends I) := all.mono (fun _ h => h) (fun _ h => h) fun _ h => .inl h
  cases inst with
  | arm inst =>
    let s' := s.setIndex .pc (s.index .pc + 4)
    have moved : I s' := closed.move inside (.general s .pc _ (by decide))
    change ((if !condMet (inst.extractLsb' 28 4) (s.index .cpsr) then pure true
      else Arm.perform (Arm.Instruction.decode inst) inst (s.index .pc) (s.index .cpsr) : CpuM Bool)
        s').All MemOp.IsData fails _
    rw [RegFile.index_cpsr]
    cases met : condMet (inst.extractLsb' 28 4) s.status with
    | false => exact .inl moved
    | true =>
      by_cases software : Arm.Instruction.decode inst = .softwareInt
      · rw [software]
        exact all_softwareInt moved
      · refine ends (Arm.keeps_perform closed _ _ (Arm.Instruction.decode_fits inst) software
          (fun m panics => crashes m ?_) (fun control => saves ?_) s' moved)
        · rw [Fetched.crash?, if_pos met, panics]
        · rw [Fetched.savesControl, met, control]
          rfl
  | thumb inst =>
    let s' := s.setIndex .pc (s.index .pc + 2)
    have moved : I s' := closed.move inside (.general s .pc _ (by decide))
    have status : s'.status = s.status := s.status_setIndex (by decide) _
    change (Thumb.perform (Thumb.Instruction.decode inst) inst (s.index .pc) (s.index .cpsr)
      s').All MemOp.IsData fails _
    rw [RegFile.index_cpsr, ← status]
    by_cases software : Thumb.Instruction.decode inst = .softwareInt
    · rw [software]
      exact all_softwareInt moved
    · exact ends (Thumb.keeps_perform closed inst _ software moved)

end all

/-! ### The memory a step asks for -/

/-- What reaches the memory: no instruction fetch as such, words at multiples of 4, and halfwords at
even addresses, or at the program counter itself. -/
def MemOp.IsBusAccess (pc : U32) : MemOp → Prop
  | .r8 _ | .w8 _ _ => True
  | .r16 addr => addr.getBit 0 = false ∨ addr = pc
  | .w16 addr _ => addr.getBit 0 = false
  | .r32 addr | .w32 addr _ => addr &&& 3 = 0
  | .x16 _ | .x32 _ => False

theorem aligned_addr (addr : U32) : (addr &&& ~~~3) &&& 3 = 0 := by
  rw [BitVec.and_assoc]
  exact BitVec.and_zero

theorem all_alignmentWrapper {fails : String → Prop} (pc : U32) {op : MemOp} (data : op.IsData) :
    (alignmentWrapper op).All (MemOp.IsBusAccess pc) fails fun _ => True := by
  cases op with
  | r16 addr => exact ⟨.inl data, fun _ => trivial⟩
  | w16 addr val => exact ⟨data, fun _ => trivial⟩
  | r32 addr => exact ⟨aligned_addr addr, fun _ => trivial⟩
  | w32 addr val => exact ⟨aligned_addr addr, fun _ => trivial⟩
  | x16 addr => exact data.elim
  | x32 addr => exact data.elim
  | r8 addr => exact ⟨trivial, fun _ => trivial⟩
  | w8 addr val => exact ⟨trivial, fun _ => trivial⟩

theorem all_fetch (fails : String → Prop) (s : RegFile) :
    (fetch s).All (MemOp.IsBusAccess (s.index .pc)) fails fun _ => True := by
  unfold fetch
  split
  · exact ⟨.inr rfl, fun _ => trivial⟩
  · exact ⟨aligned_addr _, fun _ => trivial⟩

section step

variable {fails : String → Prop} {I : RegFile → Prop} {s : RegFile}

/-- One step, from what every instruction it may fetch keeps. -/
theorem all_step (closed : Closed fails I) (inside : I s)
    (crashes : ∀ inst m, Fetched.crash? s.status inst = some m → fails m)
    (saves : ∀ t val, I t → t.mode? ≠ some .user → I (t.setIndex .spsr val)) :
    (step s).All (MemOp.IsBusAccess (s.index .pc)) fails fun p =>
      ∃ q, Ends I q ∧ p = conclude q := by
  rw [step_eq, all_bind]
  refine (all_fetch fails s).mono (fun _ h => h) (fun _ h => h) fun inst _ => ?_
  rw [all_bind]
  have all := all_execute closed inst inside (crashes inst) fun _ => saves
  exact (all.interpret fun op data => all_alignmentWrapper _ data).mono (fun _ h => h) (fun _ h => h)
    fun q ends => ⟨q, ends, rfl⟩

theorem closed_true : Closed (fun _ => True) fun _ => True where
  move _ _ := trivial
  moded _ _ := trivial
  sets _ _ := trivial

/-- Whatever it executes, and whatever the memory answers, a step never uses the instruction interface
of the memory, and the only misaligned access it can make is the fetch of a halfword from an odd
address. -/
theorem step_busAccess (s : RegFile) :
    (step s).All (MemOp.IsBusAccess (s.index .pc)) (fun _ => True) fun _ => True :=
  (all_step closed_true trivial (fun _ _ _ => trivial) fun _ _ _ _ => trivial).mono (fun _ h => h)
    (fun _ h => h) fun _ _ => trivial

end step

/-! ### Runs -/

/-- What happens to a core and its memory. -/
inductive Event (σ : Type) where
  | step
  | exception (exc : Exception)
  /-- What others do to the memory. -/
  | memory (change : σ → σ)

section next

variable {σ : Type} (answer : (op : MemOp) → σ → Outcome Empty σ op.Answer)

/-- A part of the interpreter, on a memory. There is no next state if it panics. -/
def CpuM.on {α : Type} (prog : CpuM α) (m : RegFile × σ) : Option (RegFile × σ) :=
  match (prog m.1).run answer m.2 with
  | .ok mem p => some (p.2, mem)
  | .raise _ never => never.elim
  | .panic _ => none

def next (m : RegFile × σ) : Event σ → Option (RegFile × σ)
  | .step => step.on answer m
  | .exception exc => (exception exc).on answer m
  | .memory change => some (m.1, change m.2)

/-- The instruction that a step from here finds. -/
def Fetches (m : RegFile × σ) (inst : Fetched) : Prop :=
  ∃ mem, (fetch m.1).run answer m.2 = .ok mem inst

variable {answer} {α : Type}

theorem CpuM.on_eq_some {prog : CpuM α} {m m' : RegFile × σ} :
    prog.on answer m = some m' ↔ ∃ a, (prog m.1).run answer m.2 = .ok m'.2 (a, m'.1) := by
  unfold CpuM.on
  rcases (prog m.1).run answer m.2 with ⟨mem, never | ⟨a, s⟩⟩ | message
  · exact never.elim
  · constructor
    · intro same
      cases same
      exact ⟨a, rfl⟩
    · rintro ⟨b, same⟩
      cases same
      rfl
  · simp

/-- What holds for all answers holds for those of a memory. -/
theorem CpuM.on_all {asks : MemOp → Prop} {fails : String → Prop} {P : α × RegFile → Prop}
    {prog : CpuM α} {m m' : RegFile × σ} (all : (prog m.1).All asks fails P)
    (after : prog.on answer m = some m') : ∃ a, P (a, m'.1) := by
  obtain ⟨a, ran⟩ := CpuM.on_eq_some.mp after
  exact ⟨a, all.yields (yields_of_run ran)⟩

end next

/-! ### Exceptions -/

namespace Exception

def isInterrupt : Exception → Bool
  | .interrupt | .fastInterrupt => true
  | _ => false

/-- Whether the status disables the exception. -/
def masked (exc : Exception) (status : U32) : Bool :=
  match exc with
  | .interrupt => status.getBit 7
  | .fastInterrupt => status.getBit 6
  | _ => false

/-- An interrupt that is taken where the return address does not fit a word. -/
def Overflows (exc : Exception) (s : RegFile) : Prop :=
  exc.isInterrupt ∧ exc.masked s.status = false ∧ 2 ^ 32 ≤ (s.reg 15).toNat + 4

/-- What is kept of the program counter, where it fits a word. -/
def newLr (exc : Exception) (s : RegFile) : U32 :=
  if exc.isInterrupt then s.reg 15 + 4 else s.reg 15

end Exception

theorem returnAddress_run (exc : Exception) (s : RegFile) :
    returnAddress exc (s.reg 15) s =
      if exc.isInterrupt ∧ 2 ^ 32 ≤ (s.reg 15).toNat + 4 then .panic overflow
      else .done (exc.newLr s, s) := by
  cases interrupt : exc.isInterrupt with
  | true =>
    have shape : returnAddress exc (s.reg 15) =
        if 2 ^ 32 ≤ (s.reg 15).toNat + 4 then crash overflow else pure (s.reg 15 + 4) := by
      cases exc <;> first | rfl | cases interrupt
    rw [shape, Exception.newLr, interrupt]
    by_cases high : 2 ^ 32 ≤ (s.reg 15).toNat + 4
    · rw [if_pos high, if_pos ⟨rfl, high⟩]
      rfl
    · rw [if_neg high, if_neg fun both => high both.2]
      rfl
  | false =>
    have shape : returnAddress exc (s.reg 15) = pure (s.reg 15) := by
      cases exc <;> first | rfl | cases interrupt
    rw [shape, Exception.newLr, interrupt]
    rfl

theorem exception_eq (exc : Exception) (s : RegFile) :
    exception exc s = if exc.masked s.status then .done ((), s) else enter exc s := by
  cases exc with
  | interrupt =>
    change when (!(s.get 0 .cpsr).getBit 7) (enter .interrupt) s = _
    rw [RegFile.get_cpsr]
    cases masked : s.status.getBit 7 <;> simp only [when, Exception.masked, masked] <;> rfl
  | fastInterrupt =>
    change when (!(s.get 0 .cpsr).getBit 6) (enter .fastInterrupt) s = _
    rw [RegFile.get_cpsr]
    cases masked : s.status.getBit 6 <;> simp only [when, Exception.masked, masked] <;> rfl
  | _ => rfl

theorem exception_overflows {exc : Exception} {s : RegFile} (overflows : exc.Overflows s) :
    exception exc s = .panic overflow := by
  obtain ⟨interrupt, unmasked, high⟩ := overflows
  rw [exception_eq, unmasked]
  change (returnAddress exc (s.reg 15) s >>= fun p => _) = _
  rw [returnAddress_run, if_pos ⟨interrupt, high⟩]
  rfl

theorem exception_done {exc : Exception} {s : RegFile} (fits : ¬ exc.Overflows s) :
    exception exc s =
      .done ((), if exc.masked s.status then s else s.entered exc (exc.newLr s)) := by
  rw [exception_eq]
  cases masked : exc.masked s.status with
  | true => rfl
  | false =>
    refine enter_run ?_
    rw [returnAddress_run, if_neg]
    rintro ⟨interrupt, high⟩
    exact fits ⟨interrupt, masked, high⟩

end Clicky.Armv4t
