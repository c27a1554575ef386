import Clicky.Armv4t.Sync

/-! What a program in user mode cannot do: reach the registers and the control bits of the other
modes, or leave its mode by any way but an exception. -/
namespace Clicky.Armv4t
open CpuM Dialogue Runs BitVec

/-- A file that a program in user mode may have made of `s₀`: the banked registers of the other modes
are as they were, and so is the status, but for the flags and the instruction set. -/
structure Confined (s₀ s : RegFile) : Prop where
  mode : s.mode? = some .user
  bank : s.bank = 0
  banked : ∀ slot : Fin 37, 16 < slot → s.reg slot = s₀.reg slot
  control : AgreeOutside stateMask s.status s₀.status

namespace Confined

variable {s₀ s s' : RegFile}

theorem refl (user : s₀.mode? = some .user) (sync : s₀.InSync) : Confined s₀ s₀ where
  mode := user
  bank := by
    obtain ⟨mode, named, placed⟩ := sync
    cases named.symm.trans user
    exact placed
  banked _ _ := rfl
  control := rfl

theorem inSync (confined : Confined s₀ s) : s.InSync := ⟨.user, confined.mode, confined.bank⟩

theorem store (confined : Confined s₀ s) {slot : Fin 37} (low : slot < 16) (val : U32) :
    Confined s₀ (s.store slot val) := by
  have status : (s.store slot val).status = s.status :=
    RegFile.store_reg_of_ne s (by rintro rfl; exact absurd low (by decide)) val
  refine ⟨?_, confined.bank, fun slot' high => ?_, ?_⟩
  · rw [RegFile.mode?, status]
    exact confined.mode
  · have apart : slot' ≠ slot := by
      rintro rfl
      exact Nat.lt_irrefl _ (Nat.lt_trans low high)
    rw [RegFile.store_reg_of_ne s apart, confined.banked slot' high]
  · rw [status]
    exact confined.control

theorem store_cpsr (confined : Confined s₀ s) {val : U32} (agree : AgreeOutside stateMask val s.status) :
    Confined s₀ (s.store cpsr val) := by
  have status : (s.store cpsr val).status = val := RegFile.store_reg_self s cpsr val
  refine ⟨?_, confined.bank, fun slot high => ?_, ?_⟩
  · rw [RegFile.mode?, status, modeBits_of_agree agree rfl]
    exact confined.mode
  · have apart : slot ≠ cpsr := by
      rintro rfl
      exact absurd high (by decide)
    rw [RegFile.store_reg_of_ne s apart, confined.banked slot high]
  · rw [status]
    exact agree.trans confined.control

theorem regMap_user {r : Register} (general : r.val < 16) : regMap 0 r < 16 := by
  revert r
  decide

theorem setIndex (confined : Confined s₀ s) {r : Register} (general : r.val < 16) (val : U32) :
    Confined s₀ (s.setIndex r val) := by
  rw [RegFile.setIndex, confined.bank]
  exact confined.store (regMap_user general) val

/-- A status that names user mode is written as it is, and the bank stays. -/
theorem set_cpsr (confined : Confined s₀ s) {bank : Fin 6} {val : U32}
    (agree : AgreeOutside stateMask val s.status) (ok : s.set bank .cpsr val = .ok s') :
    Confined s₀ s' := by
  have named : Mode.fromBits (modeBits val) = some .user := by
    rw [modeBits_of_agree agree rfl]
    exact confined.mode
  rw [RegFile.set_cpsr_of_named s bank named] at ok
  cases ok
  have stored := confined.store_cpsr agree
  exact ⟨stored.mode, rfl, stored.banked, stored.control⟩

theorem move (confined : Confined s₀ s) (write : Move s s') : Confined s₀ s' := by
  have saved : s.index .spsr = s.status := by rw [RegFile.index, confined.bank, regMap_user_spsr]
  cases write with
  | general r val range => exact confined.setIndex range val
  | user r val range => exact confined.store (regMap_user range) val
  | flags val agree => exact confined.store_cpsr agree
  | restore _ bank ok =>
    rw [saved] at ok
    exact confined.set_cpsr rfl ok
  | status _ bank val ok unprivileged =>
    exact confined.set_cpsr ((unprivileged confined.mode).mono rfl) ok
  | savedFlags val agree =>
    rw [saved] at agree
    rw [RegFile.setIndex, confined.bank, regMap_user_spsr]
    exact confined.store_cpsr (agree.mono rfl)

theorem closed (fails : String → Prop) (s₀ : RegFile) : Closed fails (Confined s₀) where
  move := Confined.move
  moded confined := (RegFile.InSync.closed fails).moded confined.inSync
  sets confined := (RegFile.InSync.closed fails).sets confined.inSync

end Confined

/-- The file at the entry of an exception that a confined program ran into. -/
def Trapped (s₀ s : RegFile) : Prop :=
  ∃ last exc, Confined s₀ last ∧ exc.masked last.status = false ∧ s = last.entered exc (exc.newLr last)

section runs

variable {σ : Type} {answer : (op : MemOp) → σ → Outcome Empty σ op.Answer} {s₀ : RegFile}

theorem next_confined {m m' : RegFile × σ} {e : Event σ} (confined : Confined s₀ m.1)
    (taken : next answer m e = some m') : Confined s₀ m'.1 ∨ Trapped s₀ m'.1 := by
  cases e with
  | memory change =>
    cases taken
    exact .inl confined
  | exception exc =>
    by_cases overflows : exc.Overflows m.1
    · rw [next, CpuM.on, exception_overflows overflows] at taken
      cases taken
    · rw [next, CpuM.on, exception_done overflows] at taken
      cases taken
      cases masked : exc.masked m.1.status with
      | true => exact .inl confined
      | false => exact .inr ⟨m.1, exc, confined, masked, rfl⟩
  | step =>
    have all := all_step (Confined.closed (fun _ => True) s₀) confined (fun _ _ _ => trivial)
      fun t val inside privileged => absurd inside.mode privileged
    obtain ⟨ok, ⟨found, left⟩, ends, same⟩ := CpuM.on_all all taken
    have concluded : m'.1 = (conclude (found, left)).2 := congrArg Prod.snd same
    rw [concluded]
    obtain inside | ⟨rfl, mid, inside, rfl⟩ := ends
    · cases found with
      | true => exact .inl inside
      | false => exact .inr ⟨left, .undefined, inside, rfl, rfl⟩
    · exact .inr ⟨mid, .software, inside, rfl, rfl⟩

/-- A program in user mode stays confined until an exception is entered from it. -/
theorem run_confined {m : RegFile × σ} (user : s₀.mode? = some .user) (sync : s₀.InSync) {mem : σ}
    {es : List (Event σ)} (reached : Runs.run (next answer) (s₀, mem) es = some m) :
    Confined s₀ m.1 ∨ ∃ before e after mid trapped, es = before ++ e :: after ∧
      Runs.run (next answer) (s₀, mem) before = some mid ∧ Confined s₀ mid.1 ∧
      next answer mid e = some trapped ∧ Trapped s₀ trapped.1 :=
  run_or_exit (I := fun m => Confined s₀ m.1) (X := fun _ _ m => Trapped s₀ m.1)
    (fun _ _ _ => next_confined) (Confined.refl user sync) reached

end runs

/-- `SWI 0`. -/
theorem run_confined_software : ∃ before e after mid trapped, [.step] = before ++ e :: after ∧
    Runs.run (next (holding 0xef000000)) (atUser, ()) before = some mid ∧ Confined atUser mid.1 ∧
    next (holding 0xef000000) mid e = some trapped ∧ Trapped atUser trapped.1 := by
  have reached : Runs.run (next (holding 0xef000000)) (atUser, ()) [.step] =
      some ((atUser.setIndex .pc 0x104).entered .software 0x104, ()) := rfl
  refine (run_confined rfl inSync_atUser reached).resolve_left fun confined => ?_
  exact absurd confined.mode (by decide)

end Clicky.Armv4t
