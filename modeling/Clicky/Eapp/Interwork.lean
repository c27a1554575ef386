import Clicky.Eapp.Machine

/-! The jumps that the emulator makes on behalf of a game, against the rule for jumps between ARM
and Thumb code: bit 0 of the target selects the instruction set. -/
namespace Clicky
namespace Cpu

/-- The processor is at the target, in the instruction set that the target selects. -/
structure AtTarget (c : Cpu) (target : U32) : Prop where
  pc : c.get .pc = target &&& ~~~(1 : U32)
  state : c.thumbMode = target.getBit 0

/-- A function has returned through the link register, with a result. -/
structure ReturnedWith (c c' : Cpu) (ret : U32) : Prop where
  result : c'.get .r0 = ret
  back : c'.AtTarget (c.get .lr)
  kept : ∀ r : Reg, r ≠ .r0 → r ≠ .pc → c'.get r = c.get r
  mode : c'.mode = c.mode

end Cpu

theorem and_not_one_eq_iff (x : U32) : x &&& ~~~(1 : U32) = x ↔ x.getBit 0 = false := by
  have mask (i : Nat) : (1 : U32).getLsbD i = decide (i = 0) := by
    change (1#32).getLsbD i = _
    rw [BitVec.getLsbD_one]
    cases i <;> simp
  constructor
  · intro same
    rw [← same, BitVec.getBit, BitVec.getLsbD_and, BitVec.getLsbD_not, mask]
    simp
  · intro even
    apply BitVec.eq_of_getLsbD_eq
    intro i inside
    rw [BitVec.getLsbD_and, BitVec.getLsbD_not, mask]
    cases i with
    | zero => simpa [BitVec.getBit] using even
    | succ i => simp [inside]

/-- The emulator returns from an import, or enters the first pending callback. -/
inductive Transfer (ρ : Type) where
  | importReturn (handler : ImportHandler ρ) (called : BoundImport)
  | callback

namespace Eapp

variable {ρ : Type}

def Obeys (s : Eapp ρ) : Transfer ρ → Prop
  | .importReturn handler called => s.cpu.ReturnedWith (s.handleImport handler called).cpu
      (s.callHandler handler called).2
  | .callback => ∀ call calls, s.state.pendingGuestCalls = call :: calls →
      s.dispatchPendingGuestCall.2.cpu.AtTarget call.pc

/-- The game is in the instruction set that the target selects, and the address of a callback
needs no bit cleared. -/
def InState (s : Eapp ρ) : Transfer ρ → Prop
  | .importReturn _ _ => s.cpu.thumbMode = (s.cpu.get .lr).getBit 0
  | .callback => ∀ call calls, s.state.pendingGuestCalls = call :: calls →
      s.cpu.thumbMode = false ∧ call.pc.getBit 0 = false

theorem importReturn_iff (handler : ImportHandler ρ) (s : Eapp ρ) (called : BoundImport) :
    s.Obeys (.importReturn handler called) ↔ s.InState (.importReturn handler called) := by
  have not_pc : Reg.r0 ≠ .pc := by decide
  constructor
  · intro returned
    have state := returned.back.state
    rw [handleImport, Cpu.thumbMode_set, Cpu.thumbMode_set] at state
    exact state
  · intro state
    refine ⟨?_, ⟨?_, ?_⟩, fun r other elsewhere => ?_, ?_⟩
    · rw [handleImport, Cpu.get_set, if_neg not_pc, Cpu.get_set, if_pos rfl]
    · rw [handleImport, Cpu.get_set, if_pos rfl]
    · rw [handleImport, Cpu.thumbMode_set, Cpu.thumbMode_set]
      exact state
    · rw [handleImport, Cpu.get_set, if_neg elsewhere, Cpu.get_set, if_neg other]
    · rw [handleImport, Cpu.mode_set, Cpu.mode_set]

theorem callback_iff (s : Eapp ρ) : s.Obeys .callback ↔ s.InState .callback := by
  refine forall_congr' fun call => forall_congr' fun calls => ?_
  refine imp_congr_right fun queue => ?_
  have entered : s.dispatchPendingGuestCall.2.cpu =
      s.cpu.call call.arg0 call.arg1 guestCallbackReturnPc call.pc := by
    rw [dispatchPendingGuestCall, queue]
  rw [entered]
  constructor
  · rintro ⟨pc, state⟩
    rw [Cpu.call_pc] at pc
    rw [Cpu.call_thumbMode] at state
    have even := (and_not_one_eq_iff call.pc).mp pc.symm
    exact ⟨state.trans even, even⟩
  · rintro ⟨arm, even⟩
    refine ⟨?_, ?_⟩
    · rw [Cpu.call_pc]
      exact ((and_not_one_eq_iff call.pc).mpr even).symm
    · rw [Cpu.call_thumbMode, arm, even]

/-- A jump obeys the rule exactly when there is no change of instruction set in it, and no bit to
clear in the address of a callback. -/
theorem obeys_iff (s : Eapp ρ) (t : Transfer ρ) : s.Obeys t ↔ s.InState t := by
  cases t with
  | importReturn handler called => exact importReturn_iff handler s called
  | callback => exact callback_iff s

/-- A game in ARM state that was called from Thumb code, with a Thumb callback pending. -/
def thumbCaller : Eapp Unit :=
  let s := start 0x18000100 0x18000200 false ()
  { cpu := s.cpu.set .lr 0x18000401
    state := { s.state with pendingGuestCalls := [{ pc := 0x18000801, arg0 := 0, arg1 := 0 }] } }

theorem thumb_target_entered_as_arm :
    ¬ thumbCaller.Obeys (.importReturn (fun _ _ _ _ state => (state, 0))
        { moduleName := "Metadata", ordinal := 0 }) ∧
      ¬ thumbCaller.Obeys .callback := by
  constructor
  · rw [importReturn_iff]
    intro state
    have arm : thumbCaller.cpu.thumbMode = false := by
      rw [thumbCaller, Cpu.thumbMode_set, Cpu.thumbMode, start_status]
      decide
    have thumb : (thumbCaller.cpu.get .lr).getBit 0 = true := by
      rw [thumbCaller, Cpu.get_set, if_pos rfl]
      decide
    rw [InState, arm, thumb] at state
    cases state
  · rw [callback_iff]
    intro state
    exact absurd (state _ _ rfl).2 (by decide)

end Eapp
end Clicky
