import Clicky.Eide
import Clicky.Lib.Runs

/-! The interrupt latch of the EIDE controller, which samples the line of the drives. -/
namespace Clicky
open Runs

def IdeController.pulse {β : Type} (s : IdeController β) (idx : IdeIdx) : IdeController β :=
  match s.unit? idx with
  | none => s
  | some u => { s with commonIrqLine := (s.lend u).pulseIrq.irq }

namespace EIDECon

inductive LatchEvent where
  | pulse (idx : IdeIdx)
  | readStatus
  | readAltStatus
  | writeCfg (val : U32)
  | poll
  deriving DecidableEq, Repr

/-- The controller, and whether a drive has pulsed its interrupt since the last poll. -/
structure Watched (β : Type) where
  eidecon : EIDECon β
  pulsed : Bool := false

variable {β : Type}

theorem updateIrqLatch_latched (s : EIDECon β) : s.updateIrqLatch.ideIrqLatched =
    (s.ideIrqLatched || (s.ide.irqState .ide0 && !s.ideIrqWasAsserted)) := by
  unfold updateIrqLatch
  generalize s.ide.irqState .ide0 = asserted
  by_cases edge : (asserted && !s.ideIrqWasAsserted) = true
  · simp [edge]
  · cases latched : s.ideIrqLatched <;> simp [edge, latched]

theorem updateIrqLatch_ideIrq (s : EIDECon β) :
    s.updateIrqLatch.ideIrq.asserted = s.updateIrqLatch.ideIrqLatched := by
  unfold updateIrqLatch
  generalize s.ide.irqState .ide0 = asserted
  by_cases edge : (asserted && !s.ideIrqWasAsserted) = true
  · simp [edge]
  · cases latched : s.ideIrqLatched <;> simp [edge, latched]

theorem irqState_ide0 (s : IdeController β) :
    s.irqState .ide0 = ((s.unit? .ide0).isSome && s.commonIrqLine.asserted) := by
  rw [IdeController.irqState, Line.asserted_eq]
  cases s.unit? .ide0 <;> rfl

/-- What is promised of a poll: an interrupt made since the last one, and still there, is
latched and handed on. -/
def NotLost (w : Watched β) : LatchEvent → Prop
  | .poll => w.pulsed = true → w.eidecon.ide.commonIrqLine.asserted = true →
    w.eidecon.updateIrqLatch.ideIrqLatched = true ∧
      w.eidecon.updateIrqLatch.ideIrq.asserted = true
  | _ => True

/-- There is a drive 0, and the line was low when it was last polled; or what it was high for
is still in the latch. -/
def EdgeVisible (w : Watched β) : LatchEvent → Prop
  | .poll => w.pulsed = true → w.eidecon.ide.commonIrqLine.asserted = true →
    (w.eidecon.ide.unit? .ide0).isSome ∧ w.eidecon.ideIrqWasAsserted = false ∨
      w.eidecon.ideIrqLatched = true
  | _ => True

theorem notLost_iff_edgeVisible (w : Watched β) (e : LatchEvent) :
    NotLost w e ↔ EdgeVisible w e := by
  cases e with
  | poll =>
    unfold NotLost EdgeVisible
    apply imp_congr_right
    intro _
    apply imp_congr_right
    intro high
    rw [updateIrqLatch_ideIrq, and_self, updateIrqLatch_latched, irqState_ide0, high]
    simp [or_comm]
  | _ => exact Iff.rfl

variable [BlockDev β]

def Watched.step (w : Watched β) : LatchEvent → Option (Watched β)
  | .pulse idx =>
    some { eidecon := { w.eidecon with ide := w.eidecon.ide.pulse idx }
           pulsed := (w.eidecon.ide.unit? idx).isSome || w.pulsed }
  | .readStatus => (w.eidecon.r32 0x1fc).state?.map fun eidecon => { w with eidecon }
  | .readAltStatus => (w.eidecon.r32 0x3f8).state?.map fun eidecon => { w with eidecon }
  | .writeCfg val => (w.eidecon.w32 0x028 val).state?.map fun eidecon => { w with eidecon }
  | .poll => some { eidecon := w.eidecon.updateIrqLatch }

/-- No poll of a run loses an interrupt exactly when every poll that has one to see finds the
line low at the poll before, or the latch not acknowledged since. -/
theorem latch_keeps_interrupts_iff (s : EIDECon β) (es : List LatchEvent) :
    BeforeEach Watched.step NotLost { eidecon := s } es ↔
      BeforeEach Watched.step EdgeVisible { eidecon := s } es :=
  beforeEach_iff (I := fun _ => True) (fun _ _ _ _ _ => trivial)
    (fun w e _ => notLost_iff_edgeVisible w e) es trivial

def oneDisk : EIDECon Mem :=
  let s : EIDECon Mem := .new (Line.new .hi) (Line.new .hi)
  s.putIde (s.ide.attach .ide0 (Mem.new [])).1

/-- The guest acknowledges the latch alone, the drive interrupts again, and the poll sees no
edge. -/
theorem second_pulse_lost :
    ¬ BeforeEach Watched.step NotLost { eidecon := oneDisk }
      [.pulse .ide0, .poll, .writeCfg 0x8, .pulse .ide0, .poll] := by
  rintro ⟨_, h⟩
  obtain ⟨_, h⟩ := h _ rfl
  obtain ⟨_, h⟩ := h _ rfl
  obtain ⟨_, h⟩ := h _ rfl
  obtain ⟨lost, _⟩ := h _ rfl
  obtain ⟨latched, _⟩ := lost rfl (by decide)
  exact absurd latched (by decide)

end EIDECon
end Clicky
