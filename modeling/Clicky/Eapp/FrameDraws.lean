import Clicky.Eapp.LiveGl
import Clicky.Lib.Runs

/-! Which draws a completed frame reports, over any order of begins, draws, resets and
completions. -/
namespace Clicky
open Runs

/-- The draws since the frame began. Of the list in the state, the part that was there before
that, and the draws of the frame that a reset has taken out of it. -/
structure DrawLedger where
  since : List LiveDrawRecord := []
  carried : List LiveDrawRecord := []
  dropped : List LiveDrawRecord := []

structure LedgeredGl where
  gl : LiveGlState
  ledger : DrawLedger := {}

namespace LedgeredGl

/-- A frame begins. -/
def begun (s : LedgeredGl) : DrawLedger := { carried := s.gl.draws }

def step (s : LedgeredGl) (event : LiveGlEvent) : Option LedgeredGl :=
  some
    { gl := s.gl.apply event
      ledger := match event with
        | .resetForFrame => { since := s.ledger.since, dropped := s.ledger.since }
        | .beginFrame => s.begun
        | .draw draw =>
          let ledger := if s.gl.Begins then s.begun else s.ledger
          { ledger with since := ledger.since ++ draw.records }
        | .refuseDraw | .overlayDma _ | .completeFrame => s.ledger }

/-- A completed frame has exactly the draws since it began. -/
def ReportsOwnDraws (s : LedgeredGl) : LiveGlEvent → Prop
  | .completeFrame => ∀ frame, s.gl.completeFrame.2 = some frame →
      s.gl.draws = s.ledger.since ∧ frame.drawCount = s.ledger.since.length ∧
        frame.handleSignature = s.ledger.since.map LiveDrawRecord.handle
  | _ => True

/-- Nothing was left in the list when the frame began, and no reset came between one of its draws
and its completion. -/
def Undisturbed (s : LedgeredGl) : LiveGlEvent → Prop
  | .completeFrame => s.gl.frameActive = true → s.ledger.carried = [] ∧ s.ledger.dropped = []
  | _ => True

structure Balanced (s : LedgeredGl) : Prop where
  parts : ∃ kept, s.gl.draws = s.ledger.carried ++ kept ∧ s.ledger.since = s.ledger.dropped ++ kept
  apart : s.ledger.carried = [] ∨ s.ledger.dropped = []

theorem Balanced.step {s s' : LedgeredGl} {event : LiveGlEvent} (balanced : s.Balanced)
    (next : s.step event = some s') : s'.Balanced := by
  obtain ⟨⟨kept, draws, since⟩, apart⟩ := balanced
  cases next
  cases event with
  | resetForFrame => exact ⟨⟨[], rfl, (List.append_nil _).symm⟩, .inl rfl⟩
  | beginFrame =>
    refine ⟨⟨[], ?_, rfl⟩, .inr rfl⟩
    exact s.gl.beginFrame_frame.1.trans (List.append_nil _).symm
  | draw draw =>
    have drawn := (s.gl.liveDraw_frame draw).1
    by_cases begins : s.gl.Begins
    · refine ⟨⟨draw.records, ?_, ?_⟩, .inr ?_⟩
      · simp only [if_pos begins]
        exact drawn
      · simp only [if_pos begins]
        rfl
      · simp only [if_pos begins]
        rfl
    · simp only [if_neg begins]
      refine ⟨⟨kept ++ draw.records, ?_, ?_⟩, apart⟩
      · rw [← List.append_assoc, ← draws]
        exact drawn
      · rw [← List.append_assoc, ← since]
  | refuseDraw =>
    refine ⟨⟨kept, ?_, since⟩, apart⟩
    exact ((s.gl.liveFinalizeDraws_frame []).1.trans (List.append_nil _)).trans draws
  | overlayDma rgb565 => exact ⟨⟨kept, (s.gl.overlayDmaRgb565_draws rgb565).trans draws, since⟩, apart⟩
  | completeFrame => exact ⟨⟨kept, s.gl.completeFrame_frame.1.trans draws, since⟩, apart⟩

theorem Balanced.draws_eq_iff {s : LedgeredGl} (balanced : s.Balanced) :
    s.gl.draws = s.ledger.since ↔ s.ledger.carried = [] ∧ s.ledger.dropped = [] := by
  obtain ⟨⟨kept, draws, since⟩, apart⟩ := balanced
  rw [draws, since, List.append_left_inj]
  constructor
  · intro same
    rcases apart with none_carried | none_dropped
    · exact ⟨none_carried, same ▸ none_carried⟩
    · exact ⟨same ▸ none_dropped, none_dropped⟩
  · rintro ⟨none_carried, none_dropped⟩
    rw [none_carried, none_dropped]

theorem Balanced.reports_iff {s : LedgeredGl} (balanced : s.Balanced) (event : LiveGlEvent) :
    s.ReportsOwnDraws event ↔ s.Undisturbed event := by
  cases event with
  | completeFrame =>
    unfold ReportsOwnDraws Undisturbed
    rw [← balanced.draws_eq_iff, ← s.gl.completeFrame_isSome_iff]
    constructor
    · intro reports completed
      obtain ⟨frame, done⟩ := Option.isSome_iff_exists.mp completed
      exact (reports frame done).1
    · intro same frame done
      have own := same (Option.isSome_iff_exists.mpr ⟨frame, done⟩)
      obtain ⟨count, signature⟩ := LiveGlState.completeFrame_reports done
      exact ⟨own, own ▸ count, own ▸ signature⟩
  | resetForFrame | beginFrame | draw | refuseDraw | overlayDma => exact Iff.rfl

/-- Every completed frame of a run reports its own draws exactly when every frame begins with an
empty list and is not reset before it is completed. -/
theorem own_draws_reported_iff (presentVflip gateB continuousCapture : Bool)
    (events : List LiveGlEvent) :
    BeforeEach step ReportsOwnDraws { gl := .new presentVflip gateB continuousCapture } events ↔
      BeforeEach step Undisturbed { gl := .new presentVflip gateB continuousCapture } events :=
  beforeEach_iff (I := Balanced) (fun _ _ _ balanced next => balanced.step next)
    (fun _ event balanced => balanced.reports_iff event) events ⟨⟨[], rfl, rfl⟩, .inl rfl⟩

def oneDraw : LiveDraw := { records := [{ drawIndex := 0, handle := 7 }] }

/-- Two presents of the guest in one of its frames: the second reports the draw of the first. -/
theorem draw_reported_again :
    ¬ BeforeEach step ReportsOwnDraws { gl := .new false false true }
      [.beginFrame, .draw oneDraw, .completeFrame, .beginFrame, .completeFrame] := by
  rintro ⟨_, later⟩
  obtain ⟨_, later⟩ := later _ rfl
  obtain ⟨_, later⟩ := later _ rfl
  obtain ⟨_, later⟩ := later _ rfl
  obtain ⟨reports, _⟩ := later _ rfl
  exact List.cons_ne_nil _ _ (reports _ rfl).1

end LedgeredGl

end Clicky
