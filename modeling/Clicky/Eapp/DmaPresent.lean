import Clicky.Eapp.Coherence
import Clicky.Eapp.LiveGl
import Clicky.Lib.Runs

/-! When the emulator shows the DMA framebuffer by itself, over any order of bus writes, graphics
and steps. -/
namespace Clicky
open Runs

def presentPeriod : BitVec 64 := 10000

/-- What of the emulator decides whether the DMA framebuffer is shown. -/
structure EappScreen (imageSize : Nat) where
  bus : EappBus imageSize
  liveGl : Option LiveGlState
  stepCounter : BitVec 64 := 0
  halted : Bool := false

namespace EappScreen

variable {imageSize : Nat}

/-- What is read is the whole of the framebuffer. -/
def maybePresentDmaFrame (s : EappScreen imageSize) :
    EappScreen imageSize × Option CompletedFrame :=
  if s.bus.hwFbWriteMax.toNat < dmaFbSize - 256 then (s, none)
  else
    let dmaData := s.bus.dmaFramebuf.mem
    let presented := s.liveGl.map fun lg => lg.presentDma dmaData
    ({ s with
        liveGl := presented.map Prod.fst
        bus := { s.bus with hwDmaDirty := false } },
      presented.bind Prod.snd)

def frameActive (s : EappScreen imageSize) : Bool := (s.liveGl.map (·.frameActive)).getD false

/-- What a step begins with, before it runs an instruction or an import. -/
def beginStep (s : EappScreen imageSize) :
    Option (EappScreen imageSize × Option CompletedFrame) :=
  if s.halted then some (s, none)
  else if s.stepCounter = BitVec.allOnes 64 then none
  else
    let s := { s with stepCounter := s.stepCounter + 1 }
    if s.bus.hwDmaDirty = true ∧ s.liveGl.isSome = true ∧ s.stepCounter.umod presentPeriod = 0 ∧
        s.frameActive = false then
      some s.maybePresentDmaFrame
    else some (s, none)

def start (image : Ram imageSize) (liveGl : Option LiveGlState) : EappScreen imageSize :=
  { bus := .start image, liveGl }

/-- The step shows the DMA framebuffer. -/
def Presents (s : EappScreen imageSize) : Prop :=
  ∃ s' frame, s.beginStep = some (s', some frame)

/-- The step is one that looks whether there is something to show, and no frame is active. -/
def ChecksDma (s : EappScreen imageSize) : Prop :=
  s.halted = false ∧ s.stepCounter ≠ BitVec.allOnes 64 ∧
    (s.stepCounter + 1).umod presentPeriod = 0 ∧ s.liveGl.isSome = true ∧ s.frameActive = false

theorem maybePresentDmaFrame_isSome_iff {s : EappScreen imageSize} (live : s.liveGl.isSome = true) :
    s.maybePresentDmaFrame.2.isSome = true ↔ dmaFbSize - 256 ≤ s.bus.hwFbWriteMax.toNat := by
  obtain ⟨lg, here⟩ := Option.isSome_iff_exists.mp live
  unfold maybePresentDmaFrame
  split
  · rename_i low
    exact iff_of_false nofun (Nat.not_le.mpr low)
  · rename_i high
    refine iff_of_true ?_ (Nat.not_lt.mp high)
    rw [here]
    refine (LiveGlState.completeFrame_isSome_iff _).mpr ?_
    rw [LiveGlState.overlayDmaRgb565_frameActive]
    exact lg.beginFrame_frameActive

theorem maybePresentDmaFrame_books {s : EappScreen imageSize} (live : s.liveGl.isSome = true) :
    s.maybePresentDmaFrame.1.bus.hwFbWriteMax = s.bus.hwFbWriteMax ∧
      s.maybePresentDmaFrame.1.bus.hwDmaDirty =
        (s.bus.hwDmaDirty && s.maybePresentDmaFrame.2.isNone) := by
  by_cases low : s.bus.hwFbWriteMax.toNat < dmaFbSize - 256
  · unfold maybePresentDmaFrame
    rw [if_pos low]
    exact ⟨rfl, (Bool.and_true _).symm⟩
  · have completed := (maybePresentDmaFrame_isSome_iff live).mpr (Nat.not_lt.mp low)
    rw [← Option.not_isSome, completed]
    unfold maybePresentDmaFrame
    rw [if_neg low]
    exact ⟨rfl, (Bool.and_false _).symm⟩

/-- The dirty flag is taken back by what is shown, and by nothing else. -/
theorem beginStep_books {s s' : EappScreen imageSize} {completed : Option CompletedFrame}
    (stepped : s.beginStep = some (s', completed)) :
    s'.bus.hwFbWriteMax = s.bus.hwFbWriteMax ∧
      s'.bus.hwDmaDirty = (s.bus.hwDmaDirty && completed.isNone) := by
  unfold beginStep at stepped
  split at stepped
  · cases stepped
    exact ⟨rfl, (Bool.and_true _).symm⟩
  · split at stepped
    · cases stepped
    · dsimp only at stepped
      split at stepped
      · rename_i checks
        have books := maybePresentDmaFrame_books
          (s := { s with stepCounter := s.stepCounter + 1 }) checks.2.1
        rwa [Option.some.inj stepped] at books
      · cases stepped
        exact ⟨rfl, (Bool.and_true _).symm⟩

/-- A check comes to a frame if something was written and a word was stored near the end. -/
theorem presents_iff (s : EappScreen imageSize) :
    s.Presents ↔ s.ChecksDma ∧ s.bus.hwDmaDirty = true ∧
      dmaFbSize - 256 ≤ s.bus.hwFbWriteMax.toNat := by
  unfold Presents beginStep ChecksDma
  by_cases halted : s.halted = true
  · simp [halted]
  by_cases full : s.stepCounter = BitVec.allOnes 64
  · simp [halted, full]
  rw [if_neg halted, if_neg full]
  dsimp only
  split
  · rename_i checks
    obtain ⟨dirty, live, due, idle⟩ := checks
    have completes := maybePresentDmaFrame_isSome_iff
      (s := { s with stepCounter := s.stepCounter + 1 }) live
    rw [← completes]
    constructor
    · rintro ⟨s', frame, same⟩
      refine ⟨⟨Bool.eq_false_iff.mpr halted, full, due, live, idle⟩, dirty, ?_⟩
      rw [Option.some.inj same]
      rfl
    · rintro ⟨_, _, completed⟩
      obtain ⟨frame, here⟩ := Option.isSome_iff_exists.mp completed
      exact ⟨_, frame, congrArg some (Prod.ext rfl here)⟩
  · rename_i quiet
    refine iff_of_false (by rintro ⟨_, _, same⟩; cases same) ?_
    rintro ⟨⟨_, _, due, live, idle⟩, dirty, _⟩
    exact quiet ⟨dirty, live, due, idle⟩

end EappScreen

namespace EappBus

variable {imageSize : Nat}

instance (b : EappBus imageSize) (r : RamRegion) (offset : U32) (len : Nat) :
    Decidable (b.Inside r offset len) :=
  inferInstanceAs (Decidable (_ ∧ _))

/-- A wide write at the end of what the framebuffer has. -/
def ReachesEnd (width : Width) (pos : Nat) : Prop := width = .word ∧ dmaFbSize - 256 ≤ pos + 4

/-- The mark goes up to the end of a word that is past it. -/
theorem toNat_raised (mark : U32) {fbOff : U32} (inside : fbOff.toNat + 4 ≤ dmaFbSize) :
    (if mark < fbOff + 4 then fbOff + 4 else mark).toNat = max mark.toNat (fbOff.toNat + 4) := by
  have size : dmaFbSize = 153600 := rfl
  have last : (fbOff + 4).toNat = fbOff.toNat + 4 :=
    BitVec.toNat_add_of_lt (by change fbOff.toNat + 4 < 2 ^ 32; omega)
  split
  · rename_i higher
    rw [BitVec.lt_def, last] at higher
    rw [last, Nat.max_eq_right (Nat.le_of_lt higher)]
  · rename_i lower
    rw [BitVec.lt_def, last, Nat.not_lt] at lower
    exact (Nat.max_eq_left lower).symm

/-- What a write in the framebuffer leaves in the books that the present looks at. -/
theorem framebufWritten_books {b b' : EappBus imageSize} {width : Width} {fbOff : U32}
    {r : Except MemException Unit} (inside : fbOff.toNat + width.bytes ≤ dmaFbSize)
    (done : b.framebufWritten width fbOff = .done b' r) :
    b'.hwDmaDirty = true ∧ (dmaFbSize - 256 ≤ b'.hwFbWriteMax.toNat ↔
      dmaFbSize - 256 ≤ b.hwFbWriteMax.toNat ∨ ReachesEnd width fbOff.toNat) := by
  cases width with
  | byte | half =>
    cases done
    exact ⟨rfl, (or_iff_left fun reaches => nomatch reaches.1).symm⟩
  | word =>
    have books : dmaFbSize - 256 ≤ max b.hwFbWriteMax.toNat (fbOff.toNat + 4) ↔
        dmaFbSize - 256 ≤ b.hwFbWriteMax.toNat ∨ ReachesEnd .word fbOff.toNat := by
      rw [ReachesEnd, and_iff_right rfl]
      omega
    rw [← toNat_raised b.hwFbWriteMax inside] at books
    unfold framebufWritten at done
    dsimp only at done
    split at done
    · cases done
    · split at done
      · split at done
        · cases done
        · cases done
          exact ⟨rfl, books⟩
      · cases done
        exact ⟨rfl, books⟩

theorem write_books {b b' : EappBus imageSize} {width : Width} {offset : U32}
    {val : BitVec width.bits} {r : Except MemException Unit}
    (inside : b.Inside .framebuf offset width.bytes)
    (done : b.write width offset val = .done b' r) :
    b'.hwDmaDirty = true ∧ (dmaFbSize - 256 ≤ b'.hwFbWriteMax.toNat ↔
      dmaFbSize - 256 ≤ b.hwFbWriteMax.toNat ∨
        ReachesEnd width (offset.toNat - RamRegion.base .framebuf)) := by
  obtain ⟨log, stored⟩ := b.write_eq_store width offset val
  obtain ⟨above, below⟩ := inside
  change 0x14020000 ≤ offset.toNat at above
  change offset.toNat + width.bytes ≤ 0x14020000 + 153600 at below
  have here := framebuf_offset above
  have size : dmaFbSize = 153600 := rfl
  have fits : (offset - hwStubBase - 0x20000).toNat + width.bytes ≤ dmaFbSize := by omega
  rw [stored, store_framebuf above below] at done
  obtain ⟨framebuf, wrote, _⟩ :=
    b.dmaFramebuf.write_inside (offset - hwStubBase - 0x20000) val fits
  have written := framebufWritten_books fits (wrote ▸ done)
  rwa [here] at written

theorem write_elsewhere {b b' : EappBus imageSize} {width : Width} {offset : U32}
    {val : BitVec width.bits} {r : Except MemException Unit}
    (outside : ¬ b.Inside .framebuf offset width.bytes)
    (done : b.write width offset val = .done b' r) :
    b'.hwDmaDirty = b.hwDmaDirty ∧ b'.hwFbWriteMax = b.hwFbWriteMax := by
  obtain ⟨log, stored⟩ := b.write_eq_store width offset val
  rw [stored, store] at done
  split at done
  · obtain ⟨_, _, rfl⟩ := Outcome.zoom_eq_done.mp done
    exact ⟨rfl, rfl⟩
  · split at done
    · obtain ⟨_, _, rfl⟩ := Outcome.zoom_eq_done.mp done
      exact ⟨rfl, rfl⟩
    · split at done
      · rename_i _ _ stub
        obtain ⟨above, _⟩ := (hwStub_window offset).mp stub
        dsimp only at done
        split at done
        · cases done
          exact ⟨rfl, rfl⟩
        · rename_i registers
          split at done
          · rename_i fits
            rw [registers_iff above, Nat.not_lt] at registers
            rw [framebuf_offset registers] at fits
            refine absurd ⟨registers, ?_⟩ outside
            change offset.toNat + width.bytes ≤ 0x14020000 + dmaFbSize
            omega
          · cases done
            exact ⟨rfl, rfl⟩
      · cases done
        exact ⟨rfl, rfl⟩

end EappBus

/-- A write in the DMA framebuffer, and whether no frame was active then. -/
structure FramebufWrite where
  width : Width
  pos : Nat
  idle : Bool

def FramebufWrite.Covers (w : FramebufWrite) (i : Nat) : Prop :=
  w.pos ≤ i ∧ i < w.pos + w.width.bytes

/-- The writes since the DMA framebuffer was last shown, and those before. -/
structure WrittenScreen (imageSize : Nat) where
  screen : EappScreen imageSize
  before : List FramebufWrite := []
  since : List FramebufWrite := []

inductive ScreenEvent where
  | write (width : Width) (offset : U32) (val : BitVec width.bits)
  | gl (event : LiveGlEvent)
  | halt
  | step

namespace WrittenScreen

variable {imageSize : Nat}

def noted (s : WrittenScreen imageSize) (width : Width) (offset : U32) : List FramebufWrite :=
  if s.screen.bus.Inside .framebuf offset width.bytes then
    s.since ++ [{ width, pos := offset.toNat - RamRegion.base .framebuf,
                  idle := !s.screen.frameActive }]
  else s.since

def shown (s : WrittenScreen imageSize) :
    EappScreen imageSize × Option CompletedFrame → WrittenScreen imageSize
  | (screen, some _) => { screen, before := s.before ++ s.since }
  | (screen, none) => { s with screen }

def step (s : WrittenScreen imageSize) : ScreenEvent → Option (WrittenScreen imageSize)
  | .write width offset val => (s.screen.bus.write width offset val).state?.map fun bus =>
    { s with
      screen := { s.screen with bus }
      since := s.noted width offset }
  | .gl event =>
    some { s with screen := { s.screen with liveGl := s.screen.liveGl.map (·.apply event) } }
  | .halt => some { s with screen := { s.screen with halted := true } }
  | .step => s.screen.beginStep.map s.shown

def Written (s : WrittenScreen imageSize) (i : Nat) : Prop := ∃ w ∈ s.since, w.Covers i

def WrittenIdle (s : WrittenScreen imageSize) (i : Nat) : Prop :=
  ∃ w ∈ s.since, w.idle = true ∧ w.Covers i

/-- A word was stored near the end of the framebuffer, at any time. -/
def EndReached (s : WrittenScreen imageSize) : Prop :=
  ∃ w ∈ s.before ++ s.since, EappBus.ReachesEnd w.width w.pos

/-- What is shown was written as a whole since it was last shown, and what was written as a whole
without a frame active is shown by the next check. -/
def PresentsWhole (s : WrittenScreen imageSize) : ScreenEvent → Prop
  | .step => (s.screen.Presents → ∀ i < dmaFbSize, s.Written i) ∧
      (s.screen.ChecksDma → (∀ i < dmaFbSize, s.WrittenIdle i) → s.screen.Presents)
  | _ => True

/-- At a check, if a word near the end was ever stored, then nothing is written or all is; and if
all was written without a frame active, then such a word was stored. -/
def MarkedByEnd (s : WrittenScreen imageSize) : ScreenEvent → Prop
  | .step => s.screen.ChecksDma → (s.EndReached → s.since ≠ [] → ∀ i < dmaFbSize, s.Written i) ∧
      ((∀ i < dmaFbSize, s.WrittenIdle i) → s.EndReached)
  | _ => True

structure Recorded (s : WrittenScreen imageSize) : Prop where
  dirty : s.screen.bus.hwDmaDirty = true ↔ s.since ≠ []
  reached : dmaFbSize - 256 ≤ s.screen.bus.hwFbWriteMax.toNat ↔ s.EndReached

theorem recorded_start (image : Ram imageSize) (liveGl : Option LiveGlState) :
    Recorded { screen := .start image liveGl } := by
  have none_stored : ¬ dmaFbSize - 256 ≤ (0 : U32).toNat := by decide
  refine ⟨iff_of_false nofun (not_not_intro rfl), iff_of_false none_stored ?_⟩
  rintro ⟨_, member, _⟩
  exact absurd member List.not_mem_nil

theorem Recorded.write {s : WrittenScreen imageSize} {bus : EappBus imageSize} {width : Width}
    {offset : U32} {val : BitVec width.bits} {r : Except MemException Unit} (recorded : s.Recorded)
    (done : s.screen.bus.write width offset val = .done bus r) :
    Recorded { s with
      screen := { s.screen with bus }
      since := s.noted width offset } := by
  unfold noted
  split
  · rename_i inside
    obtain ⟨dirty, reached⟩ := EappBus.write_books inside done
    refine ⟨iff_of_true dirty (List.append_ne_nil_of_right_ne_nil _ (List.cons_ne_nil _ _)), ?_⟩
    refine reached.trans ?_
    rw [recorded.reached, EndReached, EndReached]
    dsimp only
    rw [← List.append_assoc]
    constructor
    · rintro (⟨w, member, last⟩ | last)
      · exact ⟨w, List.mem_append_left _ member, last⟩
      · exact ⟨_, List.mem_concat_self, last⟩
    · rintro ⟨w, member, last⟩
      rcases List.mem_append.mp member with earlier | this
      · exact .inl ⟨w, earlier, last⟩
      · rw [List.mem_singleton.mp this] at last
        exact .inr last
  · rename_i outside
    obtain ⟨dirty, reached⟩ := EappBus.write_elsewhere outside done
    refine ⟨?_, ?_⟩
    · dsimp only
      rw [dirty]
      exact recorded.dirty
    · dsimp only
      rw [reached]
      exact recorded.reached

theorem Recorded.shown {s : WrittenScreen imageSize} {screen : EappScreen imageSize}
    {completed : Option CompletedFrame} (recorded : s.Recorded)
    (stepped : s.screen.beginStep = some (screen, completed)) :
    (s.shown (screen, completed)).Recorded := by
  obtain ⟨reached, dirty⟩ := EappScreen.beginStep_books stepped
  cases completed with
  | none =>
    refine ⟨?_, ?_⟩
    · change screen.bus.hwDmaDirty = true ↔ _
      rw [dirty, Option.isNone_none, Bool.and_true]
      exact recorded.dirty
    · change dmaFbSize - 256 ≤ screen.bus.hwFbWriteMax.toNat ↔ _
      rw [reached]
      exact recorded.reached
  | some frame =>
    refine ⟨?_, ?_⟩
    · change screen.bus.hwDmaDirty = true ↔ _
      rw [dirty, Option.isNone_some, Bool.and_false]
      exact iff_of_false nofun (not_not_intro rfl)
    · change dmaFbSize - 256 ≤ screen.bus.hwFbWriteMax.toNat ↔
        ∃ w ∈ (s.before ++ s.since) ++ [], _
      rw [reached, List.append_nil]
      exact recorded.reached

theorem Recorded.step {s s' : WrittenScreen imageSize} {event : ScreenEvent}
    (recorded : s.Recorded) (next : s.step event = some s') : s'.Recorded := by
  cases event with
  | write width offset val =>
    rw [WrittenScreen.step] at next
    cases ran : s.screen.bus.write width offset val with
    | done bus r =>
      rw [ran] at next
      cases next
      exact recorded.write ran
    | panic m =>
      rw [ran] at next
      cases next
  | gl | halt =>
    cases next
    exact ⟨recorded.dirty, recorded.reached⟩
  | step =>
    obtain ⟨⟨screen, completed⟩, stepped, rfl⟩ := Option.map_eq_some_iff.mp next
    exact recorded.shown stepped

theorem Recorded.presents_iff {s : WrittenScreen imageSize} (recorded : s.Recorded) :
    s.screen.Presents ↔ s.screen.ChecksDma ∧ s.since ≠ [] ∧ s.EndReached := by
  rw [EappScreen.presents_iff, recorded.dirty, recorded.reached]

theorem since_ne_nil {s : WrittenScreen imageSize} (whole : ∀ i < dmaFbSize, s.WrittenIdle i) :
    s.since ≠ [] := by
  obtain ⟨w, member, _⟩ := whole 0 (by decide)
  exact List.ne_nil_of_mem member

theorem Recorded.presentsWhole_iff {s : WrittenScreen imageSize} (recorded : s.Recorded)
    (event : ScreenEvent) : s.PresentsWhole event ↔ s.MarkedByEnd event := by
  cases event with
  | step =>
    unfold PresentsWhole MarkedByEnd
    rw [recorded.presents_iff]
    constructor
    · rintro ⟨whole, shows⟩ checks
      exact ⟨fun reached something => whole ⟨checks, something, reached⟩,
        fun rewritten => (shows checks rewritten).2.2⟩
    · intro marked
      refine ⟨fun ⟨checks, something, reached⟩ => (marked checks).1 reached something, ?_⟩
      exact fun checks rewritten =>
        ⟨checks, since_ne_nil rewritten, (marked checks).2 rewritten⟩
  | write | gl | halt => exact Iff.rfl

/-- In a run, what is shown is always a whole frame and every whole frame is shown, exactly when
at each check a word stored near the end tells that all was written. -/
theorem whole_frames_presented_iff (image : Ram imageSize) (liveGl : Option LiveGlState)
    (events : List ScreenEvent) :
    BeforeEach step PresentsWhole { screen := .start image liveGl } events ↔
      BeforeEach step MarkedByEnd { screen := .start image liveGl } events :=
  beforeEach_iff (I := Recorded) (fun _ _ _ recorded next => recorded.step next)
    (fun _ event recorded => recorded.presentsWhole_iff event) events
    (recorded_start image liveGl)

def blank : WrittenScreen 0 := { screen := .start (Ram.new 0) (some (.new false false false)) }

def afterSteps (n : Nat) : WrittenScreen 0 :=
  { blank with screen := { blank.screen with stepCounter := BitVec.ofNat 64 n } }

theorem step_afterSteps {n : Nat} (few : n < 10000) :
    (afterSteps n).step .step = some (afterSteps (n + 1)) := by
  have room : (afterSteps n).screen.stepCounter ≠ BitVec.allOnes 64 := by
    change BitVec.ofNat 64 n ≠ BitVec.allOnes 64
    rw [ne_eq, ← BitVec.toNat_inj, BitVec.toNat_ofNat, BitVec.toNat_allOnes]
    omega
  have next : BitVec.ofNat 64 n + 1 = BitVec.ofNat 64 (n + 1) := (BitVec.ofNat_add n 1).symm
  have clean : (afterSteps n).screen.bus.hwDmaDirty ≠ true := nofun
  have running : (afterSteps n).screen.halted ≠ true := nofun
  rw [WrittenScreen.step, EappScreen.beginStep, if_neg running, if_neg room]
  dsimp only
  rw [if_neg fun checks => clean checks.1]
  simp only [afterSteps, Option.map_some, next]
  rfl

theorem run_afterSteps {n : Nat} (few : n ≤ 10000) :
    run step blank (List.replicate n .step) = some (afterSteps n) := by
  induction n with
  | zero => rfl
  | succ n ih =>
    rw [List.replicate_succ', run_concat, ih (Nat.le_of_succ_le few)]
    exact step_afterSteps few

/-- After one word in the last place, the next check shows a framebuffer of which nothing else was
written. -/
theorem one_word_presented :
    ¬ BeforeEach step PresentsWhole blank
      (List.replicate 9999 .step ++ [.write .word 0x140457fc 0x12345678, .step]) := by
  intro all
  obtain ⟨_, later⟩ := all.after (run_afterSteps (by decide))
  have behaves : (afterSteps 9999).screen.bus.Behaves (.write .word 0x140457fc 0x12345678) := by
    refine EappBus.write_behaves_iff.mpr ⟨?_, ?_⟩
    · rintro (⟨above, _⟩ | ⟨_, below, _⟩)
      · exact absurd above (by decide)
      · exact absurd below (by decide)
    · rintro ⟨_, _, full | ⟨first, _⟩⟩
      · exact absurd full (by change ¬ (0 : BitVec 64) = _; decide)
      · exact absurd first (by decide)
  obtain ⟨bus, r, done, _⟩ := behaves
  have start := recorded_start (Ram.new 0) (some (.new false false false))
  have recorded : (afterSteps 9999).Recorded := ⟨start.dirty, start.reached⟩
  have written := recorded.write done
  have noted : (afterSteps 9999).noted .word 0x140457fc =
      [{ width := .word, pos := 153596, idle := true }] := if_pos ⟨by decide, by decide⟩
  rw [noted] at written
  obtain ⟨⟨whole, _⟩, _⟩ := later _ (by rw [WrittenScreen.step, done, noted]; rfl)
  have room : (9999 : BitVec 64) ≠ BitVec.allOnes 64 := by decide
  have due : ((9999 : BitVec 64) + 1).umod presentPeriod = 0 := by decide
  have checks : ({ (afterSteps 9999).screen with bus } : EappScreen 0).ChecksDma :=
    ⟨rfl, room, due, rfl, rfl⟩
  obtain ⟨w, member, covers⟩ := whole (written.presents_iff.mpr
    ⟨checks, List.cons_ne_nil _ _, _, List.mem_singleton_self _, rfl, by decide⟩) 0 (by decide)
  cases List.mem_singleton.mp member
  exact absurd covers.1 (by decide)

end WrittenScreen

end Clicky
