import Clicky.Eapp.Texture
import Mathlib.Data.Fin.Rev

/-! The graphics a game draws: uploads, the draws of a frame, the framebuffer they go to, and the
frames that are completed and shown. -/
namespace Clicky

def fbWidth : Nat := 320
def fbHeight : Nat := 240

/-- Row and column. -/
abbrev Pixel := Fin fbHeight × Fin fbWidth

abbrev Framebuffer := Pixel → Rgba8

structure LiveGlUpload where
  index : Nat
  target : U32
  width : Nat
  height : Nat
  sourceFormat : U32
  pixelType : U32
  sourcePtr : U32
  format : Option TextureFormat
  texture : Option Texture
  texName : Option U32
  deriving DecidableEq, Repr

structure LiveDrawRecord where
  drawIndex : Nat
  handle : U32
  skippedReason : Option String := none
  deriving DecidableEq, Repr

structure CompletedFrame where
  index : Nat
  drawCount : Nat
  skippedDraws : Nat
  internalHash : BitVec 64
  presentedHash : BitVec 64
  handleSignature : List U32

structure LiveGlState where
  uploads : List LiveGlUpload := []
  resourceUploadsByHandle : U32 → Option Nat := fun _ => none
  pendingTexName : Option U32 := none
  framebuffer : Framebuffer := fun _ => .clear
  draws : List LiveDrawRecord := []
  drawCountInFrame : Nat := 0
  candidateFrames : Nat := 0
  capturedFirstFrame : Bool := false
  presentVflip : Bool
  ndcFrame : Bool := false
  gateB : Bool
  continuousCapture : Bool
  prevDrawHandles : Option (List U32) := none
  completedBuffer : Framebuffer := fun _ => .clear
  presentedBuffer : Framebuffer := fun _ => .clear
  presented : Option Framebuffer := none
  frameActive : Bool := false
  hasDmaOverlay : Bool := false
  completedFrameIndex : Nat := 0
  skippedDrawsThisFrame : Nat := 0
  firstPresentedHash : Option (BitVec 64) := none
  prevPresentedHash : Option (BitVec 64) := none
  firstChangedFrame : Option Nat := none
  uniquePresentedHashes : List (BitVec 64) := []
  repeatedPresentedCount : Nat := 0

inductive BeginOutcome where
  | began | doubleBegin
  deriving DecidableEq, Repr

def framebufferHash (fb : Framebuffer) : BitVec 64 :=
  (List.finRange fbHeight).foldl (fun hash y =>
    (List.finRange fbWidth).foldl (fun hash x =>
      let px := fb (y, x)
      [px.r, px.g, px.b, px.a].foldl (fun hash b => (hash ^^^ b.setWidth 64) * 0x100000001b3) hash)
      hash)
    0xcbf29ce484222325

/-- Row `y` from the top changes places with row `y` from the bottom. -/
def swapRows (fb : Framebuffer) (y : Nat) : Framebuffer := fun p =>
  if p.1.val = y ∨ p.1.rev.val = y then fb (p.1.rev, p.2) else fb p

def flipVerticalInPlace (fb : Framebuffer) : Framebuffer :=
  (List.range (fbHeight / 2)).foldl swapRows fb

def srcIdx (p : Pixel) : Nat := (p.1.val * fbWidth + p.2.val) * 2

def dmaPixel (rgb565 : List U8) (p : Pixel) : U16 :=
  leU16 (rgb565.getD (srcIdx p) 0) (rgb565.getD (srcIdx p + 1) 0)

/-- The colour of a pixel of 16 bits, with the high bits of a channel for its low ones. -/
def rgb888 (raw : U16) : U8 × U8 × U8 :=
  let r : U8 := ((raw >>> 11) &&& 0x1f).setWidth 8
  let g : U8 := ((raw >>> 5) &&& 0x3f).setWidth 8
  let b : U8 := (raw &&& 0x1f).setWidth 8
  ((r <<< 3) ||| (r >>> 2), (g <<< 2) ||| (g >>> 4), (b <<< 3) ||| (b >>> 2))

/-- What is there before, mixed over the channel of the background. -/
def overChannel (background dst alpha : U8) : U8 :=
  BitVec.ofNat 8 ((background.toNat * (255 - alpha.toNat) + dst.toNat * alpha.toNat) / 255)

def overBackground (raw : U16) (dst : Rgba8) : Rgba8 :=
  let (r8, g8, b8) := rgb888 raw
  ⟨overChannel r8 dst.r dst.a, overChannel g8 dst.g dst.a, overChannel b8 dst.b dst.a, 255⟩

namespace LiveGlState

def new (presentVflip gateB continuousCapture : Bool) : LiveGlState :=
  { presentVflip, gateB, continuousCapture }

def resetForFrame (s : LiveGlState) : LiveGlState :=
  { s with
    framebuffer := fun _ => .clear
    draws := []
    drawCountInFrame := 0
    ndcFrame := false }

def beginFrame (s : LiveGlState) : LiveGlState × BeginOutcome :=
  let s := { s with skippedDrawsThisFrame := 0, hasDmaOverlay := false }
  if s.frameActive then (s, .doubleBegin) else ({ s with frameActive := true }, .began)

/-- Each pixel is read and written once. -/
def overlayDmaRgb565 (s : LiveGlState) (rgb565 : List U8) : LiveGlState :=
  let s := { s with hasDmaOverlay := true }
  if rgb565.length < fbWidth * fbHeight * 2 then s
  else { s with framebuffer := fun p => overBackground (dmaPixel rgb565 p) (s.framebuffer p) }

def flips (s : LiveGlState) : Bool := s.presentVflip && !s.ndcFrame

/-- A copy of the framebuffer, the way it is shown. -/
def present (s : LiveGlState) : Framebuffer :=
  if s.flips then flipVerticalInPlace s.framebuffer else s.framebuffer

def trackPresentedHash (s : LiveGlState) (presentedHash : BitVec 64) : LiveGlState :=
  let s := { s with firstPresentedHash := s.firstPresentedHash.or (some presentedHash) }
  let s :=
    if s.prevPresentedHash = some presentedHash then
      { s with repeatedPresentedCount := s.repeatedPresentedCount + 1 }
    else if 1 < s.completedFrameIndex ∧ s.firstChangedFrame = none then
      { s with firstChangedFrame := some s.completedFrameIndex }
    else s
  { s with
    prevPresentedHash := some presentedHash
    uniquePresentedHashes := s.uniquePresentedHashes.insert presentedHash }

/-- A frame without draws and background keeps what was shown before. -/
def completeFrame (s : LiveGlState) : LiveGlState × Option CompletedFrame :=
  if s.frameActive then
    let s := { s with frameActive := false }
    let drawCount := s.draws.length
    let index := s.completedFrameIndex + 1
    if drawCount = 0 ∧ s.hasDmaOverlay = false then
      ({ s with completedFrameIndex := index },
        some { index, drawCount, skippedDraws := s.skippedDrawsThisFrame,
               internalHash := framebufferHash s.completedBuffer,
               presentedHash := framebufferHash s.presentedBuffer, handleSignature := [] })
    else
      let s := { s with
        completedBuffer := s.framebuffer
        presentedBuffer := s.present
        presented := some s.present
        completedFrameIndex := index }
      let presentedHash := framebufferHash s.presentedBuffer
      (s.trackPresentedHash presentedHash,
        some { index, drawCount, skippedDraws := s.skippedDrawsThisFrame,
               internalHash := framebufferHash s.completedBuffer, presentedHash,
               handleSignature := s.draws.map LiveDrawRecord.handle })
  else (s, none)

def noteDrawOutsideFrame (s : LiveGlState) : LiveGlState := { s with frameActive := true }

def noteSkippedDraw (s : LiveGlState) : LiveGlState :=
  { s with skippedDrawsThisFrame := s.skippedDrawsThisFrame + 1 }

end LiveGlState

/-- How a draw begins a frame where none is active. -/
inductive ImplicitBegin where
  | outsideFrame | firstElements
  deriving DecidableEq, Repr

/-- What a draw of the guest comes to: whether it is one of quads, the colours it leaves on pixels,
whether its positions are relative to the screen, and its records. -/
structure LiveDraw where
  implicitBegin : ImplicitBegin := .outsideFrame
  quads : Bool := false
  ndc : Bool := false
  fragments : List (Pixel × Rgba8) := []
  records : List LiveDrawRecord := []

namespace LiveGlState

def beginForDraw (s : LiveGlState) (how : ImplicitBegin) : LiveGlState :=
  if s.continuousCapture && !s.frameActive then
    match how with
    | .outsideFrame => s.noteDrawOutsideFrame
    | .firstElements => s.beginFrame.1
  else s

def putFragment (fb : Framebuffer) (fragment : Pixel × Rgba8) : Framebuffer :=
  Function.update fb fragment.1 (blendSrcOver (fb fragment.1) fragment.2)

def rasterize (s : LiveGlState) (draw : LiveDraw) : LiveGlState :=
  { s with
    framebuffer := draw.fragments.foldl putFragment s.framebuffer
    ndcFrame := s.ndcFrame || draw.ndc }

def liveLogDrawRecord (s : LiveGlState) (record : LiveDrawRecord) : LiveGlState :=
  if record.skippedReason.isSome then s.noteSkippedDraw else s

/-- Without continuous capture, the second of two frames with the same four draws is captured. -/
def liveFinalizeDraws (s : LiveGlState) (records : List LiveDrawRecord) : LiveGlState :=
  let s := { s with
    draws := s.draws ++ records
    drawCountInFrame := s.drawCountInFrame + max records.length 1 }
  if s.continuousCapture ∨ s.drawCountInFrame ≠ 4 then s
  else
    let currentHandles := s.draws.map LiveDrawRecord.handle
    let steady := s.prevDrawHandles = some currentHandles
    let s := { s with prevDrawHandles := some currentHandles }
    if steady ∧ s.capturedFirstFrame = false then
      { s with
        candidateFrames := s.candidateFrames + 1
        capturedFirstFrame := true
        presented := some s.present }
    else s

/-- Only what is skipped of quads is noted down. -/
def liveLogDraw (s : LiveGlState) (draw : LiveDraw) : LiveGlState :=
  if draw.quads then draw.records.foldl liveLogDrawRecord s else s

def liveDraw (s : LiveGlState) (draw : LiveDraw) : LiveGlState :=
  let s := (s.beginForDraw draw.implicitBegin).rasterize draw
  (s.liveLogDraw draw).liveFinalizeDraws draw.records

/-- A draw that is turned down for its mode or its counts. -/
def refuseDraw (s : LiveGlState) : LiveGlState := s.liveFinalizeDraws []

def liveHandleCandidateBegin (s : LiveGlState) : LiveGlState :=
  if s.continuousCapture then s.beginFrame.1 else s

/-- The memory of the DMA framebuffer comes up filled with 0x2d. -/
def hasDma (dmaData : List U8) : Bool := dmaData.any (· != 0x2d)

def overlayIfAny (s : LiveGlState) (dmaData : List U8) : LiveGlState :=
  if hasDma dmaData then s.overlayDmaRgb565 dmaData else s

def liveHandleCandidatePresent (s : LiveGlState) (dmaData : List U8) :
    LiveGlState × Option CompletedFrame :=
  if s.continuousCapture then
    match (s.overlayIfAny dmaData).completeFrame with
    | (s, some frame) => (s, some frame)
    | (s, none) => (s.beginFrame.1.overlayIfAny dmaData).completeFrame
  else (s, none)

def presentDma (s : LiveGlState) (dmaData : List U8) : LiveGlState × Option CompletedFrame :=
  (s.beginFrame.1.overlayDmaRgb565 dmaData).completeFrame

end LiveGlState

/-- What happens to the graphics state. -/
inductive LiveGlEvent where
  | resetForFrame
  | beginFrame
  | draw (draw : LiveDraw)
  | refuseDraw
  | overlayDma (rgb565 : List U8)
  | completeFrame

namespace LiveGlState

def apply (s : LiveGlState) : LiveGlEvent → LiveGlState
  | .resetForFrame => s.resetForFrame
  | .beginFrame => s.beginFrame.1
  | .draw draw => s.liveDraw draw
  | .refuseDraw => s.refuseDraw
  | .overlayDma rgb565 => s.overlayDmaRgb565 rgb565
  | .completeFrame => s.completeFrame.1

def overlayEvents (dmaData : List U8) : List LiveGlEvent :=
  if hasDma dmaData then [.overlayDma dmaData] else []

theorem apply_overlayEvents (s : LiveGlState) (dmaData : List U8) :
    (overlayEvents dmaData).foldl apply s = s.overlayIfAny dmaData := by
  unfold overlayEvents overlayIfAny
  split <;> rfl

theorem candidateBegin_events (s : LiveGlState) :
    ∃ events : List LiveGlEvent, events.foldl apply s = s.liveHandleCandidateBegin := by
  unfold liveHandleCandidateBegin
  split
  · exact ⟨[.beginFrame], rfl⟩
  · exact ⟨[], rfl⟩

theorem presentDma_events (s : LiveGlState) (dmaData : List U8) :
    [.beginFrame, .overlayDma dmaData, .completeFrame].foldl apply s = (s.presentDma dmaData).1 :=
  rfl

/-- A present is a run of events, twice a completion where no frame was active. -/
theorem candidatePresent_events (s : LiveGlState) (dmaData : List U8) :
    ∃ events : List LiveGlEvent,
      events.foldl apply s = (s.liveHandleCandidatePresent dmaData).1 := by
  unfold liveHandleCandidatePresent
  split
  · split
    · rename_i done
      refine ⟨overlayEvents dmaData ++ [.completeFrame], ?_⟩
      rw [List.foldl_append, apply_overlayEvents]
      exact congrArg Prod.fst done
    · rename_i done
      let again : List LiveGlEvent := [.completeFrame, .beginFrame]
      refine ⟨overlayEvents dmaData ++ again ++ (overlayEvents dmaData ++ [.completeFrame]), ?_⟩
      have first : (overlayEvents dmaData ++ again).foldl apply s =
          (s.overlayIfAny dmaData).completeFrame.1.beginFrame.1 := by
        rw [List.foldl_append, apply_overlayEvents]
        rfl
      rw [List.foldl_append, first, List.foldl_append, apply_overlayEvents, done]
      rfl
  · exact ⟨[], rfl⟩

/-- No frame is active where a draw is to be kept: one begins. -/
def Begins (s : LiveGlState) : Prop := s.continuousCapture = true ∧ s.frameActive = false

instance (s : LiveGlState) : Decidable s.Begins := inferInstanceAs (Decidable (_ ∧ _))

theorem beginFrame_frame (s : LiveGlState) :
    s.beginFrame.1.draws = s.draws ∧ s.beginFrame.1.framebuffer = s.framebuffer ∧
      s.beginFrame.1.flips = s.flips := by
  unfold beginFrame
  dsimp only
  split <;> exact ⟨rfl, rfl, rfl⟩

theorem beginForDraw_frame (s : LiveGlState) (how : ImplicitBegin) :
    (s.beginForDraw how).draws = s.draws ∧ (s.beginForDraw how).framebuffer = s.framebuffer := by
  unfold beginForDraw
  split
  · cases how
    · exact ⟨rfl, rfl⟩
    · exact ⟨s.beginFrame_frame.1, s.beginFrame_frame.2.1⟩
  · exact ⟨rfl, rfl⟩

theorem beginForDraw_of_not_begins {s : LiveGlState} (kept : ¬ s.Begins) (how : ImplicitBegin) :
    s.beginForDraw how = s := by
  unfold beginForDraw
  refine if_neg fun begins => kept ?_
  simpa [Begins] using begins

/-- Noting the skipped draws down changes nothing but their count. -/
theorem foldl_liveLogDrawRecord (s : LiveGlState) (records : List LiveDrawRecord) :
    ∃ n, records.foldl liveLogDrawRecord s = { s with skippedDrawsThisFrame := n } := by
  induction records generalizing s with
  | nil => exact ⟨s.skippedDrawsThisFrame, rfl⟩
  | cons record records ih =>
    rw [List.foldl_cons, liveLogDrawRecord]
    split
    · exact ih s.noteSkippedDraw
    · exact ih s

theorem liveLogDraw_eq (s : LiveGlState) (draw : LiveDraw) :
    ∃ n, s.liveLogDraw draw = { s with skippedDrawsThisFrame := n } := by
  unfold liveLogDraw
  split
  · exact foldl_liveLogDrawRecord s draw.records
  · exact ⟨s.skippedDrawsThisFrame, rfl⟩

theorem liveFinalizeDraws_frame (s : LiveGlState) (records : List LiveDrawRecord) :
    (s.liveFinalizeDraws records).draws = s.draws ++ records ∧
      (s.liveFinalizeDraws records).framebuffer = s.framebuffer ∧
      (s.liveFinalizeDraws records).hasDmaOverlay = s.hasDmaOverlay := by
  unfold liveFinalizeDraws
  dsimp only
  split
  · exact ⟨rfl, rfl, rfl⟩
  · split <;> exact ⟨rfl, rfl, rfl⟩

/-- A draw adds its records and leaves its fragments; where no frame begins with it, the note of an
overlay stays. -/
theorem liveDraw_frame (s : LiveGlState) (draw : LiveDraw) :
    (s.liveDraw draw).draws = s.draws ++ draw.records ∧
      (s.liveDraw draw).framebuffer = draw.fragments.foldl putFragment s.framebuffer ∧
      (¬ s.Begins → (s.liveDraw draw).hasDmaOverlay = s.hasDmaOverlay) := by
  obtain ⟨begunDraws, begunFramebuffer⟩ := s.beginForDraw_frame draw.implicitBegin
  unfold liveDraw
  dsimp only
  obtain ⟨n, logged⟩ := liveLogDraw_eq ((s.beginForDraw draw.implicitBegin).rasterize draw) draw
  rw [logged]
  obtain ⟨draws, framebuffer, hasDmaOverlay⟩ := liveFinalizeDraws_frame
    { (s.beginForDraw draw.implicitBegin).rasterize draw with skippedDrawsThisFrame := n }
    draw.records
  refine ⟨draws.trans ?_, framebuffer.trans ?_, fun kept => hasDmaOverlay.trans ?_⟩
  · exact congrArg (· ++ draw.records) begunDraws
  · exact congrArg (draw.fragments.foldl putFragment) begunFramebuffer
  · change (s.beginForDraw draw.implicitBegin).hasDmaOverlay = s.hasDmaOverlay
    rw [beginForDraw_of_not_begins kept]

theorem beginFrame_frameActive (s : LiveGlState) : s.beginFrame.1.frameActive = true := by
  unfold beginFrame
  dsimp only
  split
  · assumption
  · rfl

theorem overlayDmaRgb565_full {rgb565 : List U8} (full : ¬ rgb565.length < fbWidth * fbHeight * 2)
    (s : LiveGlState) : s.overlayDmaRgb565 rgb565 =
      { s with
        hasDmaOverlay := true
        framebuffer := fun p => overBackground (dmaPixel rgb565 p) (s.framebuffer p) } := by
  unfold overlayDmaRgb565
  exact if_neg full

theorem overlayDmaRgb565_draws (s : LiveGlState) (rgb565 : List U8) :
    (s.overlayDmaRgb565 rgb565).draws = s.draws := by
  unfold overlayDmaRgb565
  dsimp only
  split <;> rfl

theorem overlayDmaRgb565_frameActive (s : LiveGlState) (rgb565 : List U8) :
    (s.overlayDmaRgb565 rgb565).frameActive = s.frameActive := by
  unfold overlayDmaRgb565
  dsimp only
  split <;> rfl

theorem trackPresentedHash_frame (s : LiveGlState) (hash : BitVec 64) :
    (s.trackPresentedHash hash).draws = s.draws ∧
      (s.trackPresentedHash hash).framebuffer = s.framebuffer ∧
      (s.trackPresentedHash hash).hasDmaOverlay = s.hasDmaOverlay ∧
      (s.trackPresentedHash hash).presentedBuffer = s.presentedBuffer ∧
      (s.trackPresentedHash hash).flips = s.flips := by
  unfold trackPresentedHash
  dsimp only
  split
  · exact ⟨rfl, rfl, rfl, rfl, rfl⟩
  · split <;> exact ⟨rfl, rfl, rfl, rfl, rfl⟩

theorem completeFrame_frame (s : LiveGlState) :
    s.completeFrame.1.draws = s.draws ∧ s.completeFrame.1.framebuffer = s.framebuffer ∧
      s.completeFrame.1.hasDmaOverlay = s.hasDmaOverlay ∧ s.completeFrame.1.flips = s.flips := by
  unfold completeFrame
  dsimp only
  split
  · split
    · exact ⟨rfl, rfl, rfl, rfl⟩
    · obtain ⟨draws, framebuffer, hasDmaOverlay, _, flips⟩ := trackPresentedHash_frame _ _
      exact ⟨draws, framebuffer, hasDmaOverlay, flips⟩
  · exact ⟨rfl, rfl, rfl, rfl⟩

/-- With a background there is always something to show. -/
theorem completeFrame_presentedBuffer {s : LiveGlState} (active : s.frameActive = true)
    (overlaid : s.hasDmaOverlay = true) : s.completeFrame.1.presentedBuffer = s.present := by
  have shown : ¬ (s.draws.length = 0 ∧ s.hasDmaOverlay = false) := fun nothing =>
    absurd overlaid (Bool.eq_false_iff.mp nothing.2)
  unfold completeFrame
  dsimp only
  rw [if_pos active, if_neg shown]
  exact (trackPresentedHash_frame _ _).2.2.2.1

/-- What a completed frame says of its draws. -/
theorem completeFrame_reports {s : LiveGlState} {frame : CompletedFrame}
    (completed : s.completeFrame.2 = some frame) :
    frame.drawCount = s.draws.length ∧ frame.handleSignature = s.draws.map LiveDrawRecord.handle := by
  unfold completeFrame at completed
  dsimp only at completed
  split at completed
  · split at completed
    · rename_i empty
      cases completed
      rw [List.length_eq_zero_iff.mp empty.1]
      exact ⟨rfl, rfl⟩
    · cases completed
      exact ⟨rfl, rfl⟩
  · cases completed

theorem completeFrame_isSome_iff (s : LiveGlState) :
    s.completeFrame.2.isSome = true ↔ s.frameActive = true := by
  unfold completeFrame
  dsimp only
  split
  · rename_i active
    split <;> exact iff_of_true rfl active
  · rename_i idle
    exact iff_of_false nofun idle

end LiveGlState

/-- The colours of the fragments that fall on a pixel. -/
def colours (p : Pixel) (fragments : List (Pixel × Rgba8)) : List Rgba8 :=
  (fragments.filter fun fragment => fragment.1 = p).map Prod.snd

theorem foldl_putFragment_at (fb : Framebuffer) (p : Pixel) (fragments : List (Pixel × Rgba8)) :
    fragments.foldl LiveGlState.putFragment fb p =
      (colours p fragments).foldl blendSrcOver (fb p) := by
  induction fragments generalizing fb with
  | nil => rfl
  | cons fragment fragments ih =>
    rw [List.foldl_cons, ih, LiveGlState.putFragment, colours]
    by_cases here : fragment.1 = p
    · subst here
      simp [colours]
    · simp [colours, here, Function.update_of_ne (Ne.symm here)]

theorem foldl_putFragment (fb : Framebuffer) (fragments : List (Pixel × Rgba8)) {p : Pixel}
    (untouched : p ∉ fragments.map Prod.fst) :
    fragments.foldl LiveGlState.putFragment fb p = fb p := by
  have none_here : colours p fragments = [] := by
    rw [colours, List.map_eq_nil_iff, List.filter_eq_nil_iff]
    intro fragment member here
    exact untouched (List.mem_map.mpr ⟨fragment, member, of_decide_eq_true here⟩)
  rw [foldl_putFragment_at, none_here]
  rfl

end Clicky
