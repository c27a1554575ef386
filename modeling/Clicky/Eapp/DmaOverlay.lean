import Clicky.Eapp.LiveGl
import Clicky.Lib.Runs

/-! The background in the DMA framebuffer behind what is drawn: which colours a completed frame
shows where nothing was drawn. -/
namespace Clicky
open Runs

def Rgba8.rgb (c : Rgba8) : U8 × U8 × U8 := (c.r, c.g, c.b)

def mirror (p : Pixel) : Pixel := (p.1.rev, p.2)

theorem swapRows_eq (fb : Framebuffer) (y : Nat) (p : Pixel) :
    swapRows fb y p = if p.1.val = y ∨ (mirror p).1.val = y then fb (mirror p) else fb p := rfl

theorem mirror_mirror (p : Pixel) : mirror (mirror p) = p :=
  Prod.ext (Fin.rev_rev p.1) rfl

theorem row_add_mirror (p : Pixel) : p.1.val + (mirror p).1.val = 239 := by
  have height : fbHeight = 240 := rfl
  have row := p.1.isLt
  change p.1.val + p.1.rev.val = 239
  rw [Fin.val_rev]
  omega

/-- The rows from the ends up to `n` have changed places, those between them have not. -/
theorem foldl_swapRows (fb : Framebuffer) (n : Nat) (inside : n ≤ fbHeight / 2) (p : Pixel) :
    (List.range n).foldl swapRows fb p =
      if p.1.val < n ∨ (mirror p).1.val < n then fb (mirror p) else fb p := by
  induction n generalizing p with
  | zero => simp
  | succ n ih =>
    have half : fbHeight / 2 = 120 := rfl
    have rows := row_add_mirror p
    rw [List.range_succ, List.foldl_append, List.foldl_cons, List.foldl_nil, swapRows_eq,
      ih (by omega) p, ih (by omega) (mirror p), mirror_mirror]
    by_cases here : p.1.val = n ∨ (mirror p).1.val = n
    · rw [if_pos here, if_neg (by omega), if_pos (by omega)]
    · rw [if_neg here]
      by_cases before : p.1.val < n ∨ (mirror p).1.val < n
      · rw [if_pos before, if_pos (by omega)]
      · rw [if_neg before, if_neg (by omega)]

theorem flipVerticalInPlace_eq (fb : Framebuffer) (p : Pixel) :
    flipVerticalInPlace fb p = fb (mirror p) := by
  have half : fbHeight / 2 = 120 := rfl
  have rows := row_add_mirror p
  rw [flipVerticalInPlace, foldl_swapRows fb _ (Nat.le_refl _), if_pos (by omega)]

/-- A channel of the background comes through what lies over it. -/
def ComesThrough (background dst alpha : U8) : Prop :=
  alpha = 0 ∨ background ≤ dst ∧ (dst.toNat - background.toNat) * alpha.toNat < 255

theorem toNat_overChannel (background dst alpha : U8) :
    (overChannel background dst alpha).toNat =
      (background.toNat * (255 - alpha.toNat) + dst.toNat * alpha.toNat) / 255 := by
  have low : background.toNat ≤ 255 := Nat.le_of_lt_succ background.isLt
  have high : dst.toNat ≤ 255 := Nat.le_of_lt_succ dst.isLt
  have share : alpha.toNat ≤ 255 := Nat.le_of_lt_succ alpha.isLt
  have first := Nat.mul_le_mul_right (255 - alpha.toNat) low
  have second := Nat.mul_le_mul_right alpha.toNat high
  rw [overChannel, BitVec.toNat_ofNat]
  exact Nat.mod_eq_of_lt (by omega)

theorem overChannel_eq_iff (background dst alpha : U8) :
    overChannel background dst alpha = background ↔ ComesThrough background dst alpha := by
  have share : alpha.toNat ≤ 255 := Nat.le_of_lt_succ alpha.isLt
  have split_share : background.toNat * (255 - alpha.toNat) =
      255 * background.toNat - background.toNat * alpha.toNat := by
    rw [Nat.mul_sub, Nat.mul_comm 255]
  have below : background.toNat * alpha.toNat ≤ 255 * background.toNat := by
    rw [Nat.mul_comm 255]
    exact Nat.mul_le_mul_left _ share
  rw [← BitVec.toNat_inj, toNat_overChannel, ComesThrough, ← BitVec.toNat_inj, BitVec.le_def,
    Nat.sub_mul, split_share]
  by_cases clear : alpha.toNat = 0
  · simp [clear]
  · have order : background.toNat * alpha.toNat ≤ dst.toNat * alpha.toNat ↔
        background.toNat ≤ dst.toNat := Nat.mul_le_mul_right_iff (Nat.pos_of_ne_zero clear)
    have zero : (0 : U8).toNat = 0 := rfl
    rw [zero, ← order]
    omega

def BackgroundShows (raw : U16) (dst : Rgba8) : Prop :=
  ComesThrough (rgb888 raw).1 dst.r dst.a ∧ ComesThrough (rgb888 raw).2.1 dst.g dst.a ∧
    ComesThrough (rgb888 raw).2.2 dst.b dst.a

theorem rgb_overBackground_iff (raw : U16) (dst : Rgba8) :
    (overBackground raw dst).rgb = rgb888 raw ↔ BackgroundShows raw dst := by
  rw [BackgroundShows, ← overChannel_eq_iff, ← overChannel_eq_iff, ← overChannel_eq_iff]
  exact Prod.ext_iff.trans (and_congr_right fun _ => Prod.ext_iff)

/-- A channel of the background, mixed with what lies over it and rounded down, comes to a value. -/
def MixesTo (background dst alpha value : U8) : Prop :=
  255 * value.toNat ≤ background.toNat * (255 - alpha.toNat) + dst.toNat * alpha.toNat ∧
    background.toNat * (255 - alpha.toNat) + dst.toNat * alpha.toNat < 255 * (value.toNat + 1)

theorem overChannel_mixesTo_iff (background dst alpha value : U8) :
    overChannel background dst alpha = value ↔ MixesTo background dst alpha value := by
  rw [← BitVec.toNat_inj, toNat_overChannel, MixesTo]
  omega

/-- All channels of one background come to those of another. -/
def MixShows (raw : U16) (dst : Rgba8) (other : U16) : Prop :=
  MixesTo (rgb888 raw).1 dst.r dst.a (rgb888 other).1 ∧
    MixesTo (rgb888 raw).2.1 dst.g dst.a (rgb888 other).2.1 ∧
    MixesTo (rgb888 raw).2.2 dst.b dst.a (rgb888 other).2.2

theorem rgb_mixShows_iff (raw : U16) (dst : Rgba8) (other : U16) :
    (overBackground raw dst).rgb = rgb888 other ↔ MixShows raw dst other := by
  rw [MixShows, ← overChannel_mixesTo_iff, ← overChannel_mixesTo_iff, ← overChannel_mixesTo_iff]
  exact Prod.ext_iff.trans (and_congr_right fun _ => Prod.ext_iff)

/-- The pixels drawn on since the frame began, and the last background laid under it: the DMA data
and the framebuffer before that. -/
structure Exposure where
  covered : List Pixel := []
  overlay : Option (List U8 × Framebuffer) := none

def Exposure.laid (e : Exposure) (rgb565 : List U8) (fb : Framebuffer) : Exposure :=
  if rgb565.length < fbWidth * fbHeight * 2 then e else { e with overlay := some (rgb565, fb) }

structure ExposedGl where
  gl : LiveGlState
  exposure : Exposure := {}

namespace ExposedGl

def step (s : ExposedGl) (event : LiveGlEvent) : Option ExposedGl :=
  some
    { gl := s.gl.apply event
      exposure := match event with
        | .resetForFrame => { s.exposure with overlay := none }
        | .beginFrame => {}
        | .draw draw =>
          let exposure := if s.gl.Begins then {} else s.exposure
          { exposure with covered := exposure.covered ++ draw.fragments.map Prod.fst }
        | .overlayDma rgb565 => s.exposure.laid rgb565 s.gl.framebuffer
        | .refuseDraw | .completeFrame => s.exposure }

/-- Where the framebuffer has what is shown at a pixel. -/
def shownFrom (s : ExposedGl) (p : Pixel) : Pixel := if s.gl.flips then mirror p else p

/-- A completed frame with a background shows it at each pixel without a draw. -/
def ShowsBackground (s : ExposedGl) : LiveGlEvent → Prop
  | .completeFrame => s.gl.frameActive = true → ∀ rgb565 left,
      s.exposure.overlay = some (rgb565, left) → ∀ p, s.shownFrom p ∉ s.exposure.covered →
        (s.gl.completeFrame.1.presentedBuffer p).rgb = rgb888 (dmaPixel rgb565 p)
  | _ => True

/-- The background comes through what was left at each pixel without a draw; where the frame is
flipped, that of the mirrored row comes to the colour of this one. -/
def CleanlyLaid (s : ExposedGl) : LiveGlEvent → Prop
  | .completeFrame => s.gl.frameActive = true → ∀ rgb565 left,
      s.exposure.overlay = some (rgb565, left) → ∀ p, s.shownFrom p ∉ s.exposure.covered →
        if s.gl.flips then
          MixShows (dmaPixel rgb565 (mirror p)) (left (mirror p)) (dmaPixel rgb565 p)
        else BackgroundShows (dmaPixel rgb565 p) (left p)
  | _ => True

/-- Where nothing was drawn, the framebuffer has the background over what was left. -/
def Painted (s : ExposedGl) : Prop :=
  ∀ rgb565 left, s.exposure.overlay = some (rgb565, left) → s.gl.hasDmaOverlay = true ∧
    ∀ p, p ∉ s.exposure.covered →
      s.gl.framebuffer p = overBackground (dmaPixel rgb565 p) (left p)

theorem Painted.step {s s' : ExposedGl} {event : LiveGlEvent} (painted : s.Painted)
    (next : s.step event = some s') : s'.Painted := by
  cases next
  cases event with
  | resetForFrame | beginFrame => exact nofun
  | draw draw =>
    obtain ⟨_, framebuffer, hasDmaOverlay⟩ := s.gl.liveDraw_frame draw
    by_cases begins : s.gl.Begins
    · simp only [if_pos begins]
      exact nofun
    · simp only [if_neg begins]
      intro rgb565 left laid
      obtain ⟨noted, before⟩ := painted rgb565 left laid
      refine ⟨(hasDmaOverlay begins).trans noted, fun p uncovered => ?_⟩
      rw [List.mem_append, not_or] at uncovered
      rw [← before p uncovered.1]
      exact (congrFun framebuffer p).trans (foldl_putFragment _ _ uncovered.2)
  | refuseDraw =>
    obtain ⟨_, framebuffer, hasDmaOverlay⟩ := s.gl.liveFinalizeDraws_frame []
    intro rgb565 left laid
    obtain ⟨noted, before⟩ := painted rgb565 left laid
    exact ⟨hasDmaOverlay.trans noted, fun p uncovered =>
      (congrFun framebuffer p).trans (before p uncovered)⟩
  | overlayDma data =>
    simp only [LiveGlState.apply, LiveGlState.overlayDmaRgb565, Exposure.laid]
    by_cases short : data.length < fbWidth * fbHeight * 2
    · simp only [if_pos short]
      exact fun rgb565 left laid => ⟨rfl, (painted rgb565 left laid).2⟩
    · simp only [if_neg short]
      intro rgb565 left laid
      cases laid
      exact ⟨rfl, fun _ _ => rfl⟩
  | completeFrame =>
    obtain ⟨_, framebuffer, hasDmaOverlay, _⟩ := s.gl.completeFrame_frame
    intro rgb565 left laid
    obtain ⟨noted, before⟩ := painted rgb565 left laid
    exact ⟨hasDmaOverlay.trans noted, fun p uncovered =>
      (congrFun framebuffer p).trans (before p uncovered)⟩

theorem present_eq (s : ExposedGl) (p : Pixel) : s.gl.present p = s.gl.framebuffer (s.shownFrom p) := by
  unfold LiveGlState.present shownFrom
  split
  · exact flipVerticalInPlace_eq s.gl.framebuffer p
  · rfl

theorem Painted.shows_iff {s : ExposedGl} (painted : s.Painted) (event : LiveGlEvent) :
    s.ShowsBackground event ↔ s.CleanlyLaid event := by
  cases event with
  | completeFrame =>
    refine imp_congr_right fun active => forall₂_congr fun rgb565 left => forall_congr' fun laid =>
      forall₂_congr fun p uncovered => ?_
    obtain ⟨noted, before⟩ := painted rgb565 left laid
    rw [LiveGlState.completeFrame_presentedBuffer active noted, present_eq, before _ uncovered,
      shownFrom]
    split
    · exact rgb_mixShows_iff _ _ _
    · exact rgb_overBackground_iff _ _
  | resetForFrame | beginFrame | draw | refuseDraw | overlayDma => exact Iff.rfl

/-- Every completed frame of a run shows its background where nothing was drawn, exactly when each
background is laid under what lets it through, the right way up. -/
theorem background_shown_iff (presentVflip gateB continuousCapture : Bool)
    (events : List LiveGlEvent) :
    BeforeEach step ShowsBackground { gl := .new presentVflip gateB continuousCapture } events ↔
      BeforeEach step CleanlyLaid { gl := .new presentVflip gateB continuousCapture } events :=
  beforeEach_iff (I := Painted) (fun _ _ _ painted next => painted.step next)
    (fun _ event painted => painted.shows_iff event) events nofun

def solid (b : U8) : List U8 := List.replicate (fbWidth * fbHeight * 2) b

theorem solid_full (b : U8) : ¬ (solid b).length < fbWidth * fbHeight * 2 := by
  rw [solid, List.length_replicate]
  exact Nat.lt_irrefl _

theorem dmaPixel_solid (b : U8) (p : Pixel) : dmaPixel (solid b) p = leU16 b b := by
  have row : p.1.val < 240 := p.1.isLt
  have column : p.2.val < 320 := p.2.isLt
  have inside : srcIdx p + 1 < fbWidth * fbHeight * 2 := by
    change (p.1.val * 320 + p.2.val) * 2 + 1 < 153600
    omega
  rw [dmaPixel, solid, List.getD_eq_getElem?_getD, List.getD_eq_getElem?_getD,
    List.getElem?_replicate_of_lt (by omega), List.getElem?_replicate_of_lt inside]
  rfl

theorem laid_solid (e : Exposure) (b : U8) (fb : Framebuffer) :
    e.laid (solid b) fb = { e with overlay := some (solid b, fb) } := by
  unfold Exposure.laid
  exact if_neg (solid_full b)

theorem apply_overlay_solid (s : LiveGlState) (b : U8) :
    s.apply (.overlayDma (solid b)) =
      { s with
        hasDmaOverlay := true
        framebuffer := fun p => overBackground (dmaPixel (solid b) p) (s.framebuffer p) } :=
  LiveGlState.overlayDmaRgb565_full (solid_full b) s

def corner : Pixel := (⟨0, by decide⟩, ⟨0, by decide⟩)

theorem shown_upright {s : ExposedGl} (shows : s.ShowsBackground .completeFrame)
    (active : s.gl.frameActive = true) (noted : s.gl.hasDmaOverlay = true)
    (upright : s.gl.flips = false) {rgb565 : List U8} {left : Framebuffer}
    (laid : s.exposure.overlay = some (rgb565, left)) {p : Pixel}
    (uncovered : p ∉ s.exposure.covered) :
    (s.gl.framebuffer p).rgb = rgb888 (dmaPixel rgb565 p) := by
  have same : s.shownFrom p = p := if_neg (by simp [upright])
  have shown := shows active rgb565 left laid p (same.symm ▸ uncovered)
  rwa [LiveGlState.completeFrame_presentedBuffer active noted, present_eq, same] at shown

/-- Over what is opaque and white, a black background does not show. -/
theorem black_over_white {s : ExposedGl} (white : s.gl.framebuffer corner = .white)
    (upright : s.gl.flips = false) :
    ¬ BeforeEach step ShowsBackground s [.beginFrame, .overlayDma (solid 0x00), .completeFrame] := by
  rintro ⟨_, later⟩
  obtain ⟨_, later⟩ := later _ rfl
  obtain ⟨shows, _⟩ := later _ rfl
  dsimp only at shows
  rw [apply_overlay_solid, laid_solid] at shows
  have black : (overBackground (dmaPixel (solid 0x00) corner)
      (s.gl.beginFrame.1.framebuffer corner)).rgb = rgb888 (dmaPixel (solid 0x00) corner) :=
    shown_upright shows s.gl.beginFrame_frameActive rfl (s.gl.beginFrame_frame.2.2.trans upright) rfl
      List.not_mem_nil
  rw [s.gl.beginFrame_frame.2.1, white, dmaPixel_solid] at black
  revert black
  decide

/-- A black background after a white one: the white one stays. -/
theorem old_background_shines_through :
    ¬ BeforeEach step ShowsBackground { gl := .new false false false }
      [.beginFrame, .overlayDma (solid 0xff), .completeFrame, .beginFrame, .overlayDma (solid 0x00),
        .completeFrame] := by
  rintro ⟨_, later⟩
  obtain ⟨_, later⟩ := later _ rfl
  obtain ⟨_, later⟩ := later _ rfl
  refine black_over_white ?_ ?_ (later _ rfl)
  · rw [apply_overlay_solid]
    change (LiveGlState.completeFrame _).1.framebuffer corner = _
    rw [(LiveGlState.completeFrame_frame _).2.1]
    change overBackground (dmaPixel (solid 0xff) corner) .clear = .white
    rw [dmaPixel_solid]
    decide
  · rw [apply_overlay_solid]
    exact (LiveGlState.completeFrame_frame _).2.2.2

end ExposedGl

end Clicky
