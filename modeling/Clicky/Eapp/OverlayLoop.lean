import Clicky.Eapp.Flip
import Clicky.Lib.Attempt

/-! The loop that lays the background of the DMA framebuffer under what is drawn. -/
namespace Clicky.Flat

variable {α : Type}

def u32Overflow (operation : String) : String := "attempt to " ++ operation ++ " with overflow"

def subU32 (a b : U32) : Except String U32 :=
  if b ≤ a then .ok (a - b) else .error (u32Overflow "subtract")

def addU32 (a b : U32) : Except String U32 :=
  if a.toNat + b.toNat < 2 ^ 32 then .ok (a + b) else .error (u32Overflow "add")

def mulU32 (a b : U32) : Except String U32 :=
  if a.toNat * b.toNat < 2 ^ 32 then .ok (a * b) else .error (u32Overflow "multiply")

def get (l : List α) (i : Nat) : Except String α :=
  match l[i]? with
  | some a => .ok a
  | none => .error indexOutOfBounds

def put (l : List α) (i : Nat) (a : α) : Except String (List α) :=
  if i < l.length then .ok (l.set i a) else .error indexOutOfBounds

/-- A channel of the destination over a channel of the background. -/
def mixChannel (background invA dst alpha : U32) : Except String U8 := do
  let below ← mulU32 background invA
  let above ← mulU32 dst alpha
  let sum ← addU32 below above
  return (sum.udiv 255).setWidth 8

/-- The body of the loops. -/
def overlayPixel (rgb565 : List U8) (y : Nat) (framebuffer : List Rgba8) (x : Nat) :
    Except String (List Rgba8) := do
  let srcIdx := (y * fbWidth + x) * 2
  let raw := leU16 (← get rgb565 srcIdx) (← get rgb565 (srcIdx + 1))
  let (r8, g8, b8) := rgb888 raw
  let dst ← get framebuffer (y * fbWidth + x)
  let alpha := dst.a.setWidth 32
  let invA ← subU32 255 alpha
  let outR ← mixChannel (r8.setWidth 32) invA (dst.r.setWidth 32) alpha
  let outG ← mixChannel (g8.setWidth 32) invA (dst.g.setWidth 32) alpha
  let outB ← mixChannel (b8.setWidth 32) invA (dst.b.setWidth 32) alpha
  put framebuffer (y * fbWidth + x) ⟨outR, outG, outB, 255⟩

def overlayDmaRgb565 (framebuffer : List Rgba8) (rgb565 : List U8) : Except String (List Rgba8) :=
  if rgb565.length < fbWidth * fbHeight * 2 then .ok framebuffer
  else (List.range fbHeight).foldlM (fun framebuffer y =>
    (List.range fbWidth).foldlM (overlayPixel rgb565 y) framebuffer) framebuffer

theorem mulU32_ok {a b : U32} {product : Nat} (value : a.toNat * b.toNat = product)
    (small : product < 2 ^ 32) : mulU32 a b = .ok (BitVec.ofNat 32 product) := by
  subst value
  rw [mulU32, if_pos small]
  exact congrArg _ (BitVec.eq_of_toNat_eq rfl)

theorem addU32_ok {a b : U32} {sum : Nat} (value : a.toNat + b.toNat = sum)
    (small : sum < 2 ^ 32) : addU32 a b = .ok (BitVec.ofNat 32 sum) := by
  subst value
  rw [addU32, if_pos small]
  exact congrArg _ (BitVec.eq_of_toNat_eq rfl)

/-- The products of bytes and their sum are small. -/
theorem mixChannel_ok (background dst alpha : U8) : mixChannel (background.setWidth 32)
      (255 - alpha.setWidth 32) (dst.setWidth 32) (alpha.setWidth 32) =
    .ok (overChannel background dst alpha) := by
  have low : background.toNat ≤ 255 := Nat.le_of_lt_succ background.isLt
  have high : dst.toNat ≤ 255 := Nat.le_of_lt_succ dst.isLt
  have share : alpha.toNat ≤ 255 := Nat.le_of_lt_succ alpha.isLt
  have wide (b : U8) : (b.setWidth 32).toNat = b.toNat := by
    rw [BitVec.toNat_setWidth]
    exact Nat.mod_eq_of_lt (by omega)
  have rest : ((255 : U32) - alpha.setWidth 32).toNat = 255 - alpha.toNat := by
    rw [BitVec.toNat_sub_of_le (by rw [BitVec.le_def, wide]; exact share), wide]
    rfl
  have below : background.toNat * (255 - alpha.toNat) ≤ 255 * 255 :=
    Nat.mul_le_mul low (Nat.sub_le 255 _)
  have above : dst.toNat * alpha.toNat ≤ 255 * 255 := Nat.mul_le_mul high share
  have small (n : Nat) (fits : n ≤ 2 * (255 * 255)) : (BitVec.ofNat 32 n).toNat = n :=
    Nat.mod_eq_of_lt (by omega)
  rw [mixChannel, mulU32_ok (by rw [wide, rest]) (by omega), Except.ok_bind,
    mulU32_ok (by rw [wide, wide]) (by omega), Except.ok_bind,
    addU32_ok (by rw [small _ (by omega), small _ (by omega)]) (by omega), Except.ok_bind]
  refine congrArg Except.ok (BitVec.eq_of_toNat_eq ?_)
  rw [overChannel, BitVec.toNat_setWidth, BitVec.udiv_eq, BitVec.toNat_udiv, small _ (by omega),
    BitVec.toNat_ofNat]
  rfl

theorem subU32_alpha (alpha : U8) :
    subU32 255 (alpha.setWidth 32) = .ok (255 - alpha.setWidth 32) := by
  have share : alpha.toNat ≤ 255 := Nat.le_of_lt_succ alpha.isLt
  refine if_pos ?_
  rw [BitVec.le_def, BitVec.toNat_setWidth, Nat.mod_eq_of_lt (by omega)]
  exact share

theorem get_ok {l : List α} {i : Nat} {a : α} (found : l[i]? = some a) : get l i = .ok a := by
  rw [get, found]

theorem get_getD {l : List α} {i : Nat} (inside : i < l.length) (a : α) :
    get l i = .ok (l.getD i a) :=
  get_ok (by rw [List.getElem?_eq_getElem inside, List.getD_eq_getElem _ _ inside])

/-- The place of a pixel in memory. -/
def place (p : Pixel) : Nat := p.1.val * fbWidth + p.2.val

theorem place_lt (p : Pixel) : place p < fbWidth * fbHeight := by
  rw [Nat.mul_comm]
  exact Nat.place_lt p.1.isLt p.2.isLt

theorem place_inj {p q : Pixel} : place p = place q ↔ p = q := by
  rw [place, place, Nat.place_eq_iff p.2.isLt q.2.isLt, Prod.ext_iff, Fin.ext_iff, Fin.ext_iff]

theorem overlayPixel_ok {rgb565 : List U8} (whole : fbWidth * fbHeight * 2 ≤ rgb565.length)
    {fb : List Rgba8} (p : Pixel) {dst : Rgba8} (found : fb[place p]? = some dst) :
    overlayPixel rgb565 p.1 fb p.2 =
      .ok (fb.set (place p) (overBackground (dmaPixel rgb565 p) dst)) := by
  have inside := place_lt p
  have low : srcIdx p < rgb565.length := by
    change place p * 2 < _
    omega
  have high : srcIdx p + 1 < rgb565.length := by
    change place p * 2 + 1 < _
    omega
  have here : place p < fb.length := (List.getElem?_eq_some_iff.mp found).1
  have first : get rgb565 ((p.1.val * fbWidth + p.2.val) * 2) = .ok (rgb565.getD (srcIdx p) 0) :=
    get_getD low 0
  have second : get rgb565 ((p.1.val * fbWidth + p.2.val) * 2 + 1) =
      .ok (rgb565.getD (srcIdx p + 1) 0) := get_getD high 0
  have third : get fb (p.1.val * fbWidth + p.2.val) = .ok dst := get_ok found
  unfold overlayPixel
  dsimp only
  rw [first, Except.ok_bind, second, Except.ok_bind, third, Except.ok_bind, subU32_alpha,
    Except.ok_bind, mixChannel_ok, Except.ok_bind, mixChannel_ok, Except.ok_bind, mixChannel_ok,
    Except.ok_bind]
  exact if_pos here

/-- The pixels before a place lie over the background, the others are as they were. -/
structure LaidTo (rgb565 : List U8) (fb : Framebuffer) (done : Nat) (out : List Rgba8) : Prop where
  full : out.length = fbWidth * fbHeight
  each : ∀ p : Pixel, out[place p]? =
    some (if place p < done then overBackground (dmaPixel rgb565 p) (fb p) else fb p)

theorem overlayPixel_laid {rgb565 : List U8} (whole : fbWidth * fbHeight * 2 ≤ rgb565.length)
    {fb : Framebuffer} {out : List Rgba8} (p : Pixel) (laid : LaidTo rgb565 fb (place p) out) :
    ∃ out', overlayPixel rgb565 p.1 out p.2 = .ok out' ∧ LaidTo rgb565 fb (place p + 1) out' := by
  have found := laid.each p
  rw [if_neg (Nat.lt_irrefl _)] at found
  refine ⟨_, overlayPixel_ok whole p found, List.length_set.trans laid.full, fun q => ?_⟩
  by_cases same : q = p
  · subst same
    rw [List.getElem?_set_self (laid.full ▸ place_lt q), if_pos (Nat.lt_succ_self _)]
  · have apart : place p ≠ place q := fun equal => same (place_inj.mp equal).symm
    have later : place q < place p + 1 ↔ place q < place p := by omega
    rw [List.getElem?_set_ne apart, laid.each q]
    simp only [later]

theorem overlayDmaRgb565_whole {rgb565 : List U8} (whole : fbWidth * fbHeight * 2 ≤ rgb565.length)
    (fb : Framebuffer) : overlayDmaRgb565 (flat fb) rgb565 =
      .ok (flat fun p => overBackground (dmaPixel rgb565 p) (fb p)) := by
  have start : LaidTo rgb565 fb 0 (flat fb) :=
    ⟨length_flat _, fun p => by rw [if_neg (Nat.not_lt_zero _)]; exact getElem?_flat _ p⟩
  have each (y : Nat) (row : y < fbHeight) (x : Nat) (column : x < fbWidth) (out : List Rgba8)
      (laid : LaidTo rgb565 fb (y * fbWidth + x) out) :
      ∃ out', overlayPixel rgb565 y out x = .ok out' ∧
        LaidTo rgb565 fb (y * fbWidth + x + 1) out' :=
    overlayPixel_laid whole (⟨y, row⟩, ⟨x, column⟩) laid
  obtain ⟨out, ran, laid⟩ := List.foldlM_grid_ok (LaidTo rgb565 fb) start each
  unfold overlayDmaRgb565
  rw [if_neg (Nat.not_lt.mpr whole), ran]
  refine congrArg _ (eq_flat laid.full fun p => (laid.each p).trans ?_)
  have before : place p < fbHeight * fbWidth := Nat.mul_comm fbWidth fbHeight ▸ place_lt p
  rw [if_pos before]

theorem overlayDmaRgb565_short {rgb565 : List U8} (short : rgb565.length < fbWidth * fbHeight * 2)
    (framebuffer : List Rgba8) : overlayDmaRgb565 framebuffer rgb565 = .ok framebuffer := if_pos short

/-- The loops compute what is stated for each pixel. -/
theorem overlayDmaRgb565_flat (s : LiveGlState) (rgb565 : List U8) :
    overlayDmaRgb565 (flat s.framebuffer) rgb565 =
      .ok (flat (s.overlayDmaRgb565 rgb565).framebuffer) := by
  unfold LiveGlState.overlayDmaRgb565
  dsimp only
  split
  · rename_i short
    exact overlayDmaRgb565_short short _
  · rename_i whole
    exact overlayDmaRgb565_whole (Nat.le_of_not_lt whole) s.framebuffer

/-- A channel that is made of two lies between them, and is one of them at either end of alpha. -/
structure Composed (background dst alpha out : U8) : Prop where
  low : min background.toNat dst.toNat ≤ out.toNat
  high : out.toNat ≤ max background.toNat dst.toNat
  clear : alpha = 0 → out = background
  solid : alpha = 255 → out = dst

theorem composed_overChannel (background dst alpha : U8) :
    Composed background dst alpha (overChannel background dst alpha) := by
  have share : alpha.toNat ≤ 255 := Nat.le_of_lt_succ alpha.isLt
  have value := toNat_overChannel background dst alpha
  have weights (c : Nat) : c * (255 - alpha.toNat) + c * alpha.toNat = c * 255 := by
    rw [← Nat.mul_add, Nat.sub_add_cancel share]
  constructor
  · rw [value, Nat.le_div_iff_mul_le (by decide), ← weights]
    exact Nat.add_le_add (Nat.mul_le_mul_right _ (Nat.min_le_left _ _))
      (Nat.mul_le_mul_right _ (Nat.min_le_right _ _))
  · rw [value]
    apply Nat.div_le_of_le_mul
    rw [Nat.mul_comm 255, ← weights]
    exact Nat.add_le_add (Nat.mul_le_mul_right _ (Nat.le_max_left _ _))
      (Nat.mul_le_mul_right _ (Nat.le_max_right _ _))
  · rintro rfl
    exact (overChannel_eq_iff _ _ _).mpr (.inl rfl)
  · rintro rfl
    rw [← BitVec.toNat_inj, value]
    exact Nat.div_eq_of_eq_mul_left (by decide) (by rw [← weights]; simp)

/-- A pixel over the background pixel. -/
structure LaidOver (raw : U16) (dst out : Rgba8) : Prop where
  red : Composed (rgb888 raw).1 dst.r dst.a out.r
  green : Composed (rgb888 raw).2.1 dst.g dst.a out.g
  blue : Composed (rgb888 raw).2.2 dst.b dst.a out.b
  isOpaque : out.a = 255

theorem laidOver_overBackground (raw : U16) (dst : Rgba8) :
    LaidOver raw dst (overBackground raw dst) :=
  ⟨composed_overChannel _ _ _, composed_overChannel _ _ _, composed_overChannel _ _ _, rfl⟩

/-- Over another background, an opaque pixel stays as it is. -/
theorem overBackground_solid (raw : U16) {dst : Rgba8} (isOpaque : dst.a = 255) :
    overBackground raw dst = dst := by
  have same := laidOver_overBackground raw dst
  have red := same.red.solid isOpaque
  have green := same.green.solid isOpaque
  have blue := same.blue.solid isOpaque
  have alpha : (overBackground raw dst).a = dst.a := isOpaque.symm
  cases dst
  exact Rgba8.mk.injEq _ _ _ _ _ _ _ _ ▸ ⟨red, green, blue, alpha⟩

/-- The background comes under each pixel once: the framebuffer is opaque after that, and another
background changes nothing. -/
theorem overlay_projects (fb : Framebuffer) (rgb565 : List U8) :
    if fbWidth * fbHeight * 2 ≤ rgb565.length then
      ∃ out : Framebuffer, overlayDmaRgb565 (flat fb) rgb565 = .ok (flat out) ∧
        (∀ p, LaidOver (dmaPixel rgb565 p) (fb p) (out p)) ∧
        ∀ again : List U8, overlayDmaRgb565 (flat out) again = .ok (flat out)
    else overlayDmaRgb565 (flat fb) rgb565 = .ok (flat fb) := by
  split
  · rename_i whole
    refine ⟨_, overlayDmaRgb565_whole whole fb, fun p => laidOver_overBackground _ _, fun again => ?_⟩
    by_cases short : again.length < fbWidth * fbHeight * 2
    · exact overlayDmaRgb565_short short _
    · rw [overlayDmaRgb565_whole (Nat.le_of_not_lt short)]
      simp only [overBackground_solid _ (laidOver_overBackground _ _).isOpaque]
  · rename_i short
    exact overlayDmaRgb565_short (Nat.lt_of_not_le short) _

end Clicky.Flat
