import Clicky.Eapp.LiveGl
import Clicky.Lib.Runs

/-! The composition of one colour over another, whose weights are rounded before the mean of the
channels is: when the mean stays between the two. -/
namespace Clicky
open Runs

inductive Channel where
  | red | green | blue
  deriving DecidableEq, Repr

def Rgba8.channel (p : Rgba8) : Channel → Nat
  | .red => p.r.toNat
  | .green => p.g.toNat
  | .blue => p.b.toNat

namespace Blend

/-- The weight of the destination in the output alpha: to the nearest unit. -/
def destWeight (sa da : Nat) : Nat := (da * (255 - sa) + 127) / 255

def outAlpha (sa da : Nat) : Nat := sa + destWeight sa da

/-- What the destination contributes to a channel, which is rounded down. -/
def contribution (sa da d : Nat) : Nat := d * da * (255 - sa) / 255

/-- A channel, before it is narrowed to a byte. -/
def mean (sa da c d : Nat) : Nat :=
  (c * sa + contribution sa da d + outAlpha sa da / 2) / outAlpha sa da

/-- The destination contributes more than its rounded weight does, or less, by no more than half a
unit of the mean, or than the distance of the two channels makes up for. -/
def Balanced (sa da c d : Nat) : Prop :=
  let half := outAlpha sa da / 2
  let excess : Int := contribution sa da d - d * destWeight sa da
  let lowRoom := (c - min c d) * sa + (d - min c d) * destWeight sa da
  let highRoom := (max c d - c) * sa + (max c d - d) * destWeight sa da
  0 ≤ excess + half + lowRoom ∧ excess + half < outAlpha sa da + highRoom

theorem mean_between_iff {sa da : Nat} (visible : 0 < outAlpha sa da) (c d : Nat) :
    min c d ≤ mean sa da c d ∧ mean sa da c d ≤ max c d ↔ Balanced sa da c d := by
  have upper (most : Nat) : mean sa da c d ≤ most ↔
      c * sa + contribution sa da d + outAlpha sa da / 2 < (most + 1) * outAlpha sa da := by
    rw [mean, ← Nat.lt_succ_iff, Nat.div_lt_iff_lt_mul visible]
  rw [upper, mean, Nat.le_div_iff_mul_le visible]
  unfold Balanced
  have total : outAlpha sa da = sa + destWeight sa da := rfl
  rcases Nat.le_total c d with up | down
  · have source : c * sa ≤ d * sa := Nat.mul_le_mul_right _ up
    have dest : c * destWeight sa da ≤ d * destWeight sa da := Nat.mul_le_mul_right _ up
    have least : c * outAlpha sa da = c * sa + c * destWeight sa da := Nat.mul_add ..
    have most : d * outAlpha sa da = d * sa + d * destWeight sa da := Nat.mul_add ..
    simp only [Nat.min_eq_left up, Nat.max_eq_right up, Nat.sub_self, Nat.zero_mul, Nat.sub_mul,
      Nat.add_mul, Nat.one_mul]
    push_cast
    omega
  · have source : d * sa ≤ c * sa := Nat.mul_le_mul_right _ down
    have dest : d * destWeight sa da ≤ c * destWeight sa da := Nat.mul_le_mul_right _ down
    have least : d * outAlpha sa da = d * sa + d * destWeight sa da := Nat.mul_add ..
    have most : c * outAlpha sa da = c * sa + c * destWeight sa da := Nat.mul_add ..
    simp only [Nat.min_eq_right down, Nat.max_eq_left down, Nat.sub_self, Nat.zero_mul, Nat.sub_mul,
      Nat.add_mul, Nat.one_mul]
    push_cast
    omega

theorem outAlpha_le {sa da : Nat} (source : sa ≤ 255) (dest : da ≤ 255) : outAlpha sa da ≤ 255 := by
  have most : da * (255 - sa) ≤ 255 * (255 - sa) := Nat.mul_le_mul_right _ dest
  unfold outAlpha destWeight
  omega

theorem contribution_le (sa da d : Nat) :
    255 * contribution sa da d ≤ 255 * (d * destWeight sa da) + 127 * d := by
  have rounded : da * (255 - sa) ≤ 255 * destWeight sa da + 127 := by
    unfold destWeight
    omega
  have scaled : d * (da * (255 - sa)) ≤ d * (255 * destWeight sa da + 127) :=
    Nat.mul_le_mul_left d rounded
  have down : 255 * contribution sa da d ≤ d * (da * (255 - sa)) := by
    rw [contribution, Nat.mul_assoc d]
    exact Nat.mul_div_le _ _
  have parts : d * (255 * destWeight sa da + 127) = 255 * (d * destWeight sa da) + 127 * d := by
    rw [Nat.mul_add, Nat.mul_left_comm, Nat.mul_comm d 127]
  omega

/-- A mean that is too great for a byte does not come to lie between the channels when it is
narrowed. -/
theorem mean_lt_of_wrapped {sa da c d : Nat} (visible : 0 < sa) (source : c ≤ 255) (dest : d ≤ 255) :
    mean sa da c d < 256 + min c d := by
  have total : outAlpha sa da = sa + destWeight sa da := rfl
  have bound := contribution_le sa da d
  rw [mean, Nat.div_lt_iff_lt_mul (by omega)]
  rcases Nat.le_total c d with up | down
  · have most : d * destWeight sa da ≤ 255 * destWeight sa da := Nat.mul_le_mul_right _ dest
    have product : (256 + c) * outAlpha sa da =
        256 * sa + 256 * destWeight sa da + (c * sa + c * destWeight sa da) := by
      rw [total, Nat.add_mul, Nat.mul_add, Nat.mul_add]
    rw [Nat.min_eq_left up, product]
    omega
  · have most : c * sa ≤ 255 * sa := Nat.mul_le_mul_right _ source
    have least : d * 1 ≤ d * sa := Nat.mul_le_mul_left _ visible
    have product : (256 + d) * outAlpha sa da =
        256 * sa + 256 * destWeight sa da + (d * sa + d * destWeight sa da) := by
      rw [total, Nat.add_mul, Nat.mul_add, Nat.mul_add]
    rw [Nat.min_eq_right down, product]
    omega

theorem narrowed_between_iff {sa da c d : Nat} (visible : 0 < sa) (source : c ≤ 255) (dest : d ≤ 255) :
    min c d ≤ mean sa da c d % 256 ∧ mean sa da c d % 256 ≤ max c d ↔ Balanced sa da c d := by
  have some_alpha : 0 < outAlpha sa da := Nat.lt_of_lt_of_le visible (Nat.le_add_right _ _)
  have bound : mean sa da c d < 256 + min c d := mean_lt_of_wrapped visible source dest
  rw [← mean_between_iff some_alpha]
  constructor
  · rintro ⟨low, high⟩
    have fits : mean sa da c d % 256 = mean sa da c d := by omega
    rw [← fits]
    exact ⟨low, high⟩
  · rintro ⟨low, high⟩
    have fits : mean sa da c d % 256 = mean sa da c d := by omega
    rw [fits]
    exact ⟨low, high⟩

/-- The part of the destination's weight that is rounded off, in 255ths. -/
def weightError (sa da : Nat) : Int := (da * (255 - sa) : Nat) - 255 * (destWeight sa da : Nat)

/-- For two opacities, the mean stays in range for all channels when the part that is rounded off is
no more than half of the output's opacity. -/
theorem balanced_of_weightError {sa da c d : Nat} (dest : d ≤ 255)
    (low : -(outAlpha sa da : Int) ≤ 2 * weightError sa da)
    (high : 2 * weightError sa da < outAlpha sa da) : Balanced sa da c d := by
  have whole : 255 * contribution sa da d + d * da * (255 - sa) % 255 = d * da * (255 - sa) :=
    Nat.div_add_mod _ _
  have rest : d * da * (255 - sa) % 255 < 255 := Nat.mod_lt _ (by decide)
  have split : ((d * da * (255 - sa) : Nat) : Int) =
      255 * ((d : Int) * destWeight sa da) + d * weightError sa da := by
    rw [weightError, Nat.mul_assoc, Int.mul_sub, Int.mul_left_comm (d : Int) 255]
    push_cast
    omega
  have scaled : min 0 (255 * weightError sa da) ≤ d * weightError sa da ∧
      d * weightError sa da ≤ max 0 (255 * weightError sa da) := by
    rcases Int.le_total 0 (weightError sa da) with positive | negative
    · have least : 0 ≤ d * weightError sa da := Int.mul_nonneg (by omega) positive
      have most : d * weightError sa da ≤ 255 * weightError sa da :=
        Int.mul_le_mul_of_nonneg_right (by omega) positive
      omega
    · have least : 255 * weightError sa da ≤ d * weightError sa da :=
        Int.mul_le_mul_of_nonpos_right (by omega) negative
      have most : d * weightError sa da ≤ 0 := Int.mul_nonpos_of_nonneg_of_nonpos (by omega) negative
      omega
  dsimp only [Balanced]
  omega

theorem weightError_of_balanced {sa da : Nat} (balanced : Balanced sa da 255 255) :
    -(outAlpha sa da : Int) ≤ 2 * weightError sa da ∧
      2 * weightError sa da < outAlpha sa da := by
  have whole : contribution sa da 255 = da * (255 - sa) := by
    rw [contribution, Nat.mul_assoc, Nat.mul_div_cancel_left _ (by decide)]
  dsimp only [Balanced] at balanced
  rw [whole, Nat.min_self, Nat.max_self, Nat.sub_self, Nat.zero_mul, Nat.zero_mul] at balanced
  unfold weightError
  omega

theorem balanced_all_iff (sa da : Nat) :
    (∀ c ≤ 255, ∀ d ≤ 255, Balanced sa da c d) ↔
      -(outAlpha sa da : Int) ≤ 2 * weightError sa da ∧
        2 * weightError sa da < outAlpha sa da := by
  constructor
  · exact fun all => weightError_of_balanced (all 255 (Nat.le_refl _) 255 (Nat.le_refl _))
  · exact fun small c _ d dest => balanced_of_weightError dest small.1 small.2

theorem mean_full (da c d : Nat) : mean 255 da c d = c := by
  have alpha : outAlpha 255 da = 255 := by
    rw [outAlpha, destWeight, Nat.sub_self, Nat.mul_zero]
  rw [mean, alpha, contribution, Nat.sub_self, Nat.mul_zero]
  omega

theorem mean_transparent {da : Nat} (some_alpha : 0 < da) (c d : Nat) :
    outAlpha 0 da = da ∧ mean 0 da c d = d := by
  have weight : destWeight 0 da = da := by
    unfold destWeight
    omega
  have alpha : outAlpha 0 da = da := by rw [outAlpha, weight, Nat.zero_add]
  have whole : contribution 0 da d = da * d := by
    rw [contribution, Nat.sub_zero, Nat.mul_div_cancel _ (by decide), Nat.mul_comm]
  refine ⟨alpha, ?_⟩
  rw [mean, alpha, whole, Nat.mul_zero, Nat.zero_add, Nat.mul_add_div some_alpha,
    Nat.div_eq_of_lt (Nat.div_lt_self some_alpha (by decide))]
  rfl

theorem mean_over_nothing {sa : Nat} (visible : 0 < sa) (c d : Nat) :
    outAlpha sa 0 = sa ∧ mean sa 0 c d = c := by
  have alpha : outAlpha sa 0 = sa := by
    rw [outAlpha, destWeight, Nat.zero_mul]
    rfl
  have none_left : contribution sa 0 d = 0 := by
    rw [contribution, Nat.mul_zero, Nat.zero_mul]
  refine ⟨alpha, ?_⟩
  rw [mean, alpha, none_left, Nat.add_zero, Nat.mul_comm, Nat.mul_add_div visible,
    Nat.div_eq_of_lt (Nat.div_lt_self visible (by decide))]
  rfl

end Blend

namespace Rgba8
open Blend

theorem channel_le (p : Rgba8) (ch : Channel) : p.channel ch ≤ 255 := by
  have range (v : U8) : v.toNat ≤ 255 := Nat.le_of_lt_succ v.isLt
  cases ch <;> exact range _

theorem ext_channel {p q : Rgba8} (channels : ∀ ch, p.channel ch = q.channel ch)
    (alpha : p.a.toNat = q.a.toNat) : p = q := by
  cases p
  cases q
  congr
  · exact BitVec.eq_of_toNat_eq (channels .red)
  · exact BitVec.eq_of_toNat_eq (channels .green)
  · exact BitVec.eq_of_toNat_eq (channels .blue)
  · exact BitVec.eq_of_toNat_eq alpha

theorem channel_blend {dst src : Rgba8} (visible : outAlpha src.a.toNat dst.a.toNat ≠ 0)
    (ch : Channel) : (blendSrcOver dst src).channel ch =
      mean src.a.toNat dst.a.toNat (src.channel ch) (dst.channel ch) % 256 := by
  unfold outAlpha destWeight at visible
  simp only [blendSrcOver, if_neg visible]
  cases ch <;> exact BitVec.toNat_ofNat _ 8

theorem alpha_blend {dst src : Rgba8} (visible : outAlpha src.a.toNat dst.a.toNat ≠ 0) :
    (blendSrcOver dst src).a.toNat = outAlpha src.a.toNat dst.a.toNat := by
  have bound := outAlpha_le (Nat.le_of_lt_succ src.a.isLt) (Nat.le_of_lt_succ dst.a.isLt)
  have fits := Nat.mod_eq_of_lt (Nat.lt_succ_of_le bound)
  unfold outAlpha destWeight at visible
  simp only [blendSrcOver, if_neg visible, BitVec.toNat_ofNat]
  exact fits

/-- A channel of what comes out lies between those of what goes in. -/
def Between (dst src : Rgba8) (ch : Channel) : Prop :=
  min (src.channel ch) (dst.channel ch) ≤ (blendSrcOver dst src).channel ch ∧
    (blendSrcOver dst src).channel ch ≤ max (src.channel ch) (dst.channel ch)

structure BlendsRight (dst src : Rgba8) : Prop where
  range : src.a ≠ 0 → dst.a ≠ 0 → ∀ ch, Between dst src ch
  alpha : outAlpha src.a.toNat dst.a.toNat ≤ 255
  full_source : src.a = 255 → blendSrcOver dst src = src
  transparent_source : src.a = 0 → dst.a = 255 → blendSrcOver dst src = dst

/-- The rounding of the weights does not carry a channel out of its range. -/
def BalancedOver (dst src : Rgba8) : Prop :=
  src.a ≠ 0 → dst.a ≠ 0 →
    ∀ ch, Balanced src.a.toNat dst.a.toNat (src.channel ch) (dst.channel ch)

theorem toNat_pos {v : U8} (nonzero : v ≠ 0) : 0 < v.toNat :=
  Nat.pos_of_ne_zero fun zero => nonzero (BitVec.eq_of_toNat_eq zero)

theorem between_iff {dst src : Rgba8} (visible : src.a ≠ 0) (ch : Channel) :
    Between dst src ch ↔
      Balanced src.a.toNat dst.a.toNat (src.channel ch) (dst.channel ch) := by
  have positive := toNat_pos visible
  have some_alpha : outAlpha src.a.toNat dst.a.toNat ≠ 0 := by
    unfold outAlpha
    omega
  rw [Between, channel_blend some_alpha]
  exact narrowed_between_iff positive (src.channel_le ch) (dst.channel_le ch)

theorem blend_full {dst src : Rgba8} (full_source : src.a = 255) : blendSrcOver dst src = src := by
  have full : src.a.toNat = 255 := by
    rw [full_source]
    rfl
  have alpha : outAlpha 255 dst.a.toNat = 255 := by
    rw [outAlpha, destWeight, Nat.sub_self, Nat.mul_zero]
  have visible : outAlpha src.a.toNat dst.a.toNat ≠ 0 := by
    rw [full, alpha]
    decide
  apply ext_channel
  · intro ch
    rw [channel_blend visible, full, mean_full]
    exact Nat.mod_eq_of_lt (Nat.lt_succ_of_le (src.channel_le ch))
  · rw [alpha_blend visible, full, alpha]

/-- What is fully transparent leaves alone what is not. -/
theorem blend_transparent {dst src : Rgba8} (transparent : src.a = 0) (some_alpha : dst.a ≠ 0) :
    blendSrcOver dst src = dst := by
  have none_left : src.a.toNat = 0 := by
    rw [transparent]
    rfl
  have positive := toNat_pos some_alpha
  have kept (c d : Nat) := mean_transparent positive c d
  have visible : outAlpha src.a.toNat dst.a.toNat ≠ 0 := by
    rw [none_left, (kept 0 0).1]
    omega
  apply ext_channel
  · intro ch
    rw [channel_blend visible, none_left, (kept _ _).2]
    exact Nat.mod_eq_of_lt (Nat.lt_succ_of_le (dst.channel_le ch))
  · rw [alpha_blend visible, none_left, (kept 0 0).1]

theorem blendsRight_iff (dst src : Rgba8) : BlendsRight dst src ↔ BalancedOver dst src := by
  constructor
  · exact fun right visible some_alpha ch => (between_iff visible ch).mp
      (right.range visible some_alpha ch)
  · intro balanced
    refine ⟨fun visible some_alpha ch => (between_iff visible ch).mpr (balanced visible some_alpha ch),
      ?_, blend_full, ?_⟩
    · exact outAlpha_le (Nat.le_of_lt_succ src.a.isLt) (Nat.le_of_lt_succ dst.a.isLt)
    · intro transparent full
      apply blend_transparent transparent
      rw [full]
      decide

theorem channel_over_nothing {dst src : Rgba8} (visible : src.a ≠ 0) (nothing : dst.a = 0)
    (ch : Channel) : (blendSrcOver dst src).channel ch = src.channel ch := by
  have none_there : dst.a.toNat = 0 := by
    rw [nothing]
    rfl
  have positive := toNat_pos visible
  have shown := mean_over_nothing positive (src.channel ch) (dst.channel ch)
  have some_alpha : outAlpha src.a.toNat dst.a.toNat ≠ 0 := by
    rw [none_there, shown.1]
    omega
  rw [channel_blend some_alpha, none_there, shown.2]
  exact Nat.mod_eq_of_lt (Nat.lt_succ_of_le (src.channel_le ch))

theorem channel_of_nothing {dst src : Rgba8} (transparent : src.a = 0) (nothing : dst.a = 0)
    (ch : Channel) : (blendSrcOver dst src).channel ch = 0 := by
  have cleared : blendSrcOver dst src = .clear := by
    simp only [blendSrcOver, transparent, nothing]
    rfl
  rw [cleared]
  cases ch <;> rfl

/-- A fragment without opacity over a pixel without any makes it black as well. -/
def KeepsRange (dst src : Rgba8) : Prop :=
  BalancedOver dst src ∧
    (src.a = 0 → dst.a = 0 → ∀ ch, src.channel ch = 0 ∨ dst.channel ch = 0)

theorem between_all_iff (dst src : Rgba8) : (∀ ch, Between dst src ch) ↔ KeepsRange dst src := by
  by_cases transparent : src.a = 0
  · have balanced : BalancedOver dst src := fun visible => absurd transparent visible
    by_cases nothing : dst.a = 0
    · have black (ch : Channel) : Between dst src ch ↔ src.channel ch = 0 ∨ dst.channel ch = 0 := by
        rw [Between, channel_of_nothing transparent nothing]
        omega
      simp only [black]
      exact ⟨fun all => ⟨balanced, fun _ _ => all⟩, fun keeps => keeps.2 transparent nothing⟩
    · refine iff_of_true ?_ ⟨balanced, fun _ impossible => absurd impossible nothing⟩
      intro ch
      rw [Between, blend_transparent transparent nothing]
      exact ⟨Nat.min_le_right _ _, Nat.le_max_right _ _⟩
  · by_cases nothing : dst.a = 0
    · refine iff_of_true ?_ ⟨fun _ some_alpha => absurd nothing some_alpha,
        fun impossible => absurd impossible transparent⟩
      intro ch
      rw [Between, channel_over_nothing transparent nothing]
      exact ⟨Nat.min_le_left _ _, Nat.le_max_left _ _⟩
    · simp only [between_iff transparent]
      exact ⟨fun all => ⟨fun _ _ => all, fun impossible => absurd impossible transparent⟩,
        fun keeps => keeps.1 transparent nothing⟩

def blendStep (pixel src : Rgba8) : Option Rgba8 := some (blendSrcOver pixel src)

/-- A channel of a colour is in a range. -/
def Within (lo hi : Nat) (ch : Channel) (p : Rgba8) : Prop := lo ≤ p.channel ch ∧ p.channel ch ≤ hi

theorem Between.within {dst src : Rgba8} {ch : Channel} (between : Between dst src ch) {lo hi : Nat}
    (before : dst.Within lo hi ch) (drawn : src.Within lo hi ch) :
    (blendSrcOver dst src).Within lo hi ch :=
  ⟨Nat.le_trans (Nat.le_min.mpr ⟨drawn.1, before.1⟩) between.1,
    Nat.le_trans between.2 (Nat.max_le.mpr ⟨drawn.2, before.2⟩)⟩

theorem foldl_within {pixel : Rgba8} {colours : List Rgba8}
    (keeps : BeforeEach blendStep KeepsRange pixel colours) {lo hi : Nat} {ch : Channel}
    (before : pixel.Within lo hi ch) (all : ∀ src ∈ colours, src.Within lo hi ch) :
    (colours.foldl blendSrcOver pixel).Within lo hi ch := by
  induction colours generalizing pixel with
  | nil => exact before
  | cons src colours ih =>
    have between := (between_all_iff pixel src).mpr keeps.1 ch
    apply ih (keeps.2 _ rfl)
    · exact between.within before (all src List.mem_cons_self)
    · exact fun later member => all later (List.mem_cons_of_mem src member)

end Rgba8

open Rgba8 in
/-- The mean of two channels stays between them exactly when the rounding of their weights is
balanced. Where it is in each fragment that falls on a pixel, nothing leaves the range of the
fragments and of what was there. -/
theorem blending_in_range (dst src : Rgba8) (fb : Framebuffer) (p : Pixel)
    (fragments : List (Pixel × Rgba8)) :
    (BlendsRight dst src ↔ BalancedOver dst src) ∧
      (BeforeEach blendStep KeepsRange (fb p) (colours p fragments) →
        ∀ (ch : Channel) (lo hi : Nat), (fb p).Within lo hi ch →
          (∀ colour ∈ colours p fragments, colour.Within lo hi ch) →
          (fragments.foldl LiveGlState.putFragment fb p).Within lo hi ch) := by
  refine ⟨blendsRight_iff dst src, ?_⟩
  intro keeps ch lo hi before all
  rw [foldl_putFragment_at]
  exact foldl_within keeps before all

def spot : Pixel := (⟨1, by decide⟩, ⟨1, by decide⟩)

/-- Red that is half transparent, over white. -/
theorem red_over_white_in_range :
    ([(spot, ⟨255, 0, 0, 128⟩)].foldl LiveGlState.putFragment (fun _ => .white) spot).Within
      255 255 .red := by
  apply (blending_in_range .white ⟨255, 0, 0, 128⟩ (fun _ => .white) spot
    [(spot, ⟨255, 0, 0, 128⟩)]).2
  · refine ⟨⟨fun _ _ ch => ?_, nofun⟩, fun _ _ => trivial⟩
    cases ch <;> exact ⟨by decide, by decide⟩
  · exact ⟨by decide, by decide⟩
  · intro colour member
    rw [List.mem_singleton.mp member]
    exact ⟨by decide, by decide⟩

/-- White that hardly shows, over a white that is half transparent, comes out black. -/
theorem white_wraps_to_black :
    ¬ Rgba8.BlendsRight ⟨255, 255, 255, 128⟩ ⟨255, 255, 255, 1⟩ := by
  intro right
  have between := right.range (by decide) (by decide) .red
  exact absurd between.1 (by decide)

end Clicky
