import Clicky.Eapp.TextureUpload
import Clicky.Lib.Sweep

/-! Whether the texture of an upload has the pixels that its size declares, so that all of it can be
drawn. -/
namespace Clicky

/-- What `floor` makes of a coordinate. -/
inductive FlooredF32 where
  | nan | negInf | int (n : Int) | posInf
  deriving DecidableEq, Repr

/-- The nearest number of so many significant bits. Of two that are as near, it is the one whose last
bit is zero. -/
def roundBits (bits n : Nat) : Nat :=
  let unit := 2 ^ (n.log2 + 1 - bits)
  if unit < 2 * (n % unit) ∨ 2 * (n % unit) = unit ∧ n / unit % 2 = 1 then (n / unit + 1) * unit
  else n / unit * unit

/-- `as f32`: there are 24 bits for the number. -/
def asF32 (n : Nat) : Nat := roundBits 24 n

example : asF32 0x1000001 = 0x1000000 ∧ asF32 0x1000003 = 0x1000004 := by decide

/-- `clamp(0.0, last)`, and `as usize`. -/
def FlooredF32.clampTo (last : Nat) : FlooredF32 → Nat
  | .nan => 0
  | .negInf => 0
  | .int n => min n.toNat last
  | .posInf => last

def pixelOutOfBounds : String := "index out of bounds"

def sampleNearest (texture : Texture) (u v : FlooredF32) : Except String Rgba8 :=
  let x := u.clampTo (asF32 (texture.width - 1))
  let y := v.clampTo (asF32 (texture.height - 1))
  match texture.pixels[y * texture.width + x]? with
  | some px => .ok px
  | none => .error pixelOutOfBounds

/-- The greatest coordinates come to a pixel. A float has 24 bits, and may be past the last one. -/
def Sampleable (width height : Nat) : Prop :=
  asF32 (height - 1) * width + asF32 (width - 1) < width * height

theorem FlooredF32.clampTo_le (last : Nat) (c : FlooredF32) : c.clampTo last ≤ last := by
  cases c with
  | nan | negInf => exact Nat.zero_le last
  | int n => exact Nat.min_le_right _ _
  | posInf => exact Nat.le_refl last

/-- A texture with all of its pixels is sampled anywhere if it is at the greatest coordinates. -/
theorem sampleNearest_iff {t : Texture} (full : t.pixels.length = t.width * t.height) :
    (∀ u v, ∃ px, sampleNearest t u v = .ok px) ↔ Sampleable t.width t.height := by
  unfold Sampleable
  rw [← full]
  constructor
  · intro each
    obtain ⟨px, sampled⟩ := each .posInf .posInf
    unfold sampleNearest at sampled
    dsimp only [FlooredF32.clampTo] at sampled
    split at sampled
    · rename_i found
      exact (List.getElem?_eq_some_iff.mp found).1
    · cases sampled
  · intro last u v
    have row := Nat.mul_le_mul_right t.width (v.clampTo_le (asF32 (t.height - 1)))
    have column := u.clampTo_le (asF32 (t.width - 1))
    have inside := Nat.lt_of_le_of_lt (Nat.add_le_add row column) last
    unfold sampleNearest
    dsimp only
    rw [List.getElem?_eq_getElem inside]
    exact ⟨_, rfl⟩

/-- What the guest passes on the stack, or zero where that cannot be read. -/
structure EappBus.Passes {imageSize : Nat} (b : EappBus imageSize) (sp : U32)
    (height sourceFormat pixelType sourcePtr : U32) : Prop where
  height : (b.readGuestU32OrZero sp).Gives height
  sourceFormat : (b.readGuestU32OrZero (sp + 0x08)).Gives sourceFormat
  pixelType : (b.readGuestU32OrZero (sp + 0x0c)).Gives pixelType
  sourcePtr : (b.readGuestU32OrZero (sp + 0x10)).Gives sourcePtr

/-- The upload ends without an overflow, is skipped if its payload is not mapped, and gives a
texture of the declared size if it is accepted. -/
structure EappGl.Declares {imageSize : Nat} (s : EappGl imageSize) (lg : LiveGlState) (sp : U32)
    (args : GuestArgs) (height sourcePtr : U32) (format : TextureFormat) : Prop where
  countable : s.liveHandleUpload sp args ≠ .error multiplyOverflow
  skipped : ¬ s.bus.Mapped sourcePtr (args.r3.toNat * height.toNat * format.bytesPerPixel) →
    s.liveHandleUpload sp args = .ok s
  declared : ∀ s' u, s.liveHandleUpload sp args = .ok s' →
    s'.liveGl.map (·.uploads) = some (lg.uploads ++ [u]) →
    ∃ t, u.texture = some t ∧ t.width = args.r3.toNat ∧ t.height = height.toNat ∧
      t.pixels.length = t.width * t.height ∧ ∀ x y, ∃ px, sampleNearest t x y = .ok px

theorem length_chunksExact2 {α : Type} (f : U8 → U8 → α) (raw : List U8) :
    (chunksExact2 f raw).length = raw.length / 2 := by
  fun_induction chunksExact2 f raw with
  | case1 b0 b1 rest ih =>
    rw [List.length_cons, ih, List.length_cons, List.length_cons]
    omega
  | case2 raw short =>
    have few : raw.length < 2 := by
      rcases raw with _ | ⟨b0, _ | ⟨b1, rest⟩⟩
      · exact Nat.zero_lt_two
      · exact Nat.one_lt_two
      · exact (short b0 b1 rest rfl).elim
    rw [Nat.div_eq_of_lt few]
    rfl

theorem length_chunksExact4 {α : Type} (f : U8 → U8 → U8 → U8 → α) (raw : List U8) :
    (chunksExact4 f raw).length = raw.length / 4 := by
  fun_induction chunksExact4 f raw with
  | case1 b0 b1 b2 b3 rest ih =>
    rw [List.length_cons, ih, List.length_cons, List.length_cons, List.length_cons,
      List.length_cons]
    omega
  | case2 raw short =>
    have few : raw.length < 4 := by
      rcases raw with _ | ⟨b0, _ | ⟨b1, _ | ⟨b2, _ | ⟨b3, rest⟩⟩⟩⟩
      · exact Nat.succ_pos 3
      · exact Nat.succ_lt_succ (Nat.succ_pos 2)
      · exact Nat.lt_of_sub_pos (Nat.succ_pos 1)
      · exact Nat.lt_succ_self 3
      · exact (short b0 b1 b2 b3 rest rfl).elim
    rw [Nat.div_eq_of_lt few]
    rfl

theorem length_decodeTexturePixels {raw : List U8} {width height : Nat} {format : TextureFormat}
    {a8Tint : Rgba8} {pixels : List Rgba8}
    (decoded : decodeTexturePixels raw width height format a8Tint = some pixels) :
    pixels.length = width * height := by
  unfold decodeTexturePixels at decoded
  split at decoded
  · rename_i size
    cases format with
    | rgb565 | rgba5551 | rgba4444 | luminanceAlpha88 =>
      cases decoded
      rw [length_chunksExact2, size]
      exact Nat.mul_div_cancel _ Nat.zero_lt_two
    | rgba8888 =>
      cases decoded
      rw [length_chunksExact4, size]
      exact Nat.mul_div_cancel _ (Nat.succ_pos 3)
    | a8 =>
      cases decoded
      rw [List.length_map, size]
      exact Nat.mul_one _
  · cases decoded

theorem TextureFormat.bytesPerPixel_pos (format : TextureFormat) : 0 < format.bytesPerPixel := by
  cases format <;> decide

theorem TextureFormat.bytesPerPixel_le (format : TextureFormat) : format.bytesPerPixel ≤ 4 := by
  cases format <;> decide

theorem pixPayloadSize_of_small {format : TextureFormat} {width height : Nat}
    (small : width * height * format.bytesPerPixel < 2 ^ 63) :
    pixPayloadSize format width height = some (width * height * format.bytesPerPixel) :=
  if_pos (Nat.lt_trans small (by decide))

/-- Bytes of the right number become a texture of the declared size. -/
theorem fromBytes_declared {raw : List U8} {width height : Nat} {format : TextureFormat}
    (size : raw.length = width * height * format.bytesPerPixel) (a8Tint : Rgba8) :
    ∃ t, Texture.fromBytes raw width height format a8Tint = some t ∧ t.width = width ∧
      t.height = height ∧ t.pixels.length = t.width * t.height := by
  have possible := (fromBytes_isSome_iff raw width height format a8Tint).mpr size
  obtain ⟨t, made⟩ := Option.isSome_iff_exists.mp possible
  have decoded := made
  rw [Texture.fromBytes, Option.map_eq_some_iff] at decoded
  obtain ⟨pixels, decoded, rfl⟩ := decoded
  exact ⟨_, made, rfl, rfl, length_decodeTexturePixels decoded⟩

namespace EappBus

variable {imageSize : Nat} {b : EappBus imageSize}

/-- Nothing is mapped at the null address. -/
theorem byte?_null (b : EappBus imageSize) : b.byte? 0 = none := by
  have unmapped : b.r8 0 = .raise b .unexpected := by
    have image : ¬ (fileVmaBase ≤ 0 ∧ (0 : U32) - fileVmaBase < b.imageLen) := fun inside =>
      absurd inside.1 (by decide)
    rw [r8, read, if_neg image]
    rfl
  rw [byte?, unmapped]
  rfl

/-- So many addresses contain the null address. -/
theorem not_mapped_of_huge {addr : U32} {len : Nat} (huge : 2 ^ 32 ≤ len) : ¬ b.Mapped addr len := by
  intro mapped
  have back := mapped (-addr).toNat (Nat.lt_of_lt_of_le (-addr).isLt huge)
  have null : addr + -addr = 0 := BitVec.add_right_neg addr
  rw [BitVec.ofNat_toNat, BitVec.setWidth_eq, null, byte?_null] at back
  cases back

/-- What is mapped is below 2^32 bytes, so that the bytes of its pixels can be counted. -/
theorem pixels_small {addr : U32} {area : Nat} {format : TextureFormat}
    (mapped : b.Mapped addr (area * format.bytesPerPixel)) : area * 4 < 2 ^ 63 := by
  have size := Nat.lt_of_not_le fun huge => not_mapped_of_huge huge mapped
  have pixels := Nat.le_mul_of_pos_right area format.bytesPerPixel_pos
  omega

section
variable {hostLimit : Nat} {sp : U32} {args : GuestArgs} {height sourceFormat pixelType sourcePtr : U32}
  {format : TextureFormat} (passes : b.Passes sp height sourceFormat pixelType sourcePtr)
  (supported : formatFromGl sourceFormat pixelType = some format)
include passes

theorem uploadRequest_invalid (invalid : sourcePtr = 0 ∨ args.r3 = 0 ∨ height = 0) :
    (b.uploadRequest hostLimit sp args).run = .ok none := by
  unfold uploadRequest
  dsimp only
  rw [passes.height.run_bind, passes.sourceFormat.run_bind, passes.pixelType.run_bind,
    passes.sourcePtr.run_bind]
  have stops : (guard (¬ (sourcePtr = 0 ∨ args.r3 = 0 ∨ height = 0)) : Attempt String Unit) = failure :=
    if_neg (not_not.mpr invalid)
  rw [stops]
  rfl

include supported

/-- What is left to do after the checks. -/
theorem uploadRequest_valid (valid : ¬ (sourcePtr = 0 ∨ args.r3 = 0 ∨ height = 0)) :
    (b.uploadRequest hostLimit sp args).run =
      match pixPayloadSize format args.r3.toNat height.toNat with
      | some expected => (do
          let payload ← b.readGuestBytes hostLimit sourcePtr expected
          guard (payload.length = expected)
          withCapacity hostLimit (args.r3.toNat * height.toNat * 4)
          return { target := args.r0, width := args.r3, height, sourceFormat, pixelType, sourcePtr,
                   payload } : Attempt String UploadRequest).run
      | none => .error multiplyOverflow := by
  unfold uploadRequest
  dsimp only
  rw [passes.height.run_bind, passes.sourceFormat.run_bind, passes.pixelType.run_bind,
    passes.sourcePtr.run_bind]
  have goes : (guard (¬ (sourcePtr = 0 ∨ args.r3 = 0 ∨ height = 0)) : Attempt String Unit).Gives () := by
    rw [guard, if_pos valid]
    rfl
  have known : Attempt.Gives
      (OptionT.mk (pure (formatFromGl sourceFormat pixelType) : Except String _)) format := by
    rw [supported]
    rfl
  rw [goes.run_bind, known.run_bind]
  cases pixPayloadSize format args.r3.toNat height.toNat with
  | none => rfl
  | some expected => rfl

theorem uploadRequest_uncountable (valid : ¬ (sourcePtr = 0 ∨ args.r3 = 0 ∨ height = 0))
    (huge : 2 ^ 63 ≤ args.r3.toNat * height.toNat * format.bytesPerPixel) :
    (b.uploadRequest hostLimit sp args).run = .error
      (if args.r3.toNat * height.toNat * format.bytesPerPixel < 2 ^ 64 then capacityOverflow
      else multiplyOverflow) := by
  rw [uploadRequest_valid passes supported valid]
  by_cases counted : args.r3.toNat * height.toNat * format.bytesPerPixel < 2 ^ 64
  · have size : pixPayloadSize format args.r3.toNat height.toNat =
        some (args.r3.toNat * height.toNat * format.bytesPerPixel) := if_pos counted
    have fails : withCapacity hostLimit (args.r3.toNat * height.toNat * format.bytesPerPixel) =
        Attempt.fail capacityOverflow := if_pos huge
    rw [size, if_pos counted]
    dsimp only
    rw [readGuestBytes, fails]
    rfl
  · have size : pixPayloadSize format args.r3.toNat height.toNat = none := if_neg counted
    rw [size, if_neg counted]

section
variable (valid : ¬ (sourcePtr = 0 ∨ args.r3 = 0 ∨ height = 0))
  (small : args.r3.toNat * height.toNat * format.bytesPerPixel < 2 ^ 63)
include valid small

theorem uploadRequest_refused
    (refused : hostLimit < args.r3.toNat * height.toNat * format.bytesPerPixel) :
    (b.uploadRequest hostLimit sp args).run = .error allocationFailed := by
  rw [uploadRequest_valid passes supported valid, pixPayloadSize_of_small small]
  dsimp only
  rw [readGuestBytes_refused small refused]
  rfl

section
variable (granted : args.r3.toNat * height.toNat * format.bytesPerPixel ≤ hostLimit)
include granted

theorem uploadRequest_unmapped
    (unmapped : ¬ b.Mapped sourcePtr (args.r3.toNat * height.toNat * format.bytesPerPixel)) :
    (b.uploadRequest hostLimit sp args).run = .ok none := by
  rw [uploadRequest_valid passes supported valid, pixPayloadSize_of_small small]
  dsimp only
  rw [OptionT.run_bind, readGuestBytes_unmapped small granted unmapped]
  rfl

variable (mapped : b.Mapped sourcePtr (args.r3.toNat * height.toNat * format.bytesPerPixel))
include mapped

theorem uploadRequest_pixels_refused (refused : hostLimit < args.r3.toNat * height.toNat * 4) :
    (b.uploadRequest hostLimit sp args).run = .error allocationFailed := by
  have gives := gives_bytesAt small granted mapped
  have fails := withCapacity_refused (pixels_small mapped) refused
  rw [uploadRequest_valid passes supported valid, pixPayloadSize_of_small small]
  dsimp only
  rw [gives.run_bind, guard, if_pos (b.length_bytesAt sourcePtr _), fails]
  rfl

theorem uploadRequest_mapped (room : args.r3.toNat * height.toNat * 4 ≤ hostLimit) :
    ∃ payload : List U8, (b.uploadRequest hostLimit sp args).run = .ok (some
        { target := args.r0, width := args.r3, height, sourceFormat, pixelType, sourcePtr, payload }) ∧
      payload.length = args.r3.toNat * height.toNat * format.bytesPerPixel := by
  have gives := gives_bytesAt small granted mapped
  have pixels := gives_withCapacity (pixels_small mapped) room
  refine ⟨_, ?_, b.length_bytesAt sourcePtr _⟩
  rw [uploadRequest_valid passes supported valid, pixPayloadSize_of_small small]
  dsimp only
  rw [gives.run_bind, guard, if_pos (b.length_bytesAt sourcePtr _)]
  exact pixels.run_bind _

end
end
end

end EappBus

theorem LiveGlState.buildUpload_declared {request : UploadRequest} {format : TextureFormat}
    (supported : formatFromGl request.sourceFormat request.pixelType = some format)
    (small : request.width.toNat * request.height.toNat * format.bytesPerPixel < 2 ^ 63)
    (whole : request.payload.length =
      request.width.toNat * request.height.toNat * format.bytesPerPixel)
    (index : Nat) (texName : Option U32) :
    ∃ t, (LiveGlState.buildUpload index request texName).texture = some t ∧
      t.width = request.width.toNat ∧ t.height = request.height.toNat ∧
      t.pixels.length = t.width * t.height := by
  obtain ⟨t, made, declared⟩ := fromBytes_declared whole .white
  refine ⟨t, ?_, declared⟩
  have size : pixPayloadSize format request.width.toNat request.height.toNat =
      some request.payload.length := by
    rw [whole, pixPayloadSize_of_small small]
  unfold buildUpload
  dsimp only
  rw [supported, Option.bind_some, size, Option.bind_some, if_neg (Nat.lt_irrefl _), List.take_length,
    made]

namespace EappGl

variable {imageSize : Nat} {s : EappGl imageSize} {sp : U32} {args : GuestArgs}

theorem liveHandleUpload_ok {found : Option UploadRequest}
    (ran : (s.bus.uploadRequest s.hostLimit sp args).run = .ok found) :
    s.liveHandleUpload sp args = .ok (s.withFound .pushUpload found) := by
  rw [liveHandleUpload, ran]
  rfl

theorem liveHandleUpload_error {m : String}
    (ran : (s.bus.uploadRequest s.hostLimit sp args).run = .error m) :
    s.liveHandleUpload sp args = .error m := by
  rw [liveHandleUpload, ran]
  rfl

/-- A call that is skipped is sound. -/
theorem declares_of_skipped {lg : LiveGlState} (live : s.liveGl = some lg)
    (skipped : s.liveHandleUpload sp args = .ok s) (height sourcePtr : U32)
    (format : TextureFormat) : s.Declares lg sp args height sourcePtr format := by
  refine ⟨fun overflow => ?_, fun _ => skipped, fun s' u ends accepted => ?_⟩
  · rw [skipped] at overflow
    cases overflow
  · cases skipped.symm.trans ends
    have longer := congrArg List.length (Option.some.inj (live ▸ accepted))
    rw [List.length_append] at longer
    exact absurd longer (Nat.ne_of_lt (Nat.lt_succ_self _))

/-- Where the host does not grant the buffers, nothing is accepted. -/
theorem declares_of_refused {sourcePtr height : U32} {format : TextureFormat}
    (mapped : s.bus.Mapped sourcePtr (args.r3.toNat * height.toNat * format.bytesPerPixel))
    (refused : s.liveHandleUpload sp args = .error allocationFailed) (lg : LiveGlState) :
    s.Declares lg sp args height sourcePtr format := by
  refine ⟨fun overflow => ?_, fun unmapped => absurd mapped unmapped, fun s' u ends _ => ?_⟩
  · exact absurd (Except.error.inj (refused.symm.trans overflow)) (by decide)
  · rw [refused] at ends
    cases ends

/-- A texture that is accepted has the declared size, so that it depends on the rounding of the last
row and column whether all of it can be drawn. -/
theorem declares_of_mapped {lg : LiveGlState} (live : s.liveGl = some lg) {request : UploadRequest}
    {format : TextureFormat} (supported : formatFromGl request.sourceFormat request.pixelType = some format)
    (small : request.width.toNat * request.height.toNat * format.bytesPerPixel < 2 ^ 63)
    (whole : request.payload.length =
      request.width.toNat * request.height.toNat * format.bytesPerPixel)
    (width : request.width = args.r3)
    (ran : (s.bus.uploadRequest s.hostLimit sp args).run = .ok (some request))
    (mapped : s.bus.Mapped request.sourcePtr
      (args.r3.toNat * request.height.toNat * format.bytesPerPixel)) :
    s.Declares lg sp args request.height request.sourcePtr format ↔
      Sampleable args.r3.toNat request.height.toNat := by
  have ended := liveHandleUpload_ok ran
  obtain ⟨t, made, wide, high, full⟩ := LiveGlState.buildUpload_declared supported small whole
    lg.uploads.length lg.pendingTexName
  have pushed : (s.withFound .pushUpload (some request)).liveGl.map (·.uploads) =
      some (lg.uploads ++ [LiveGlState.buildUpload lg.uploads.length request lg.pendingTexName]) := by
    rw [withFound, live]
    rfl
  rw [width] at wide
  constructor
  · intro declares
    obtain ⟨t', made', _, _, _, sampled⟩ := declares.declared _ _ ended pushed
    cases made.symm.trans made'
    rw [← wide, ← high]
    exact (sampleNearest_iff full).mp sampled
  · intro sampleable
    refine ⟨fun overflow => ?_, fun unmapped => absurd mapped unmapped, fun s' u ends accepted => ?_⟩
    · rw [ended] at overflow
      cases overflow
    · cases ended.symm.trans ends
      have same := Option.some.inj (pushed.symm.trans accepted)
      cases List.append_cancel_left same
      rw [← wide, ← high] at sampleable
      exact ⟨t, made, wide, high, full, (sampleNearest_iff full).mpr sampleable⟩

theorem declares_of_mapped_iff {lg : LiveGlState} (live : s.liveGl = some lg)
    {height sourceFormat pixelType sourcePtr : U32}
    (passes : s.bus.Passes sp height sourceFormat pixelType sourcePtr) {format : TextureFormat}
    (supported : formatFromGl sourceFormat pixelType = some format)
    (valid : ¬ (sourcePtr = 0 ∨ args.r3 = 0 ∨ height = 0))
    (small : args.r3.toNat * height.toNat * format.bytesPerPixel < 2 ^ 63)
    (mapped : s.bus.Mapped sourcePtr (args.r3.toNat * height.toNat * format.bytesPerPixel)) :
    s.Declares lg sp args height sourcePtr format ↔
      (args.r3.toNat * height.toNat * 4 ≤ s.hostLimit → Sampleable args.r3.toNat height.toNat) := by
  have fewer : args.r3.toNat * height.toNat * format.bytesPerPixel ≤
      args.r3.toNat * height.toNat * 4 := Nat.mul_le_mul_left _ format.bytesPerPixel_le
  by_cases room : args.r3.toNat * height.toNat * 4 ≤ s.hostLimit
  · rw [forall_prop_of_true room]
    obtain ⟨payload, ran, whole⟩ := EappBus.uploadRequest_mapped passes supported valid small
      (Nat.le_trans fewer room) mapped room
    exact declares_of_mapped live supported small whole rfl ran mapped
  · refine iff_of_true (declares_of_refused mapped (liveHandleUpload_error ?_) lg) fun granted =>
      absurd granted room
    by_cases granted : args.r3.toNat * height.toNat * format.bytesPerPixel ≤ s.hostLimit
    · exact EappBus.uploadRequest_pixels_refused passes supported valid small granted mapped
        (Nat.lt_of_not_le room)
    · exact EappBus.uploadRequest_refused passes supported valid small (Nat.lt_of_not_le granted)

/-- The call is sound exactly if the payload can be counted, the host grants a buffer for one that is
not mapped, and a texture that is mapped has no coordinates past its end. -/
theorem declares_iff {lg : LiveGlState} (live : s.liveGl = some lg)
    {height sourceFormat pixelType sourcePtr : U32}
    (passes : s.bus.Passes sp height sourceFormat pixelType sourcePtr) {format : TextureFormat}
    (supported : formatFromGl sourceFormat pixelType = some format) :
    s.Declares lg sp args height sourcePtr format ↔
      (sourcePtr = 0 ∨ args.r3 = 0 ∨ height = 0) ∨
      args.r3.toNat * height.toNat * format.bytesPerPixel < 2 ^ 63 ∧
        (¬ s.bus.Mapped sourcePtr (args.r3.toNat * height.toNat * format.bytesPerPixel) →
          args.r3.toNat * height.toNat * format.bytesPerPixel ≤ s.hostLimit) ∧
        (s.bus.Mapped sourcePtr (args.r3.toNat * height.toNat * format.bytesPerPixel) →
          args.r3.toNat * height.toNat * 4 ≤ s.hostLimit →
            Sampleable args.r3.toNat height.toNat) := by
  by_cases invalid : sourcePtr = 0 ∨ args.r3 = 0 ∨ height = 0
  · have skipped := liveHandleUpload_ok (EappBus.uploadRequest_invalid passes invalid)
    exact iff_of_true (declares_of_skipped live skipped _ _ _) (.inl invalid)
  · rw [or_iff_right invalid]
    by_cases small : args.r3.toNat * height.toNat * format.bytesPerPixel < 2 ^ 63
    · rw [and_iff_right small]
      by_cases mapped : s.bus.Mapped sourcePtr (args.r3.toNat * height.toNat * format.bytesPerPixel)
      · rw [and_iff_right fun unmapped => absurd mapped unmapped, forall_prop_of_true mapped]
        exact declares_of_mapped_iff live passes supported invalid small mapped
      · rw [and_iff_left fun here => absurd here mapped, forall_prop_of_true mapped]
        constructor
        · intro declares
          refine Nat.le_of_not_lt fun refused => ?_
          have failed := liveHandleUpload_error
            (EappBus.uploadRequest_refused passes supported invalid small refused)
          rw [declares.skipped mapped] at failed
          cases failed
        · intro granted
          exact declares_of_skipped live (liveHandleUpload_ok
            (EappBus.uploadRequest_unmapped passes supported invalid small granted mapped)) _ _ _
    · have failed := liveHandleUpload_error (EappBus.uploadRequest_uncountable passes supported invalid
        (Nat.le_of_not_lt small))
      refine iff_of_false (fun declares => ?_) fun both => small both.1
      by_cases counted : args.r3.toNat * height.toNat * format.bytesPerPixel < 2 ^ 64
      · have unmapped : ¬ s.bus.Mapped sourcePtr
            (args.r3.toNat * height.toNat * format.bytesPerPixel) :=
          EappBus.not_mapped_of_huge (Nat.le_trans (by decide) (Nat.le_of_not_lt small))
        rw [declares.skipped unmapped] at failed
        cases failed
      · rw [if_neg counted] at failed
        exact declares.countable failed

/-- On the stack: a height of 2^31, a format with four bytes a pixel, and an address. -/
def hugeImage : List U8 :=
  [0, 0, 0, 0x80, 0, 0, 0, 0, 0x08, 0x19, 0, 0, 0x01, 0x14, 0, 0, 0, 0, 0, 0x18]

/-- The host grants up to 2^32 bytes. -/
def hugeGl : EappGl 20 := .start (.start ⟨hugeImage, rfl⟩) (some ⟨false, false, false⟩) (2 ^ 32)

theorem hugeGl_passes : hugeGl.bus.Passes 0x18000000 0x80000000 0x1908 0x1401 0x18000000 :=
  ⟨rfl, rfl, rfl, rfl⟩

theorem huge_texture_declares_iff :
    hugeGl.Declares (.new false false false) 0x18000000 ⟨0xde1, 0, 0, 0x80000000⟩ 0x80000000
        0x18000000 .rgba8888 ↔
      ((0x18000000 : U32) = 0 ∨ (0x80000000 : U32) = 0 ∨ (0x80000000 : U32) = 0) ∨
      2 ^ 31 * 2 ^ 31 * 4 < 2 ^ 63 ∧
        (¬ hugeGl.bus.Mapped 0x18000000 (2 ^ 31 * 2 ^ 31 * 4) → 2 ^ 31 * 2 ^ 31 * 4 ≤ 2 ^ 32) ∧
        (hugeGl.bus.Mapped 0x18000000 (2 ^ 31 * 2 ^ 31 * 4) → 2 ^ 31 * 2 ^ 31 * 4 ≤ 2 ^ 32 →
          Sampleable (2 ^ 31) (2 ^ 31)) :=
  declares_iff rfl hugeGl_passes rfl

/-- The number of bytes is 2^64. -/
theorem huge_texture_overflows :
    ¬ ∀ (s : EappGl 20) lg sp (args : GuestArgs) height sourceFormat pixelType sourcePtr format,
      s.liveGl = some lg → s.bus.Passes sp height sourceFormat pixelType sourcePtr →
      formatFromGl sourceFormat pixelType = some format →
      s.Declares lg sp args height sourcePtr format := by
  intro sound
  have declares := sound hugeGl (.new false false false) 0x18000000 ⟨0xde1, 0, 0, 0x80000000⟩
    0x80000000 0x1908 0x1401 0x18000000 .rgba8888 rfl hugeGl_passes rfl
  exact declares.countable rfl

end EappGl

end Clicky
