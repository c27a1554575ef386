import Clicky.Ram

/-! Colours, the composition of one over the other, and textures as the guest gives them. -/
namespace Clicky

structure Rgba8 where
  r : U8
  g : U8
  b : U8
  a : U8
  deriving DecidableEq, Repr

def Rgba8.clear : Rgba8 := ⟨0, 0, 0, 0⟩
def Rgba8.white : Rgba8 := ⟨255, 255, 255, 255⟩

/-- A source over what is there before. Sums and products stay below 2^32. -/
def blendSrcOver (dst src : Rgba8) : Rgba8 :=
  let sa := src.a.toNat
  let da := dst.a.toNat
  let invSa := 255 - sa
  let outA := sa + (da * invSa + 127) / 255
  if outA = 0 then .clear
  else
    let blend (srcC dstC : U8) : U8 :=
      let srcP := srcC.toNat * sa
      let dstP := dstC.toNat * da * invSa / 255
      BitVec.ofNat 8 ((srcP + dstP + outA / 2) / outA)
    ⟨blend src.r dst.r, blend src.g dst.g, blend src.b dst.b, BitVec.ofNat 8 outA⟩

inductive TextureFormat where
  | rgb565 | rgba5551 | rgba4444 | rgba8888 | luminanceAlpha88 | a8
  deriving DecidableEq, Repr

def TextureFormat.bytesPerPixel : TextureFormat → Nat
  | .rgb565 | .rgba5551 | .rgba4444 => 2
  | .rgba8888 => 4
  | .luminanceAlpha88 => 2
  | .a8 => 1

structure Texture where
  width : Nat
  height : Nat
  pixels : List Rgba8
  deriving DecidableEq, Repr

def chunksExact2 {α : Type} (f : U8 → U8 → α) : List U8 → List α
  | b0 :: b1 :: rest => f b0 b1 :: chunksExact2 f rest
  | _ => []

def chunksExact4 {α : Type} (f : U8 → U8 → U8 → U8 → α) : List U8 → List α
  | b0 :: b1 :: b2 :: b3 :: rest => f b0 b1 b2 b3 :: chunksExact4 f rest
  | _ => []

/-- A channel of a pixel of 16 bits, scaled from its greatest value to 255. -/
def scaled (px : U16) (shift : Nat) (mask : U16) : U8 :=
  (((px >>> shift) &&& mask) * 255 / mask).setWidth 8

def decodeTexturePixels (raw : List U8) (width height : Nat) (format : TextureFormat)
    (a8Tint : Rgba8) : Option (List Rgba8) :=
  if raw.length = width * height * format.bytesPerPixel then
    some <| match format with
      | .rgb565 => chunksExact2 (fun b0 b1 =>
          let px := leU16 b0 b1
          ⟨scaled px 11 0x1f, scaled px 5 0x3f, scaled px 0 0x1f, 255⟩) raw
      | .rgba5551 => chunksExact2 (fun b0 b1 =>
          let px := leU16 b0 b1
          ⟨scaled px 11 0x1f, scaled px 6 0x1f, scaled px 1 0x1f,
            if px &&& 0x1 ≠ 0 then 255 else 0⟩) raw
      | .rgba4444 => chunksExact2 (fun b0 b1 =>
          let px := leU16 b0 b1
          ⟨scaled px 12 0x0f, scaled px 8 0x0f, scaled px 4 0x0f, scaled px 0 0x0f⟩) raw
      | .rgba8888 => chunksExact4 Rgba8.mk raw
      | .luminanceAlpha88 => chunksExact2 (fun l a => ⟨l, l, l, a⟩) raw
      | .a8 => raw.map fun alpha => ⟨a8Tint.r, a8Tint.g, a8Tint.b, alpha⟩
  else none

namespace Texture

/-- There is none where the bytes are not exactly the pixels: the assertion fails. -/
def fromBytes (raw : List U8) (width height : Nat) (format : TextureFormat) (a8Tint : Rgba8) :
    Option Texture :=
  (decodeTexturePixels raw width height format a8Tint).map fun pixels => { width, height, pixels }

end Texture

def formatFromGl (internalFormat pixelType : U32) : Option TextureFormat :=
  if internalFormat = 0x1907 ∧ pixelType = 0x8363 then some .rgb565
  else if internalFormat = 0x1908 ∧ pixelType = 0x8034 then some .rgba5551
  else if internalFormat = 0x1908 ∧ pixelType = 0x8033 then some .rgba4444
  else if internalFormat = 0x1908 ∧ pixelType = 0x1401 then some .rgba8888
  else if internalFormat = 0x190a ∧ pixelType = 0x1401 then some .luminanceAlpha88
  else if internalFormat = 0x1906 ∧ pixelType = 0x1401 then some .a8
  else none

/-- There is none where the product is past 64 bits. -/
def pixPayloadSize (format : TextureFormat) (width height : Nat) : Option Nat :=
  let size := width * height * format.bytesPerPixel
  if size < 2 ^ 64 then some size else none

theorem fromBytes_isSome_iff (raw : List U8) (width height : Nat) (format : TextureFormat)
    (a8Tint : Rgba8) : (Texture.fromBytes raw width height format a8Tint).isSome ↔
      raw.length = width * height * format.bytesPerPixel := by
  unfold Texture.fromBytes decodeTexturePixels
  split <;> simp_all

end Clicky
