import Clicky.Eapp.GuestMemory
import Clicky.Eapp.LiveGl

/-! The calls with which a game binds a texture and uploads one. -/
namespace Clicky

def multiplyOverflow : String := "attempt to multiply with overflow"

/-- What an upload is made from, once all checks are passed. -/
structure UploadRequest where
  target : U32
  width : U32
  height : U32
  sourceFormat : U32
  pixelType : U32
  sourcePtr : U32
  payload : List U8
  deriving DecidableEq, Repr

/-- A texture object of a resource, in twelve words. -/
structure ResourceObject where
  materialHandle : U32
  width : Nat
  height : Nat
  pixelPtr : U32
  resourceFormat : U32
  deriving DecidableEq, Repr

def ResourceObject.ofWords (words : List U32) : ResourceObject :=
  let packedDims := words.getD 4 0
  { materialHandle := words.getD 2 0
    width := (packedDims &&& 0xffff).toNat
    height := (packedDims >>> 16).toNat
    pixelPtr := words.getD 9 0
    resourceFormat := words.getD 10 0 }

/-- The object is one to upload, and of the size that the call gives. -/
def ResourceObject.Uploads (o : ResourceObject) (prepWidth prepHeight : Nat) : Prop :=
  ¬ (o.width = 0 ∨ o.height = 0 ∨ o.width ≠ prepWidth ∨ o.height ≠ prepHeight ∨
    o.materialHandle = 0 ∨ o.pixelPtr = 0 ∨ 4096 < o.width ∨ 4096 < o.height)

instance (o : ResourceObject) (prepWidth prepHeight : Nat) :
    Decidable (o.Uploads prepWidth prepHeight) :=
  inferInstanceAs (Decidable (¬ _))

structure ResourceRequest where
  object : ResourceObject
  format : TextureFormat
  bytes : List U8
  deriving DecidableEq, Repr

def ordinal45ResourceFormat (format : U32) : Option TextureFormat :=
  if format = 0x8808 ∨ format = 0x0801 then some .a8 else none

def saturatingMul64 (a b : Nat) : Nat := min (a * b) (2 ^ 64 - 1)

def resourceByteLen (format : TextureFormat) (width height : Nat) : Nat :=
  match format with
  | .rgb565 | .rgba5551 | .rgba4444 => saturatingMul64 (saturatingMul64 width height) 2
  | .rgba8888 => saturatingMul64 (saturatingMul64 width height) 4
  | .luminanceAlpha88 => saturatingMul64 (saturatingMul64 width height) 2
  | .a8 => saturatingMul64 width height

namespace EappBus

variable {imageSize : Nat}

/-- Ordinal 99: the other arguments are on the stack. -/
def uploadRequest (b : EappBus imageSize) (hostLimit : Nat) (sp : U32) (args : GuestArgs) :
    Attempt String UploadRequest := do
  let target := args.r0
  let width := args.r3
  let height ← b.readGuestU32OrZero sp
  let sourceFormat ← b.readGuestU32OrZero (sp + 0x08)
  let pixelType ← b.readGuestU32OrZero (sp + 0x0c)
  let sourcePtr ← b.readGuestU32OrZero (sp + 0x10)
  guard (¬ (sourcePtr = 0 ∨ width = 0 ∨ height = 0))
  let format ← OptionT.mk (pure (formatFromGl sourceFormat pixelType))
  let expected ← match pixPayloadSize format width.toNat height.toNat with
    | some expected => pure expected
    | none => Attempt.fail multiplyOverflow
  let payload ← b.readGuestBytes hostLimit sourcePtr expected
  guard (payload.length = expected)
  -- The buffer that `decodeTexturePixels` collects the pixels in.
  withCapacity hostLimit (width.toNat * height.toNat * 4)
  return { target, width, height, sourceFormat, pixelType, sourcePtr, payload }

/-- Where the descriptor of ordinal 45 does not name a texture, more of it is read, for the log. -/
def descriptorTexName (b : EappBus imageSize) (descPtr : U32) : Attempt String U32 := do
  let w1 ← (b.readGuestU32 (descPtr + 4)).found
  let w2 ← (b.readGuestU32 (descPtr + 8)).found
  match w1, w2 with
  | some w1, some w2 =>
    if w1 ≠ 0 ∧ w1 < workRamBase ∧ (w2 = 0x1906 ∨ w2 = 0x1907 ∨ w2 = 0x1908 ∨ w2 = 0x190a) then
      return w1
    else
      let _ ← b.readGuestU32OrZero descPtr
      let _ ← b.readGuestU32OrZero (descPtr + 12)
      let _ ← b.readGuestU32OrZero (descPtr + 16)
      let _ ← b.readGuestU32OrZero (descPtr + 20)
      failure
  | _, _ => failure

/-- Ordinal 45: the descriptor points to the texture object. -/
def resourceRequest (b : EappBus imageSize) (hostLimit : Nat) (args : GuestArgs) :
    Attempt String ResourceRequest := do
  let prepWidth := args.r2.toNat
  let prepHeight := args.r3.toNat
  guard (¬ (prepWidth = 0 ∨ prepHeight = 0))
  let textureObj ← b.readGuestU32 (args.r1 + 4)
  guard (workRamBase ≤ textureObj ∧ textureObj < workRamBase + BitVec.ofNat 32 workRamSize)
  let words ← b.readGuestWordsExact textureObj 12
  let object := ResourceObject.ofWords words
  guard (object.Uploads prepWidth prepHeight)
  let format ← OptionT.mk (pure (ordinal45ResourceFormat object.resourceFormat))
  let byteLen := resourceByteLen format object.width object.height
  guard (¬ (byteLen = 0 ∨ 16 * 1024 * 1024 < byteLen))
  let bytes ← b.readGuestBytes hostLimit object.pixelPtr byteLen
  guard (bytes.length = byteLen)
  return { object, format, bytes }

end EappBus

namespace LiveGlState

/-- Ordinal 4. -/
def bindTexture (s : LiveGlState) (texName : U32) : LiveGlState :=
  if texName ≠ 0 then
    { s with pendingTexName := s.pendingTexName.or (some texName) }
  else s

/-- The descriptor of ordinal 45 names a texture. -/
def captureTexName (s : LiveGlState) (texName : U32) : LiveGlState :=
  { s with pendingTexName := some texName }

/-- An A8 texture is tinted white. -/
def buildUpload (index : Nat) (request : UploadRequest) (texName : Option U32) : LiveGlUpload :=
  let format := formatFromGl request.sourceFormat request.pixelType
  let texture := format.bind fun format =>
    (pixPayloadSize format request.width.toNat request.height.toNat).bind fun expected =>
      if request.payload.length < expected then none
      else Texture.fromBytes (request.payload.take expected) request.width.toNat
        request.height.toNat format .white
  { index, target := request.target, width := request.width.toNat, height := request.height.toNat,
    sourceFormat := request.sourceFormat, pixelType := request.pixelType,
    sourcePtr := request.sourcePtr, format, texture, texName }

/-- The name that is pending goes to this upload. -/
def pushUpload (s : LiveGlState) (request : UploadRequest) : LiveGlState :=
  { s with
    pendingTexName := none
    uploads := s.uploads ++ [buildUpload s.uploads.length request s.pendingTexName] }

end LiveGlState

def LiveGlUpload.isFrom (u : LiveGlUpload) (object : ResourceObject) : Bool :=
  u.sourcePtr == object.pixelPtr && u.width == object.width && u.height == object.height &&
    u.sourceFormat == object.resourceFormat

namespace LiveGlState

def linkResource (s : LiveGlState) (materialHandle : U32) (index : Nat) : LiveGlState :=
  { s with resourceUploadsByHandle :=
      Function.update s.resourceUploadsByHandle materialHandle (some index) }

/-- The upload of a resource. -/
def buildResource (index : Nat) (request : ResourceRequest) : LiveGlUpload :=
  { index, target := 0, width := request.object.width, height := request.object.height,
    sourceFormat := request.object.resourceFormat, pixelType := 0,
    sourcePtr := request.object.pixelPtr, format := some request.format,
    texture := Texture.fromBytes request.bytes request.object.width request.object.height
      request.format .white,
    texName := some request.object.materialHandle }

/-- What was uploaded from the same place, in the same size and format, is taken again. -/
def pushResource (s : LiveGlState) (request : ResourceRequest) : LiveGlState :=
  match s.uploads.find? (·.isFrom request.object) with
  | some existing => s.linkResource request.object.materialHandle existing.index
  | none =>
    let index := s.uploads.length
    { s with uploads := s.uploads ++ [buildResource index request] }.linkResource
      request.object.materialHandle index

theorem pushResource_pendingTexName (s : LiveGlState) (request : ResourceRequest) :
    (s.pushResource request).pendingTexName = s.pendingTexName := by
  unfold pushResource
  split <;> rfl

end LiveGlState

/-- The memory of a game, and its graphics if they are live. -/
structure EappGl (imageSize : Nat) where
  bus : EappBus imageSize
  liveGl : Option LiveGlState
  /-- The host grants buffers up to this size. -/
  hostLimit : Nat

/-- How live graphics are asked for. -/
structure GlSettings where
  presentVflip : Bool
  gateB : Bool
  continuousCapture : Bool
  deriving DecidableEq, Repr

inductive TextureCall where
  | bind (args : GuestArgs)
  | resource (args : GuestArgs)
  | upload (sp : U32) (args : GuestArgs)
  | write (width : Width) (offset : U32) (val : BitVec width.bits)

namespace EappGl

variable {imageSize : Nat}

def start (bus : EappBus imageSize) (settings : Option GlSettings) (hostLimit : Nat) :
    EappGl imageSize :=
  { bus, liveGl := settings.map fun c => .new c.presentVflip c.gateB c.continuousCapture, hostLimit }

/-- What was found is applied to the graphics. -/
def withFound {α : Type} (s : EappGl imageSize) (f : LiveGlState → α → LiveGlState) :
    Option α → EappGl imageSize
  | some a => { s with liveGl := s.liveGl.map (f · a) }
  | none => s

def handleBind (s : EappGl imageSize) (args : GuestArgs) : EappGl imageSize :=
  { s with liveGl := s.liveGl.map (·.bindTexture args.r1) }

def liveHandleResourceUpload (s : EappGl imageSize) (args : GuestArgs) :
    Except String (EappGl imageSize) := do
  let named ← (s.bus.descriptorTexName args.r1).run
  let requested ← (s.bus.resourceRequest s.hostLimit args).run
  return (s.withFound .captureTexName named).withFound .pushResource requested

def liveHandleUpload (s : EappGl imageSize) (sp : U32) (args : GuestArgs) :
    Except String (EappGl imageSize) := do
  return s.withFound .pushUpload (← (s.bus.uploadRequest s.hostLimit sp args).run)

def handle (s : EappGl imageSize) : TextureCall → Option (EappGl imageSize)
  | .bind args => some (s.handleBind args)
  | .resource args => (s.liveHandleResourceUpload args).toOption
  | .upload sp args => (s.liveHandleUpload sp args).toOption
  | .write width offset val => (s.bus.write width offset val).state?.map fun bus => { s with bus }

theorem handle_resource_iff {s s' : EappGl imageSize} {args : GuestArgs} :
    s.handle (.resource args) = some s' ↔ ∃ named requested,
      (s.bus.descriptorTexName args.r1).run = .ok named ∧
        (s.bus.resourceRequest s.hostLimit args).run = .ok requested ∧
        (s.withFound .captureTexName named).withFound .pushResource requested = s' := by
  change (s.liveHandleResourceUpload args).toOption = some s' ↔ _
  unfold liveHandleResourceUpload
  cases (s.bus.descriptorTexName args.r1).run with
  | error m => exact iff_of_false nofun nofun
  | ok named =>
    cases (s.bus.resourceRequest s.hostLimit args).run with
    | error m => exact iff_of_false nofun nofun
    | ok requested =>
      constructor
      · intro same
        exact ⟨named, requested, rfl, rfl, Option.some.inj same⟩
      · rintro ⟨_, _, found, requests, rfl⟩
        cases found
        cases requests
        rfl

theorem handle_upload_iff {s s' : EappGl imageSize} {sp : U32} {args : GuestArgs} :
    s.handle (.upload sp args) = some s' ↔ ∃ requested,
      (s.bus.uploadRequest s.hostLimit sp args).run = .ok requested ∧ s.withFound .pushUpload requested = s' := by
  change (s.liveHandleUpload sp args).toOption = some s' ↔ _
  unfold liveHandleUpload
  cases (s.bus.uploadRequest s.hostLimit sp args).run with
  | error m => exact iff_of_false nofun nofun
  | ok requested =>
    constructor
    · intro same
      exact ⟨requested, rfl, Option.some.inj same⟩
    · rintro ⟨_, requests, rfl⟩
      cases requests
      rfl

end EappGl

end Clicky
