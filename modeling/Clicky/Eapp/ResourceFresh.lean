import Clicky.Eapp.TextureUpload
import Clicky.Lib.Runs

/-! Whether the texture of a material is the one that the game has in memory when it uploads it. -/
namespace Clicky
open Runs

def ResourceRequest.decoded (r : ResourceRequest) : Option (List Rgba8) :=
  decodeTexturePixels r.bytes r.object.width r.object.height r.format .white

theorem saturatingMul64_eq {a b : Nat} (small : a * b < 2 ^ 64) : saturatingMul64 a b = a * b :=
  Nat.min_eq_left (Nat.le_pred_of_lt small)

theorem resourceByteLen_eq (format : TextureFormat) {width height : Nat} (narrow : width ≤ 4096)
    (low : height ≤ 4096) :
    resourceByteLen format width height = width * height * format.bytesPerPixel := by
  have area : width * height ≤ 4096 * 4096 := Nat.mul_le_mul narrow low
  have pixels : saturatingMul64 width height = width * height := saturatingMul64_eq (by omega)
  cases format with
  | rgb565 | rgba5551 | rgba4444 | luminanceAlpha88 =>
    rw [resourceByteLen, pixels, saturatingMul64_eq (by omega)]
    rfl
  | rgba8888 =>
    rw [resourceByteLen, pixels, saturatingMul64_eq (by omega)]
    rfl
  | a8 =>
    rw [resourceByteLen, pixels]
    exact (Nat.mul_one _).symm

/-- What passes the checks has as many bytes as its pixels take. -/
theorem EappBus.resourceRequest_length {imageSize : Nat} {b : EappBus imageSize}
    {hostLimit : Nat} {args : GuestArgs} {request : ResourceRequest}
    (gives : (b.resourceRequest hostLimit args).Gives request) :
    request.bytes.length =
      request.object.width * request.object.height * request.format.bytesPerPixel := by
  unfold resourceRequest at gives
  dsimp only at gives
  obtain ⟨_, gives⟩ := (Attempt.gives_guard_bind _ _ _).mp gives
  obtain ⟨textureObj, _, gives⟩ := (Attempt.gives_bind _ _ _).mp gives
  obtain ⟨_, gives⟩ := (Attempt.gives_guard_bind _ _ _).mp gives
  obtain ⟨words, _, gives⟩ := (Attempt.gives_bind _ _ _).mp gives
  obtain ⟨uploads, gives⟩ := (Attempt.gives_guard_bind _ _ _).mp gives
  obtain ⟨format, _, gives⟩ := (Attempt.gives_bind _ _ _).mp gives
  obtain ⟨_, gives⟩ := (Attempt.gives_guard_bind _ _ _).mp gives
  obtain ⟨bytes, _, gives⟩ := (Attempt.gives_bind _ _ _).mp gives
  obtain ⟨whole, gives⟩ := (Attempt.gives_guard_bind _ _ _).mp gives
  obtain rfl := (Attempt.gives_pure _ _).mp gives
  simp only [ResourceObject.Uploads, not_or, Nat.not_lt] at uploads
  obtain ⟨_, _, _, _, _, _, narrow, low⟩ := uploads
  exact whole.trans (resourceByteLen_eq format narrow low)

theorem EappBus.exists_decoded {imageSize : Nat} {b : EappBus imageSize} {hostLimit : Nat}
    {args : GuestArgs} {request : ResourceRequest}
    (gives : (b.resourceRequest hostLimit args).Gives request) :
    ∃ pixels, request.decoded = some pixels := by
  unfold ResourceRequest.decoded decodeTexturePixels
  rw [if_pos (resourceRequest_length gives)]
  exact ⟨_, rfl⟩

namespace LiveGlState

def resourceTexture (s : LiveGlState) (materialHandle : U32) : Option Texture :=
  (s.resourceUploadsByHandle materialHandle).bind fun index => (s.uploads[index]?).bind (·.texture)

def IndexedByPlace (s : LiveGlState) : Prop := ∀ i (u : LiveGlUpload), s.uploads[i]? = some u → u.index = i

theorem indexedByPlace_concat {s s' : LiveGlState} (indexed : s.IndexedByPlace) {u : LiveGlUpload}
    (pushed : s'.uploads = s.uploads ++ [u]) (index : u.index = s.uploads.length) :
    s'.IndexedByPlace := by
  intro i v here
  rw [pushed, List.getElem?_append] at here
  split at here
  · exact indexed i v here
  · rename_i past
    obtain ⟨first, same⟩ := List.getElem?_eq_some_iff.mp here
    rw [List.length_singleton] at first
    have place : i = s.uploads.length := by omega
    rw [List.getElem_singleton] at same
    rw [← same, index, place]

theorem IndexedByPlace.pushUpload {s : LiveGlState} (indexed : s.IndexedByPlace)
    (request : UploadRequest) : (s.pushUpload request).IndexedByPlace :=
  indexedByPlace_concat indexed rfl rfl

theorem IndexedByPlace.pushResource {s : LiveGlState} (indexed : s.IndexedByPlace)
    (request : ResourceRequest) : (s.pushResource request).IndexedByPlace := by
  unfold LiveGlState.pushResource
  split
  · exact indexed
  · exact indexedByPlace_concat indexed rfl rfl

theorem resourceTexture_linkResource (s : LiveGlState) (materialHandle : U32) (index : Nat) :
    (s.linkResource materialHandle index).resourceTexture materialHandle =
      (s.uploads[index]?).bind (·.texture) := by
  unfold resourceTexture linkResource
  dsimp only
  rw [Function.update_self]
  rfl

/-- A material gets the texture of an upload from the same place. -/
theorem IndexedByPlace.texture_of_found {s : LiveGlState} (indexed : s.IndexedByPlace)
    {request : ResourceRequest} {existing : LiveGlUpload}
    (found : s.uploads.find? (·.isFrom request.object) = some existing) :
    (s.pushResource request).resourceTexture request.object.materialHandle = existing.texture := by
  obtain ⟨i, here⟩ := List.mem_iff_getElem?.mp (List.mem_of_find?_eq_some found)
  rw [LiveGlState.pushResource, found]
  change (s.linkResource request.object.materialHandle existing.index).resourceTexture _ = _
  rw [resourceTexture_linkResource, indexed i existing here, here]
  rfl

theorem texture_of_new {s : LiveGlState} {request : ResourceRequest}
    (fresh : s.uploads.find? (·.isFrom request.object) = none) :
    (s.pushResource request).resourceTexture request.object.materialHandle =
      (buildResource s.uploads.length request).texture := by
  rw [LiveGlState.pushResource, fresh]
  refine (resourceTexture_linkResource _ _ _).trans ?_
  rw [List.getElem?_concat_length]
  rfl

end LiveGlState

namespace EappGl

variable {imageSize : Nat}

/-- After the upload of a resource that passes all checks, the texture of the material has the
pixels that are in memory. -/
def UploadsFresh (s : EappGl imageSize) : TextureCall → Prop
  | .resource args => ∀ request gl lg, (s.bus.resourceRequest s.hostLimit args).Gives request →
      s.handle (.resource args) = some gl → gl.liveGl = some lg →
        ∃ texture, lg.resourceTexture request.object.materialHandle = some texture ∧
          request.decoded = some texture.pixels
  | _ => True

/-- The first upload from the same place, in the same size and format, if there is one, has the
pixels that are in memory. -/
def UploadedAsIs (s : EappGl imageSize) : TextureCall → Prop
  | .resource args => (s.handle (.resource args)).isSome = true → ∀ request lg,
      (s.bus.resourceRequest s.hostLimit args).Gives request → s.liveGl = some lg →
        ∀ u, lg.uploads.find? (·.isFrom request.object) = some u →
          u.texture.map (·.pixels) = request.decoded
  | _ => True

def Indexed (s : EappGl imageSize) : Prop := ∀ lg, s.liveGl = some lg → lg.IndexedByPlace

theorem Indexed.withFound {α : Type} {s : EappGl imageSize} (indexed : s.Indexed)
    {f : LiveGlState → α → LiveGlState}
    (kept : ∀ (lg : LiveGlState) a, lg.IndexedByPlace → (f lg a).IndexedByPlace)
    (found : Option α) : (s.withFound f found).Indexed := by
  cases found with
  | none => exact indexed
  | some a =>
    intro lg' live'
    obtain ⟨lg, live, rfl⟩ := Option.map_eq_some_iff.mp live'
    exact kept lg a (indexed lg live)

theorem Indexed.handle {s s' : EappGl imageSize} {call : TextureCall} (indexed : s.Indexed)
    (handled : s.handle call = some s') : s'.Indexed := by
  cases call with
  | bind args =>
    cases handled
    intro lg' live'
    obtain ⟨lg, live, rfl⟩ := Option.map_eq_some_iff.mp live'
    unfold LiveGlState.bindTexture
    split <;> exact indexed lg live
  | resource args =>
    obtain ⟨named, requested, _, _, rfl⟩ := handle_resource_iff.mp handled
    refine Indexed.withFound ?_ (fun lg request here => here.pushResource request) requested
    exact indexed.withFound (f := .captureTexName) (fun lg name here => here) named
  | upload sp args =>
    obtain ⟨requested, _, rfl⟩ := handle_upload_iff.mp handled
    exact indexed.withFound (fun lg request here => here.pushUpload request) requested
  | write width offset val =>
    obtain ⟨bus, _, rfl⟩ := Option.map_eq_some_iff.mp handled
    exact indexed

theorem liveGl_withFound {α : Type} (s : EappGl imageSize) (f : LiveGlState → α → LiveGlState)
    (found : Option α) : (s.withFound f found).liveGl = s.liveGl.map fun lg => found.elim lg (f lg) := by
  cases found with
  | none => exact Option.map_id'.symm
  | some a => rfl

/-- The graphics after the upload of a resource. -/
theorem handle_resource_liveGl {s gl : EappGl imageSize} {args : GuestArgs}
    {request : ResourceRequest} (gives : (s.bus.resourceRequest s.hostLimit args).Gives request)
    (handled : s.handle (.resource args) = some gl) :
    ∃ f : LiveGlState → LiveGlState, (∀ lg, (f lg).uploads = lg.uploads) ∧
      gl.liveGl = s.liveGl.map fun lg => (f lg).pushResource request := by
  obtain ⟨named, requested, _, requests, rfl⟩ := handle_resource_iff.mp handled
  cases requests.symm.trans gives
  refine ⟨fun lg => named.elim lg lg.captureTexName, fun lg => ?_, ?_⟩
  · cases named <;> rfl
  · rw [liveGl_withFound, liveGl_withFound, Option.map_map]
    rfl

theorem Indexed.uploadsFresh_iff {s : EappGl imageSize} (indexed : s.Indexed) (call : TextureCall) :
    s.UploadsFresh call ↔ s.UploadedAsIs call := by
  cases call with
  | resource args =>
    constructor
    · intro fresh handles request lg gives live u found
      obtain ⟨gl, handled⟩ := Option.isSome_iff_exists.mp handles
      obtain ⟨f, same, live'⟩ := handle_resource_liveGl gives handled
      rw [live, Option.map_some] at live'
      obtain ⟨texture, here, decoded⟩ := fresh request gl _ gives handled live'
      have indexed' : (f lg).IndexedByPlace := fun i v => same lg ▸ indexed lg live i v
      rw [← same lg] at found
      rw [indexed'.texture_of_found found] at here
      rw [here, decoded]
      rfl
    · intro asIs request gl lg' gives handled live'
      obtain ⟨pixels, decoded⟩ := EappBus.exists_decoded gives
      obtain ⟨f, same, after⟩ := handle_resource_liveGl gives handled
      obtain ⟨lg, live, rfl⟩ := Option.map_eq_some_iff.mp (after.symm.trans live')
      have indexed' : (f lg).IndexedByPlace := fun i v => same lg ▸ indexed lg live i v
      cases found : (f lg).uploads.find? (·.isFrom request.object) with
      | some u =>
        rw [indexed'.texture_of_found found]
        rw [same lg] at found
        have unchanged := asIs (handled ▸ rfl) request lg gives live u found
        obtain ⟨texture, here, rfl⟩ := Option.map_eq_some_iff.mp (unchanged.trans decoded)
        exact ⟨texture, here, decoded⟩
      | none =>
        rw [LiveGlState.texture_of_new found]
        exact ⟨_, congrArg (Option.map _) decoded, decoded⟩
  | bind | upload | write => exact Iff.rfl

/-- In a run, a resource is always uploaded with the pixels in memory exactly when no upload before
it came from the same place with other pixels. -/
theorem resources_fresh_iff (bus : EappBus imageSize) (settings : Option GlSettings)
    (hostLimit : Nat) (calls : List TextureCall) :
    BeforeEach handle UploadsFresh (start bus settings hostLimit) calls ↔
      BeforeEach handle UploadedAsIs (start bus settings hostLimit) calls := by
  refine beforeEach_iff (I := Indexed) (fun _ _ _ indexed handled => indexed.handle handled)
    (fun _ call indexed => indexed.uploadsFresh_iff call) calls ?_
  intro lg live
  obtain ⟨_, _, rfl⟩ := Option.map_eq_some_iff.mp live
  intro i u here
  cases here

/-- A descriptor in the image, with one byte for the pixel of a texture. -/
def resourceImage : List U8 :=
  [0, 0, 0, 0, 0, 0, 0, 0x10, 0, 0, 0, 0, 0, 0, 0, 0, 0, 0, 0, 0, 0, 0, 0, 0, 0x55, 0, 0, 0]

/-- The object of the texture, at the start of the work RAM. -/
def resourceObject : List U8 :=
  [0, 0, 0, 0, 0, 0, 0, 0, 7, 0, 0, 0, 0, 0, 0, 0, 1, 0, 1, 0, 0, 0, 0, 0,
    0, 0, 0, 0, 0, 0, 0, 0, 0, 0, 0, 0, 0x18, 0, 0, 0x18, 0x08, 0x88, 0, 0, 0, 0, 0, 0]

def resourceBus : EappBus 28 :=
  { EappBus.start ⟨resourceImage, rfl⟩ with
    workRam := ⟨resourceObject ++ List.replicate (workRamSize - 48) 0, by
      rw [List.length_append, List.length_replicate]
      rfl⟩ }

def sameResource : TextureCall := .resource ⟨0, 0x18000000, 1, 1⟩

/-- The game writes another pixel between two uploads: the material keeps the old one. -/
theorem reused_buffer_stale :
    ¬ BeforeEach handle UploadsFresh (start resourceBus (some ⟨false, false, false⟩) (2 ^ 32))
      [sameResource, .write .byte 0x18000018 0xff, sameResource] := by
  rintro ⟨_, later⟩
  obtain ⟨_, later⟩ := later _ rfl
  obtain ⟨fresh, _⟩ := later _ rfl
  obtain ⟨texture, here, decoded⟩ := fresh _ _ _ rfl rfl rfl
  cases here
  exact absurd decoded (by decide)

end EappGl

end Clicky
