import Clicky.Eapp.TextureUpload
import Clicky.Lib.Runs

/-! Which texture name an upload gets, over any order of binds, descriptors and uploads. -/
namespace Clicky
open Runs

/-- A texture name that a game gives, by binding it or in a descriptor. -/
inductive NameCapture where
  | bind (name : U32)
  | descriptor (name : U32)
  deriving DecidableEq, Repr

namespace NameCapture

def name : NameCapture → U32
  | .bind name | .descriptor name => name

def IsDescriptor : NameCapture → Prop
  | .bind _ => False
  | .descriptor _ => True

/-- A descriptor takes the place of what was pending, a bind only an empty place. -/
def replaces (pending : Option U32) : NameCapture → Option U32
  | .bind name => pending.or (some name)
  | .descriptor name => some name

/-- What is pending after some captures. -/
def pending (captures : List NameCapture) : Option U32 := captures.foldl replaces none

theorem pending_concat (captures : List NameCapture) (c : NameCapture) :
    pending (captures ++ [c]) = replaces (pending captures) c := by
  rw [pending, List.foldl_append]
  rfl

theorem foldl_binds {captures : List NameCapture} (binds : ∀ c ∈ captures, ¬ c.IsDescriptor)
    (name : U32) : captures.foldl replaces (some name) = some name := by
  induction captures with
  | nil => rfl
  | cons c captures ih =>
    cases c with
    | bind other => exact ih fun c member => binds c (.tail _ member)
    | descriptor other => exact absurd trivial (binds _ List.mem_cons_self)

theorem pending_of_lastWith {captures : List NameCapture} {c : NameCapture}
    (last : LastWith IsDescriptor captures c) : pending captures = some c.name := by
  obtain ⟨before, after, rfl, descriptor, binds⟩ := last
  rw [pending, List.foldl_append, List.foldl_cons]
  cases c with
  | bind name => exact descriptor.elim
  | descriptor name => exact foldl_binds binds name

theorem pending_of_binds {captures : List NameCapture} {name : U32} (some_bind : captures ≠ [])
    (same : ∀ c ∈ captures, c = .bind name) : pending captures = some name := by
  cases captures with
  | nil => exact absurd rfl some_bind
  | cons c captures =>
    rw [pending, List.foldl_cons, same c List.mem_cons_self]
    refine foldl_binds (fun c member => ?_) name
    rw [same c (.tail _ member)]
    exact id

end NameCapture

/-- The names captured since the last upload that was accepted, and those before. -/
structure CapturingGl (imageSize : Nat) where
  gl : EappGl imageSize
  before : List NameCapture := []
  since : List NameCapture := []

namespace CapturingGl

variable {imageSize : Nat}

/-- What the call captures. -/
def capturedBy (s : CapturingGl imageSize) : TextureCall → List NameCapture
  | .bind args => if args.r1 ≠ 0 then [.bind args.r1] else []
  | .resource args =>
    match (s.gl.bus.descriptorTexName args.r1).run with
    | .ok (some name) => [.descriptor name]
    | _ => []
  | .upload _ _ | .write _ _ _ => []

def accepts (s : CapturingGl imageSize) : TextureCall → Bool
  | .upload sp args =>
    match (s.gl.bus.uploadRequest s.gl.hostLimit sp args).run with
    | .ok (some _) => true
    | _ => false
  | .bind _ | .resource _ | .write _ _ _ => false

def step (s : CapturingGl imageSize) (call : TextureCall) : Option (CapturingGl imageSize) :=
  (s.gl.handle call).map fun gl =>
    if s.accepts call then { gl, before := s.before ++ s.since }
    else { s with gl, since := s.since ++ s.capturedBy call }

/-- The call adds the upload. -/
def Uploads (s : CapturingGl imageSize) (call : TextureCall) (u : LiveGlUpload) : Prop :=
  s.accepts call = true ∧ ∃ gl lg lg', s.gl.handle call = some gl ∧ s.gl.liveGl = some lg ∧
    gl.liveGl = some lg' ∧ lg'.uploads = lg.uploads ++ [u]

/-- An upload gets the name that was captured last. -/
def TagsLatest (s : CapturingGl imageSize) (call : TextureCall) : Prop :=
  ∀ u, s.Uploads call u → ∀ c, (s.before ++ s.since).getLast? = some c → u.texName = some c.name

/-- An upload gets the name of the last descriptor since the one before. If there is none, but
binds of one name, it gets that name, and without any capture it gets no name. A call that is
skipped changes nothing. -/
structure TagsPending (s : CapturingGl imageSize) (call : TextureCall) : Prop where
  descriptor : ∀ u, s.Uploads call u → ∀ c, LastWith NameCapture.IsDescriptor s.since c →
    u.texName = some c.name
  binds : ∀ u, s.Uploads call u → ∀ name, s.since ≠ [] → (∀ c ∈ s.since, c = .bind name) →
    u.texName = some name
  nothing : ∀ u, s.Uploads call u → s.since = [] → u.texName = none
  skipped : ∀ sp args gl, call = .upload sp args → s.accepts call = false →
    s.gl.handle call = some gl → gl = s.gl

theorem accepts_iff (s : CapturingGl imageSize) (sp : U32) (args : GuestArgs) :
    s.accepts (.upload sp args) = true ↔
      ∃ request, (s.gl.bus.uploadRequest s.gl.hostLimit sp args).Gives request := by
  change (match (s.gl.bus.uploadRequest s.gl.hostLimit sp args).run with
    | .ok (some _) => true
    | _ => false) = true ↔
      ∃ request, (s.gl.bus.uploadRequest s.gl.hostLimit sp args).run = .ok (some request)
  split
  · rename_i request gives
    exact iff_of_true rfl ⟨request, gives⟩
  · rename_i other
    exact iff_of_false nofun fun ⟨request, gives⟩ => other request gives

def Consistent (s : CapturingGl imageSize) : Prop :=
  ∀ lg, s.gl.liveGl = some lg → lg.pendingTexName = NameCapture.pending s.since

theorem Consistent.bind {s : CapturingGl imageSize} (consistent : s.Consistent)
    (args : GuestArgs) :
    Consistent { s with
      gl := s.gl.handleBind args
      since := s.since ++ s.capturedBy (.bind args) } := by
  intro lg' live'
  obtain ⟨lg, live, rfl⟩ := Option.map_eq_some_iff.mp live'
  have before := consistent lg live
  change (lg.bindTexture args.r1).pendingTexName =
    NameCapture.pending (s.since ++ if args.r1 ≠ 0 then [.bind args.r1] else [])
  unfold LiveGlState.bindTexture
  split
  · rw [NameCapture.pending_concat, ← before]
    rfl
  · rw [List.append_nil]
    exact before

theorem capturedBy_resource (s : CapturingGl imageSize) {args : GuestArgs} {named : Option U32}
    (found : (s.gl.bus.descriptorTexName args.r1).run = .ok named) :
    s.capturedBy (.resource args) = named.elim [] fun name => [.descriptor name] := by
  change (match (s.gl.bus.descriptorTexName args.r1).run with
    | .ok (some name) => [NameCapture.descriptor name]
    | _ => []) = _
  rw [found]
  cases named <;> rfl

theorem Consistent.resource {s : CapturingGl imageSize} (consistent : s.Consistent)
    {args : GuestArgs} {named : Option U32} (requested : Option ResourceRequest)
    (found : (s.gl.bus.descriptorTexName args.r1).run = .ok named) :
    Consistent { s with
      gl := (s.gl.withFound .captureTexName named).withFound .pushResource requested
      since := s.since ++ s.capturedBy (.resource args) } := by
  have captured : Consistent { s with
      gl := s.gl.withFound .captureTexName named
      since := s.since ++ s.capturedBy (.resource args) } := by
    cases named with
    | none =>
      rw [s.capturedBy_resource found, Option.elim, List.append_nil]
      exact consistent
    | some name =>
      rw [s.capturedBy_resource found]
      intro lg' live'
      obtain ⟨lg, _, rfl⟩ := Option.map_eq_some_iff.mp live'
      exact (NameCapture.pending_concat s.since (.descriptor name)).symm
  cases requested with
  | none => exact captured
  | some request =>
    intro lg' live'
    obtain ⟨lg, live, rfl⟩ := Option.map_eq_some_iff.mp live'
    rw [lg.pushResource_pendingTexName]
    exact captured lg live

theorem Consistent.step {s s' : CapturingGl imageSize} {call : TextureCall}
    (consistent : s.Consistent) (next : s.step call = some s') : s'.Consistent := by
  obtain ⟨gl, handled, rfl⟩ := Option.map_eq_some_iff.mp next
  cases call with
  | bind args =>
    cases handled
    exact consistent.bind args
  | resource args =>
    obtain ⟨named, requested, found, _, rfl⟩ := EappGl.handle_resource_iff.mp handled
    exact consistent.resource requested found
  | upload sp args =>
    obtain ⟨requested, requests, rfl⟩ := EappGl.handle_upload_iff.mp handled
    cases requested with
    | none =>
      have skipped : s.accepts (.upload sp args) ≠ true := by
        rw [ne_eq, accepts_iff]
        rintro ⟨request, gives⟩
        cases requests.symm.trans gives
      rw [if_neg skipped]
      exact fun lg live => (consistent lg live).trans (congrArg _ (List.append_nil _).symm)
    | some request =>
      rw [if_pos ((s.accepts_iff sp args).mpr ⟨request, requests⟩)]
      intro lg' live'
      obtain ⟨lg, _, rfl⟩ := Option.map_eq_some_iff.mp live'
      rfl
  | write width offset val =>
    obtain ⟨bus, _, rfl⟩ := Option.map_eq_some_iff.mp handled
    exact fun lg live => (consistent lg live).trans (congrArg _ (List.append_nil _).symm)

/-- The upload that an accepted call adds has the name that was pending. -/
theorem Uploads.texName {s : CapturingGl imageSize} {call : TextureCall} {u : LiveGlUpload}
    (uploads : s.Uploads call u) (consistent : s.Consistent) :
    u.texName = NameCapture.pending s.since := by
  obtain ⟨accepted, gl, lg, lg', handled, live, live', pushed⟩ := uploads
  cases call with
  | upload sp args =>
    obtain ⟨request, gives⟩ := (s.accepts_iff sp args).mp accepted
    obtain ⟨requested, requests, rfl⟩ := EappGl.handle_upload_iff.mp handled
    cases requests.symm.trans gives
    obtain ⟨_, here, rfl⟩ := Option.map_eq_some_iff.mp live'
    cases here.symm.trans live
    have same := List.append_cancel_left pushed
    cases same
    exact consistent lg live
  | bind | resource | write => cases accepted

theorem Consistent.tagsPending {s : CapturingGl imageSize} (consistent : s.Consistent)
    (call : TextureCall) : s.TagsPending call where
  descriptor u uploads c last := by
    rw [uploads.texName consistent, NameCapture.pending_of_lastWith last]
  binds u uploads name some_bind same := by
    rw [uploads.texName consistent, NameCapture.pending_of_binds some_bind same]
  nothing u uploads none_captured := by
    rw [uploads.texName consistent, none_captured]
    rfl
  skipped := by
    rintro sp args gl rfl skips handled
    obtain ⟨requested, requests, rfl⟩ := EappGl.handle_upload_iff.mp handled
    cases requested with
    | none => rfl
    | some request =>
      rw [(s.accepts_iff sp args).mpr ⟨request, requests⟩] at skips
      cases skips

/-- In every run, an upload gets the name of the last descriptor since the upload before it, or
else that of the binds since then, and an upload that is skipped takes no name. -/
theorem tags_pending (bus : EappBus imageSize) (settings : Option GlSettings)
    (hostLimit : Nat) (calls : List TextureCall) :
    BeforeEach step TagsPending { gl := .start bus settings hostLimit } calls := by
  refine beforeEach_of_invariant (I := Consistent) (fun _ _ _ consistent next => consistent.step next)
    (fun _ call consistent => consistent.tagsPending call) ?_ calls
  intro lg live
  obtain ⟨_, _, rfl⟩ := Option.map_eq_some_iff.mp live
  rfl

/-- A descriptor that names texture 5, and the words on the stack for an upload of one byte. -/
def descriptorImage : List U8 :=
  [0, 0, 0, 0, 5, 0, 0, 0, 7, 0x19, 0, 0, 0, 0, 0, 0,
    1, 0, 0, 0, 0, 0, 0, 0, 6, 0x19, 0, 0, 1, 0x14, 0, 0, 0, 0, 0, 0x18]

def descriptorBus : EappBus 36 := .start ⟨descriptorImage, rfl⟩

def oneByte : TextureCall := .upload 0x18000010 ⟨0xde1, 0, 0, 1⟩

def textured : CapturingGl 36 :=
  { gl := .start descriptorBus (some ⟨false, false, false⟩) (2 ^ 32) }

/-- After the descriptor of texture 5, texture 6 is bound, and the upload is for texture 5. After
one bind there are two uploads, and the second is for no texture. -/
theorem latest_capture_not_tagged :
    ¬ BeforeEach step TagsLatest textured
        [.resource ⟨0, 0x18000000, 0, 0⟩, .bind ⟨0xde1, 6, 0, 0⟩, oneByte] ∧
      ¬ BeforeEach step TagsLatest textured [.bind ⟨0xde1, 6, 0, 0⟩, oneByte, oneByte] := by
  constructor
  · rintro ⟨_, later⟩
    obtain ⟨_, later⟩ := later _ rfl
    obtain ⟨tags, _⟩ := later _ rfl
    have tagged := tags _ ⟨rfl, _, _, _, rfl, rfl, rfl, rfl⟩ (.bind 6) rfl
    exact absurd tagged (by decide)
  · rintro ⟨_, later⟩
    obtain ⟨_, later⟩ := later _ rfl
    obtain ⟨tags, _⟩ := later _ rfl
    have tagged := tags _ ⟨rfl, _, _, _, rfl, rfl, rfl, rfl⟩ (.bind 6) rfl
    exact absurd tagged (by decide)

end CapturingGl

end Clicky
