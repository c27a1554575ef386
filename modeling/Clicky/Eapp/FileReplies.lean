import Clicky.Eapp.OpenFiles

/-! What a game gets that requests a file: its bytes, and its callback in its turn. -/
namespace Clicky
open Runs Routine FileM

variable {imageSize : Nat}

/-- Nothing has changed but what is noted of the objects that were logged. -/
def Logged (s s' : EappState (FileImports imageSize)) : Prop :=
  ∃ dumpedRequests, s' = { s with rest := { s.rest with dumpedRequests } }

instance : IsPreorder (EappState (FileImports imageSize)) Logged where
  refl _ := ⟨_, rfl⟩
  trans _ _ _ first second := by
    obtain ⟨_, rfl⟩ := first
    obtain ⟨dumpedRequests, rfl⟩ := second
    exact ⟨dumpedRequests, rfl⟩

namespace FileM

theorem logged_word (addr : U32) : (word addr : FileM imageSize U32).Respects Logged :=
  Respects.bind (respects_of_ok fun s _ _ ran => (find_eq_ok.mp ran).1 ▸ Std.Refl.refl (r := Logged) s)
    fun _ => .pure _

theorem logged_words (addrs : List U32) : (words addrs : FileM imageSize Unit).Respects Logged := by
  induction addrs with
  | nil => exact .pure ()
  | cons addr addrs ih => exact (logged_word addr).bind fun _ => ih

theorem logged_dumpRequestObject (req : U32) :
    (dumpRequestObject req : FileM imageSize Unit).Respects Logged := by
  refine (respects_look _).bind fun dumped => respects_when fun _ => ?_
  exact Respects.bind (respects_modify fun _ => ⟨_, rfl⟩) fun _ => logged_words _

theorem logged_dumpOwner (req : U32) : (dumpOwner req : FileM imageSize Unit).Respects Logged := by
  refine (logged_word _).bind fun owner => respects_when fun _ => (logged_words _).bind fun _ => ?_
  exact (logged_word _).bind fun _ => respects_when fun _ => logged_words _

/-- A word is read, and the state is as before. -/
theorem word_bind_eq_ok {addr : U32} {α : Type} {next : U32 → FileM imageSize α} {a : α}
    {s s' : EappState (FileImports imageSize)} : (word addr >>= next) s = .ok s' a ↔
      ∃ val, (s.rest.bus.readGuestU32OrZero addr).Gives val ∧ next val s = .ok s' a := by
  simp only [EappBus.readGuestU32OrZero, Attempt.gives_orDefault]
  constructor
  · intro ran
    obtain ⟨mid, val, read, rest⟩ := bind_eq_ok.mp ran
    obtain ⟨_, found, looked, given⟩ := bind_eq_ok.mp read
    obtain ⟨rfl, there⟩ := find_eq_ok.mp looked
    cases given
    exact ⟨_, ⟨found, there, rfl⟩, rest⟩
  · rintro ⟨_, ⟨found, there, rfl⟩, rest⟩
    exact bind_eq_ok.mpr ⟨s, _, bind_eq_ok.mpr ⟨s, found, find_eq_ok.mpr ⟨rfl, there⟩, rfl⟩, rest⟩

/-! ### A request that is accepted -/

section requests

variable (env : FileEnv)

/-- How many bytes of a file go to a request for `want` bytes. -/
def delivers (file : List U8) (want : U32) : Nat :=
  min file.length (if want ≠ 0 then want.toNat else file.length)

/-- No more than the file has is written, also where more was asked for. -/
theorem deliverFile_ok {hostPath : PathString} {req dest want : U32} {file : List U8} {r : RamRegion}
    {s s' : EappState (FileImports imageSize)} (ran : deliverFile env hostPath req dest want s = .ok s' ())
    (plain : env.async3Complete = false) (served : env.skipRserver = false)
    (holds : env.read s.rest.fs hostPath = some file)
    (inside : s.rest.bus.Inside r dest (delivers file want))
    (below : dest.toNat + delivers file want ≤ 2 ^ 32) :
    s.rest.bus.Stored s'.rest.bus r dest (file.take (delivers file want)) := by
  have nonnull : dest ≠ 0 := by
    rintro rfl
    exact absurd (Nat.le_zero.mp inside.1) (by cases r <;> decide)
  have size : (file.take (delivers file want)).length = delivers file want := by
    rw [List.length_take]
    exact Nat.min_eq_left (Nat.min_le_left ..)
  rw [← size] at inside below
  obtain ⟨bus, written, stored⟩ := EappBus.writeGuestBytes_region inside below
  rw [deliverFile, look_bind_run, holds] at ran
  obtain ⟨mid, delivered, put, ran⟩ := bind_eq_ok.mp ran
  rw [if_pos ⟨by simp [served], nonnull⟩] at put
  obtain ⟨_, ended, rfl⟩ := Outcome.zoom_eq_done.mp put
  cases written.symm.trans ended
  obtain ⟨_, rfl⟩ : Logged _ s' := Respects.of_ok (respects_when fun _ => Respects.bind
    (respects_when fun switched => by simp [plain] at switched) fun _ =>
      respects_when fun _ => logged_dumpOwner req) ran
  exact stored

/-- Memory and queue are as they were. -/
structure Waits (s t : EappState (FileImports imageSize)) : Prop where
  bus : t.rest.bus = s.rest.bus
  calls : t.pendingGuestCalls = s.pendingGuestCalls

theorem Waits.trans {s₁ s₂ s₃ : EappState (FileImports imageSize)} (first : Waits s₁ s₂)
    (second : Waits s₂ s₃) : Waits s₁ s₃ :=
  ⟨second.bus.trans first.bus, second.calls.trans first.calls⟩

theorem resolve_none {path : PathString} {s t : EappState (FileImports imageSize)}
    (ran : resolveOrCreateHostPath env path s = .ok t none) : Waits s t := by
  unfold resolveOrCreateHostPath at ran
  split at ran
  · cases ran
  · cases ran
    exact ⟨rfl, rfl⟩

theorem resolve_some {path hostPath : PathString} {s t : EappState (FileImports imageSize)}
    (ran : resolveOrCreateHostPath env path s = .ok t (some hostPath)) : Waits s t ∧
      env.bundle.resolveOrCreateHostPath env.host s.rest.fs path = some (hostPath, t.rest.fs) := by
  unfold resolveOrCreateHostPath at ran
  split at ran
  · rename_i created
    cases ran
    exact ⟨⟨rfl, rfl⟩, created⟩
  · cases ran

/-- What becomes of a request: its words are read before anything is written, then its file is delivered, and
its callback, if it has one, is the last in the queue. -/
structure Accepted (path : PathString) (req : U32) (s s' : EappState (FileImports imageSize)) where
  hostPath : PathString
  dest : U32
  want : U32
  pc : U32
  ctx : U32
  opened : EappState (FileImports imageSize)
  delivered : EappState (FileImports imageSize)
  resolved : env.bundle.resolveOrCreateHostPath env.host s.rest.fs path = some (hostPath, opened.rest.fs)
  given : (s.rest.bus.readGuestU32OrZero (req + 0x14)).Gives dest
  wanted : (s.rest.bus.readGuestU32OrZero (req + 0x18)).Gives want
  called : (s.rest.bus.readGuestU32OrZero (req + 0x34)).Gives pc
  context : (s.rest.bus.readGuestU32OrZero (req + 0x38)).Gives ctx
  waits : Waits s opened
  delivery : deliverFile env hostPath req dest want opened = .ok delivered ()
  bus : s'.rest.bus = delivered.rest.bus
  calls : s'.pendingGuestCalls = s.pendingGuestCalls ++
    if pc ≠ 0 then [{ pc, arg0 := req, arg1 := ctx }] else []

/-- A request is refused only where there is no file, and then nothing is written. -/
theorem requestFile_spec {path : PathString} {req ret : U32} {s s' : EappState (FileImports imageSize)}
    (ran : requestFile env path req s = .ok s' ret) :
    (ret = 0 ∧ Waits s s') ∨ (ret = 1 ∧ Nonempty (Accepted env path req s s')) := by
  obtain ⟨s₁, _, added, ran⟩ := bind_eq_ok.mp ran
  have first : Waits s s₁ ∧ s₁.rest.fs = s.rest.fs := by
    unfold when at added
    split at added <;> cases added <;> exact ⟨⟨rfl, rfl⟩, rfl⟩
  obtain ⟨s₂, _, dumped, ran⟩ := bind_eq_ok.mp ran
  have second : Waits s₁ s₂ ∧ s₂.rest.fs = s₁.rest.fs := by
    obtain ⟨_, rfl⟩ := (logged_dumpRequestObject req).of_ok dumped
    exact ⟨⟨rfl, rfl⟩, rfl⟩
  obtain ⟨t, resolved, found, ran⟩ := bind_eq_ok.mp ran
  cases resolved with
  | none =>
    obtain ⟨last, _, removed, ran⟩ := bind_eq_ok.mp ran
    have third : Waits s₂ t := resolve_none env found
    have fourth : Waits t last := by
      cases removed
      exact ⟨rfl, rfl⟩
    cases ran
    exact .inl ⟨rfl, ((first.1.trans second.1).trans third).trans fourth⟩
  | some hostPath =>
    obtain ⟨third, created⟩ := resolve_some env found
    rw [second.2, first.2] at created
    have waits : Waits s t := (first.1.trans second.1).trans third
    obtain ⟨dest, given, ran⟩ := word_bind_eq_ok.mp ran
    obtain ⟨want, wanted, ran⟩ := word_bind_eq_ok.mp ran
    obtain ⟨pc, called, ran⟩ := word_bind_eq_ok.mp ran
    obtain ⟨ctx, context, ran⟩ := word_bind_eq_ok.mp ran
    obtain ⟨t', _, delivered, ran⟩ := bind_eq_ok.mp ran
    have queue : t'.pendingGuestCalls = s.pendingGuestCalls := by
      rw [← ((quiet_deliverFile env hostPath req dest want).of_ok delivered).state]
      exact waits.calls
    rw [waits.bus] at given wanted called context
    have ends : ret = 1 ∧ s'.rest.bus = t'.rest.bus ∧ s'.pendingGuestCalls = s.pendingGuestCalls ++
        if pc ≠ 0 then [{ pc, arg0 := req, arg1 := ctx }] else [] := by
      split at ran
      · rename_i callable
        cases ran
        rw [if_pos callable]
        exact ⟨rfl, rfl, congrArg (· ++ _) queue⟩
      · rename_i null
        cases ran
        rw [if_neg null, List.append_nil]
        exact ⟨rfl, rfl, queue⟩
    exact .inr ⟨ends.1, ⟨hostPath, dest, want, pc, ctx, t, t', created, given, wanted, called, context,
      waits, delivered, ends.2.1, ends.2.2⟩⟩

theorem handleAsyncFileIoImport_request (args : GuestArgs) :
    (handleAsyncFileIoImport env 3 args : FileM imageSize U32) = findPath args >>= fun found =>
      match found with
      | none => pure 0
      | some path => fillFramebuffer hleInfoFramebuffer >>= fun _ => requestFile env path args.r2 := rfl

end requests

end FileM

namespace Play

/-- The call that a request asks for. -/
structure Asks (b : EappBus imageSize) (req : U32) (call : PendingGuestCall) : Prop where
  arg0 : call.arg0 = req
  pc : (b.readGuestU32OrZero (req + 0x34)).Gives call.pc
  arg1 : (b.readGuestU32OrZero (req + 0x38)).Gives call.arg1

/-- The file that a request asks for, and where it is to go. -/
structure Wants (env : FileEnv) (s : FileImports imageSize) (path : PathString) (req : U32)
    (file : List U8) (dest : U32) : Prop where
  file : ∃ hostPath created,
    env.bundle.resolveOrCreateHostPath env.host s.fs path = some (hostPath, created) ∧
      env.read created hostPath = some file
  dest : (s.bus.readGuestU32OrZero (req + 0x14)).Gives dest

/-- The path of a request is found, and the framebuffer is filled, before it is made. -/
theorem accepted_ok {env : FileEnv} {args : GuestArgs} {s s' : EappState (FileImports imageSize)}
    (accepted : handleAsyncFileIoImport env 3 args s = .ok s' 1) : ∃ path shown,
      findPath args s = .ok s (some path) ∧ Waits s shown ∧ shown.rest.fs = s.rest.fs ∧
      Nonempty (Accepted env path args.r2 shown s') := by
  rw [handleAsyncFileIoImport_request] at accepted
  obtain ⟨mid, found, looked, ran⟩ := bind_eq_ok.mp accepted
  cases findPath_same looked
  cases found with
  | none => cases ran
  | some path =>
    obtain ⟨shown, _, filled, ran⟩ := bind_eq_ok.mp ran
    have same : Waits s shown ∧ shown.rest.fs = s.rest.fs := by
      cases filled
      exact ⟨⟨rfl, rfl⟩, rfl⟩
    refine ⟨path, shown, looked, same.1, same.2, ?_⟩
    obtain ⟨refused, _⟩ | ⟨_, accepted⟩ := requestFile_spec env ran
    · cases refused
    · exact accepted

/-- The callback of a request that is accepted comes after all that was in the queue before it, and is called
by the time the game has returned twice more than there were calls in the queue. -/
theorem request_called (env : FileEnv) (entryAddr auxAddr : U32) (vortex : Bool)
    (bus : EappBus imageSize) (fs : FileSystem) (renderState : List U32)
    {es es' : List (FileEvent imageSize)} {p p' : Play (FileImports imageSize)}
    {s : EappState (FileImports imageSize)} {args : GuestArgs} {call : PendingGuestCall}
    (reached : run (fileStep env) (start entryAddr auxAddr vortex (FileImports.new bus fs renderState)) es =
      some p)
    (accepted : handleAsyncFileIoImport env 3 args p.eapp.state = .ok s 1)
    (asks : Asks p.eapp.state.rest.bus args.r2 call) (callable : call.pc ≠ 0)
    (later : run (fileStep env) (p.afterImport s) es' = some p')
    (enough : p.pending.length + 1 < returns es') :
    (dispatched p'.started)[p.enqueued.length]? = some call := by
  have inside := (fileInv_start entryAddr auxAddr vortex bus fs renderState).run reached
  have entered : fileStep env p (.asyncFileIo 3 args) = some (p.afterImport s) :=
    imports_eq_some.mpr ⟨s, 1, accepted, rfl⟩
  have inside' : (p.afterImport s).FileInv := inside.step entered
  obtain ⟨path, shown, _, waits, _, ⟨request⟩⟩ := accepted_ok accepted
  have called := request.called
  have context := request.context
  rw [waits.bus] at called context
  have grown : s.pendingGuestCalls = p.pending ++ [call] := by
    rw [request.calls, waits.calls, called.eq asks.pc, context.eq asks.arg1, if_pos callable, ← asks.arg0]
    rfl
  have all : (p.afterImport s).enqueued = p.enqueued ++ [call] := by simp [afterImport, grown]
  have longer : (p.afterImport s).pending.length = p.pending.length + 1 := by
    change s.pendingGuestCalls.length = p.pending.length + 1
    simp [grown]
  obtain ⟨others, made⟩ := made_of_returns inside' later (by omega)
  rw [← made, all]
  simp

theorem request_called_one : ∃ s p',
    handleAsyncFileIoImport requestEnv 3 requestArgs requestPlay.eapp.state = .ok s 1 ∧
    run (fileStep requestEnv) (requestPlay.afterImport s) requestReturns = some p' ∧
    (dispatched p'.started)[0]? = some { pc := 0x18000100, arg0 := 0x18000010, arg1 := 7 } := by
  obtain ⟨s, accepted⟩ : ∃ s,
    handleAsyncFileIoImport requestEnv 3 requestArgs requestPlay.eapp.state = .ok s 1 := ⟨_, rfl⟩
  have entered : fileStep requestEnv requestPlay (.asyncFileIo 3 requestArgs) =
    some (requestPlay.afterImport s) := imports_eq_some.mpr ⟨s, 1, accepted, rfl⟩
  have whole : (run (fileStep requestEnv) requestPlay
    (.asyncFileIo 3 requestArgs :: requestReturns)).isSome := by decide +kernel
  rw [run, entered] at whole
  obtain ⟨p', ran⟩ := Option.isSome_iff_exists.mp whole
  have begun : run (fileStep requestEnv) requestPlay [] = some requestPlay := rfl
  have asks : Asks requestPlay.eapp.state.rest.bus requestArgs.r2
    { pc := 0x18000100, arg0 := 0x18000010, arg1 := 7 } := ⟨rfl, rfl, rfl⟩
  exact ⟨s, p', accepted, ran, request_called requestEnv 0 0 false (.start requestImage) Bundle.hostFiles []
    begun accepted asks (by decide) ran (by decide)⟩

/-- A request that is accepted has the bytes of its file when the import returns, and nothing else of the
memory is written, with the completion words switched off as they are by default. -/
theorem request_delivered {env : FileEnv} (plain : env.async3Complete = false)
    (served : env.skipRserver = false) {args : GuestArgs} {s s' : EappState (FileImports imageSize)}
    (accepted : handleAsyncFileIoImport env 3 args s = .ok s' 1) : ∃ path want,
      findPath args s = .ok s (some path) ∧ (s.rest.bus.readGuestU32OrZero (args.r2 + 0x18)).Gives want ∧
      ∀ file dest r, Wants env s.rest path args.r2 file dest →
        s.rest.bus.Inside r dest (delivers file want) → dest.toNat + delivers file want ≤ 2 ^ 32 →
        s.rest.bus.Stored s'.rest.bus r dest (file.take (delivers file want)) := by
  obtain ⟨path, shown, looked, waits, files, ⟨request⟩⟩ := accepted_ok accepted
  have kept : request.opened.rest.bus = s.rest.bus := request.waits.bus.trans waits.bus
  have given := request.given
  have wanted := request.wanted
  have created := request.resolved
  rw [waits.bus] at given wanted
  rw [files] at created
  refine ⟨path, request.want, looked, wanted, fun file dest r wants inside below => ?_⟩
  obtain ⟨hostPath, fs, there, holds⟩ := wants.file
  obtain ⟨rfl, rfl⟩ : request.hostPath = hostPath ∧ request.opened.rest.fs = fs := by
    simpa using created.symm.trans there
  rw [wants.dest.eq given] at inside below ⊢
  rw [request.bus, ← kept]
  exact deliverFile_ok env request.delivery plain served holds (kept ▸ inside) below

/-- Five bytes are asked for, and three are there. -/
theorem request_delivered_one : ∃ s,
    handleAsyncFileIoImport requestEnv 3 requestArgs requestPlay.eapp.state = .ok s 1 ∧
    (s.rest.bus.bytes .image).slice 0 5 = [1, 2, 3, 0x69, 0x66] := by
  obtain ⟨s, accepted⟩ : ∃ s,
    handleAsyncFileIoImport requestEnv 3 requestArgs requestPlay.eapp.state = .ok s 1 := ⟨_, rfl⟩
  have plain : requestEnv.async3Complete = false := rfl
  obtain ⟨path, want, looked, wanted, delivered⟩ := request_delivered plain rfl accepted
  have named : findPath requestArgs requestPlay.eapp.state =
    .ok requestPlay.eapp.state (some "Manifest.plist".toList) := rfl
  have five : (requestPlay.eapp.state.rest.bus.readGuestU32OrZero (requestArgs.r2 + 0x18)).Gives 5 := rfl
  cases looked.symm.trans named
  cases wanted.eq five
  have wants : Wants requestEnv requestPlay.eapp.state.rest "Manifest.plist".toList requestArgs.r2 [1, 2, 3]
    0x18000000 := ⟨⟨_, _, rfl, rfl⟩, rfl⟩
  have stored := delivered [1, 2, 3] 0x18000000 .image wants ⟨by decide, by decide⟩ (by decide)
  refine ⟨s, accepted, ?_⟩
  have before : requestPlay.eapp.state.rest.bus.bytes .image = requestImage.mem := rfl
  rw [stored.here, before]
  decide +kernel

end Play
end Clicky
