import Clicky.Eapp.AsyncFileIo
import Clicky.Eapp.Schedule

/-! The requests of a game for files, over whole runs: each that is accepted is answered by its callback,
once and in its turn, and none is pending without a callback in the queue. -/
namespace Clicky
open Runs Routine FileM

variable {imageSize : Nat}

/-! ### What an import leaves alone -/

/-- Only memory, files and what is shown have changed. -/
structure QueueKept (s s' : EappState (FileImports imageSize)) : Prop where
  state : { s with rest := s'.rest } = s'
  count : s'.rest.asyncCallbackQueuedCount = s.rest.asyncCallbackQueuedCount

/-- The open files are the same. -/
structure TableKept (s s' : EappState (FileImports imageSize)) : Prop where
  files : s'.rest.asyncOpenFiles = s.rest.asyncOpenFiles
  next : s'.rest.nextAsyncFileHandle = s.rest.nextAsyncFileHandle

structure Quiet (s s' : EappState (FileImports imageSize)) : Prop extends
  QueueKept s s', TableKept s s'

instance : IsPreorder (EappState (FileImports imageSize)) QueueKept where
  refl _ := ⟨rfl, rfl⟩
  trans s mid s' first second := by
    refine ⟨?_, second.count.trans first.count⟩
    rw [← second.state, ← first.state]

instance : IsPreorder (EappState (FileImports imageSize)) TableKept where
  refl _ := ⟨rfl, rfl⟩
  trans _ _ _ first second := ⟨second.files.trans first.files, second.next.trans first.next⟩

instance : IsPreorder (EappState (FileImports imageSize)) Quiet where
  refl s := ⟨Std.Refl.refl s, Std.Refl.refl s⟩
  trans s mid s' first second :=
    ⟨IsTrans.trans s mid s' first.toQueueKept second.toQueueKept,
      IsTrans.trans s mid s' first.toTableKept second.toTableKept⟩

namespace FileM

section quiet

variable {α : Type}

theorem quiet_onBus (part : Routine (EappBus imageSize) α) : (onBus part).Respects Quiet := by
  intro s
  rw [onBus, Routine.focus, Outcome.leaves_zoom]
  exact fun _ _ => ⟨⟨rfl, rfl⟩, rfl, rfl⟩

theorem quiet_find (x : EappBus imageSize → Attempt String α) : (find x).Respects Quiet := by
  intro s
  unfold find
  split
  · simpa using Std.Refl.refl (r := Quiet) s
  · simp

theorem quiet_word (addr : U32) : (word addr : FileM imageSize U32).Respects Quiet :=
  (quiet_find _).bind fun _ => .pure _

theorem quiet_words (addrs : List U32) : (words addrs : FileM imageSize Unit).Respects Quiet := by
  induction addrs with
  | nil => exact .pure ()
  | cons addr addrs ih => exact (quiet_word addr).bind fun _ => ih

theorem respects_when {R : EappState (FileImports imageSize) → EappState (FileImports imageSize) → Prop}
    [IsPreorder _ R] {c : Prop} [Decidable c] {part : FileM imageSize Unit}
    (respects : c → part.Respects R) : (when c part).Respects R := Respects.ite respects fun _ => .pure ()

theorem quiet_writeGuestU32 (addr val : U32) :
    (writeGuestU32 addr val : FileM imageSize Bool).Respects Quiet := quiet_onBus _

theorem quiet_writeGuestBytes (addr : U32) (bytes : List U8) :
    (writeGuestBytes addr bytes : FileM imageSize Bool).Respects Quiet := quiet_onBus _

theorem quiet_fillFramebuffer (color : U32) :
    (fillFramebuffer color : FileM imageSize Unit).Respects Quiet :=
  respects_modify fun _ => ⟨⟨rfl, rfl⟩, rfl, rfl⟩

theorem quiet_resolve (env : FileEnv) (path : PathString) :
    (resolveOrCreateHostPath env path : FileM imageSize _).Respects Quiet := by
  intro s
  unfold resolveOrCreateHostPath
  split
  · exact (Outcome.leaves_done ..).mpr ⟨⟨rfl, rfl⟩, rfl, rfl⟩
  · exact (Outcome.leaves_done ..).mpr (Std.Refl.refl s)

theorem quiet_dumpRequestObject (req : U32) :
    (dumpRequestObject req : FileM imageSize Unit).Respects Quiet := by
  refine (respects_look _).bind fun dumped => respects_when fun _ => ?_
  refine Respects.bind ?_ fun _ => quiet_words _
  exact respects_modify fun _ => ⟨⟨rfl, rfl⟩, rfl, rfl⟩

theorem quiet_dumpOwner (req : U32) : (dumpOwner req : FileM imageSize Unit).Respects Quiet := by
  refine (quiet_word _).bind fun owner => respects_when fun _ => ?_
  exact (quiet_words _).bind fun _ => (quiet_word _).bind fun _ => respects_when fun _ => quiet_words _

theorem quiet_deliverFile (env : FileEnv) (hostPath : PathString) (req dest want : U32) :
    (deliverFile env hostPath req dest want : FileM imageSize Unit).Respects Quiet := by
  refine (respects_look _).bind fun found => ?_
  cases found with
  | none => exact .pure ()
  | some bytes =>
    refine Respects.bind ?_ fun delivered => ?_
    · exact Respects.ite (fun _ => quiet_writeGuestBytes _ _) fun _ => .pure false
    · refine respects_when fun _ => ?_
      refine (respects_when fun _ => ?_).bind fun _ => respects_when fun _ => quiet_dumpOwner req
      exact (quiet_writeGuestU32 _ _).bind fun _ => (quiet_writeGuestU32 _ _).bind fun _ => .pure ()

theorem quiet_findPath (args : GuestArgs) :
    (findPath args : FileM imageSize (Option PathString)).Respects Quiet := by
  refine (quiet_find _).bind fun first => ?_
  cases first with
  | none => exact quiet_find _
  | some path => exact .pure _

theorem quiet_readOpenFile (env : FileEnv) (handle buffer len : U32) :
    (readOpenFile env handle buffer len : FileM imageSize U32).Respects Quiet := by
  refine Respects.ite (fun _ => .pure 0) fun _ => (respects_look _).bind fun found => ?_
  cases found with
  | none => exact .pure 0
  | some hostPath =>
    exact (respects_look _).bind fun bytes => (quiet_writeGuestBytes _ _).bind fun _ => .pure _

end quiet

/-- A new entry in the table leaves the queue alone. -/
theorem queue_openFile (hostPath : PathString) :
    (openFile hostPath : FileM imageSize U32).Respects QueueKept := by
  refine (respects_look _).bind fun handle => Respects.bind ?_ fun _ => .pure handle
  exact respects_modify fun _ => ⟨rfl, rfl⟩

end FileM

/-! ### What an import puts into the queue -/

/-- The queue has grown, by calls of functions. -/
structure Appends (s s' : EappState (FileImports imageSize)) : Prop where
  kept : Eapp.Kept { s with pendingGuestCalls := s'.pendingGuestCalls } s'
  phase : s'.bootstrapPhase = s.bootstrapPhase
  invoked : s'.guestCallbackInvocationCount = s.guestCallbackInvocationCount
  calls : ∃ new : List PendingGuestCall, s'.pendingGuestCalls = s.pendingGuestCalls ++ new ∧
    (∀ call ∈ new, call.pc ≠ 0) ∧ s'.rest.asyncCallbackQueuedCount =
      s.rest.asyncCallbackQueuedCount + BitVec.ofNat 64 new.length

instance : IsPreorder (EappState (FileImports imageSize)) Appends where
  refl _ := ⟨⟨rfl, rfl, rfl, rfl⟩, rfl, rfl, [], by simp⟩
  trans s mid s' first second := by
    obtain ⟨new, grown, callable, counted⟩ := first.calls
    obtain ⟨new', grown', callable', counted'⟩ := second.calls
    refine ⟨⟨?_, rfl, ?_, ?_⟩, ?_, ?_, new ++ new', ?_, ?_, ?_⟩
    · exact second.kept.auxAddr.trans first.kept.auxAddr
    · exact second.kept.frameCounter.trans first.kept.frameCounter
    · exact second.kept.halted.trans first.kept.halted
    · exact second.phase.trans first.phase
    · exact second.invoked.trans first.invoked
    · rw [grown', grown, List.append_assoc]
    · exact fun call => by simpa using fun either => either.elim (callable call) (callable' call)
    · rw [counted', counted, List.length_append, BitVec.ofNat_add, BitVec.add_assoc]

/-- Every pending request but one, of which nothing is said, has its callback in the queue. -/
def AnsweredApart (one : U32) (s : EappState (FileImports imageSize)) : Prop :=
  ∀ req ∈ s.asyncPendingRequests, req ≠ 0 ∧
    (req ≠ one → ∃ call ∈ s.pendingGuestCalls, call.arg0 = req)

/-- Every pending request has its callback in the queue. There is no request at 0. -/
abbrev Answered (s : EappState (FileImports imageSize)) : Prop := AnsweredApart 0 s

theorem Answered.call {s : EappState (FileImports imageSize)} (answered : Answered s) {req : U32}
    (pending : req ∈ s.asyncPendingRequests) : ∃ call ∈ s.pendingGuestCalls, call.arg0 = req :=
  (answered req pending).2 (answered req pending).1

theorem QueueKept.appends {s s' : EappState (FileImports imageSize)} (kept : QueueKept s s') :
    Appends s s' := by
  rw [← kept.state]
  exact ⟨⟨rfl, rfl, rfl, rfl⟩, rfl, rfl, [], by simp [kept.count]⟩

theorem QueueKept.answered {s s' : EappState (FileImports imageSize)} (kept : QueueKept s s') (one : U32) :
    Keeping (AnsweredApart one) s s' := by
  intro answered
  rw [← kept.state]
  exact answered

/-- What an import does to the queue and to the pending requests. -/
structure Serves (s s' : EappState (FileImports imageSize)) : Prop where
  appends : Appends s s'
  answered : Keeping Answered s s'

instance : IsPreorder (EappState (FileImports imageSize)) Serves where
  refl s := ⟨Std.Refl.refl s, Std.Refl.refl (r := Keeping Answered) s⟩
  trans s mid s' first second :=
    ⟨IsTrans.trans s mid s' first.appends second.appends, second.answered ∘ first.answered⟩

theorem QueueKept.serves {s s' : EappState (FileImports imageSize)} (kept : QueueKept s s') :
    Serves s s' := ⟨kept.appends, kept.answered 0⟩

theorem Quiet.serves {s s' : EappState (FileImports imageSize)} (quiet : Quiet s s') : Serves s s' :=
  quiet.toQueueKept.serves

namespace FileM

variable {α : Type}

theorem appends_pushCall {call : PendingGuestCall} (callable : call.pc ≠ 0) :
    (pushCall call : FileM imageSize Unit).Respects Appends :=
  respects_modify fun _ => ⟨⟨rfl, rfl, rfl, rfl⟩, rfl, rfl, [call], rfl, by simpa using callable, rfl⟩

theorem leads_pushCall {call : PendingGuestCall} {one : U32} (answers : one = 0 ∨ call.arg0 = one) :
    (pushCall call : FileM imageSize Unit).Leads (AnsweredApart one) Answered := by
  refine leads_modify fun s answered req pending => ⟨(answered req pending).1, fun other => ?_⟩
  by_cases same : req = one
  · refine ⟨call, List.mem_append_right _ (.head _), ?_⟩
    rw [same, answers.resolve_left fun zero => other (same.trans zero)]
  · obtain ⟨found, queued, matching⟩ := (answered req pending).2 same
    exact ⟨found, List.mem_append_left _ queued, matching⟩

theorem serves_pushCall {call : PendingGuestCall} (callable : call.pc ≠ 0) :
    (pushCall call : FileM imageSize Unit).Respects Serves := by
  refine ((appends_pushCall callable).and ?_).mono fun _ _ both => ⟨both.1, both.2⟩
  exact (leads_pushCall (.inl rfl)).respects

theorem leads_removePending (req : U32) :
    (removePending req : FileM imageSize Unit).Leads (AnsweredApart req) Answered := by
  refine leads_modify fun s answered other pending => ?_
  obtain ⟨apart, pending⟩ := Finset.mem_erase.mp pending
  exact ⟨(answered other pending).1, fun _ => (answered other pending).2 apart⟩

theorem appends_pending (f : Finset U32 → Finset U32) :
    (modify fun s => { s with asyncPendingRequests := f s.asyncPendingRequests } :
      FileM imageSize Unit).Respects Appends :=
  respects_modify fun _ => ⟨⟨rfl, rfl, rfl, rfl⟩, rfl, rfl, [], by simp⟩

theorem serves_openFile (hostPath : PathString) :
    (openFile hostPath : FileM imageSize U32).Respects Serves :=
  (queue_openFile hostPath).mono fun _ _ => QueueKept.serves

/-! ### What all imports respect -/

/-- Respected by all that only looks at the game or writes to it, and by what calls it back. -/
structure Admits (R : EappState (FileImports imageSize) → EappState (FileImports imageSize) → Prop) :
    Prop where
  quiet : ∀ s s', Quiet s s' → R s s'
  push : ∀ call, call.pc ≠ 0 → (pushCall call).Respects R

theorem admits_serves : Admits (@Serves imageSize) :=
  ⟨fun _ _ => Quiet.serves, fun _ => serves_pushCall⟩

theorem admits_appends : Admits (@Appends imageSize) :=
  ⟨fun _ _ quiet => quiet.toQueueKept.appends, fun _ => appends_pushCall⟩

section admits

variable {R : EappState (FileImports imageSize) → EappState (FileImports imageSize) → Prop}

theorem Admits.of_quiet (admits : Admits R) {r : FileM imageSize α} (quiet : r.Respects Quiet) :
    r.Respects R := quiet.mono admits.quiet

variable [IsPreorder _ R] (admits : Admits R) (env : FileEnv)
include admits

/-- The answer of an owner object, and its callback. -/
theorem Admits.answer {addr val addr' val' : U32} {call : PendingGuestCall} (callable : call.pc ≠ 0) :
    (do
      let _ ← writeGuestU32 addr val
      let _ ← writeGuestU32 addr' val'
      pushCall call : FileM imageSize Unit).Respects R :=
  (admits.of_quiet (quiet_writeGuestU32 _ _)).bind fun _ =>
    (admits.of_quiet (quiet_writeGuestU32 _ _)).bind fun _ => admits.push call callable

theorem Admits.completeRequest (owner : U32) :
    (completeRequest env owner : FileM imageSize U32).Respects R := by
  refine (admits.of_quiet (quiet_word _)).bind fun req => (admits.of_quiet (quiet_words _)).bind fun _ => ?_
  exact (respects_when fun _ => admits.answer (show (0x1801fbfc : U32) ≠ 0 by decide)).bind fun _ => .pure 1

theorem Admits.completeControl (owner : U32) :
    (completeControl env owner : FileM imageSize U32).Respects R := by
  refine (admits.of_quiet (quiet_word _)).bind fun callbackPc => ?_
  refine (admits.of_quiet (quiet_word _)).bind fun callbackCtx => ?_
  refine (respects_when fun complete => ?_).bind fun _ => .pure 1
  exact (admits.of_quiet (quiet_writeGuestBytes _ _)).bind fun _ => admits.push _ complete.2.2.2

theorem Admits.openStream (path : PathString) (owner : U32) :
    (openStream env path owner : FileM imageSize U32).Respects R := by
  refine (admits.of_quiet (quiet_resolve env path)).bind fun resolved => ?_
  cases resolved with
  | none => exact .pure 0
  | some hostPath =>
    refine (respects_look _).bind fun bytes => (respects_when fun _ => ?_).bind fun _ => .pure 1
    refine (admits.of_quiet (quiet_writeGuestU32 _ _)).bind fun _ => ?_
    refine (admits.of_quiet (quiet_writeGuestU32 _ _)).bind fun _ => ?_
    refine (admits.push _ (show (0x1801fbfc : U32) ≠ 0 by decide)).bind fun _ => ?_
    exact respects_when fun _ => admits.of_quiet (quiet_words _)

theorem Admits.listFolders (path : PathString) (req : U32) :
    (listFolders env path req : FileM imageSize U32).Respects R := by
  refine Respects.ite (fun _ => .pure 0) fun _ => ?_
  refine (admits.of_quiet (quiet_word _)).bind fun callbackPc => ?_
  refine (admits.of_quiet (quiet_word _)).bind fun callbackCtx => ?_
  refine (admits.of_quiet (quiet_resolve env path)).bind fun resolved => ?_
  cases resolved with
  | none => exact .pure 0
  | some hostPath =>
    refine (respects_look _).bind fun entries => (admits.of_quiet (quiet_writeGuestU32 _ _)).bind fun _ => ?_
    refine (admits.of_quiet (quiet_writeGuestU32 _ _)).bind fun _ => ?_
    refine (respects_when fun named => ?_).bind fun _ => .pure 1
    exact admits.push _ named

/-- With relations that the pending requests do not matter to. -/
theorem Admits.requestFile (pending : ∀ f : Finset U32 → Finset U32,
      (modify fun s => { s with asyncPendingRequests := f s.asyncPendingRequests } :
        FileM imageSize Unit).Respects R) (path : PathString) (req : U32) :
    (requestFile env path req : FileM imageSize U32).Respects R := by
  refine (respects_when fun _ => pending (insert req)).bind fun _ => ?_
  refine (admits.of_quiet (quiet_dumpRequestObject req)).bind fun _ => ?_
  refine (admits.of_quiet (quiet_resolve env path)).bind fun resolved => ?_
  cases resolved with
  | none => exact (pending (·.erase req)).bind fun _ => .pure 0
  | some hostPath =>
    refine (admits.of_quiet (quiet_word _)).bind fun dest => ?_
    refine (admits.of_quiet (quiet_word _)).bind fun want => ?_
    refine (admits.of_quiet (quiet_word _)).bind fun callbackPc => ?_
    refine (admits.of_quiet (quiet_word _)).bind fun callbackCtx => ?_
    refine (admits.of_quiet (quiet_deliverFile env hostPath req dest want)).bind fun _ => ?_
    refine Respects.ite (fun named => ?_) fun _ => ?_
    · exact (admits.push _ named).bind fun _ => .pure 1
    · exact (pending (·.erase req)).bind fun _ => .pure 1

theorem Admits.openPath (opens : ∀ hostPath, (openFile hostPath : FileM imageSize U32).Respects R)
    (path : PathString) (out : U32) : (openPath env path out : FileM imageSize U32).Respects R := by
  refine (admits.of_quiet (quiet_resolve env path)).bind fun resolved => ?_
  cases resolved with
  | none => exact .pure 8
  | some hostPath =>
    refine (opens hostPath).bind fun handle => Respects.bind ?_ fun _ => .pure 0
    exact respects_when fun _ => (admits.of_quiet (quiet_writeGuestU32 _ _)).bind fun _ => .pure ()

/-- Opening a file and requesting one are the two that may need an argument of their own. -/
theorem Admits.handleAsyncFileIoImport (ordinal : U32) (args : GuestArgs)
    (opens : ordinal = 12 → ∀ path out, (FileM.openPath env path out).Respects R)
    (requests : ordinal = 3 → ∀ path req, (FileM.requestFile env path req).Respects R) :
    (handleAsyncFileIoImport env ordinal args : FileM imageSize U32).Respects R := by
  refine Respects.ite (fun _ => admits.of_quiet (quiet_readOpenFile env _ _ _)) fun _ => ?_
  refine Respects.ite (fun _ => (respects_look _).bind fun _ => .pure _) fun _ => ?_
  refine Respects.ite (fun _ => admits.completeRequest env _) fun _ => ?_
  refine Respects.ite (fun _ => admits.completeControl env _) fun _ => ?_
  refine (admits.of_quiet (quiet_findPath args)).bind fun found => ?_
  cases found with
  | none => exact .pure 0
  | some path =>
    refine (admits.of_quiet (quiet_fillFramebuffer _)).bind fun _ => ?_
    refine Respects.ite (fun opened => opens opened path _) fun _ => ?_
    refine Respects.ite (fun _ => admits.openStream env path _) fun _ => ?_
    refine Respects.ite (fun requested => requests requested path _) fun _ => ?_
    exact Respects.ite (fun _ => admits.listFolders env path _) fun _ => .pure 1

theorem Admits.handleFilesystemImport (ordinal : U32) (args : GuestArgs)
    (opens : ordinal = 0 → ∀ hostPath, (openFile hostPath : FileM imageSize U32).Respects R) :
    (handleFilesystemImport env ordinal args : FileM imageSize U32).Respects R := by
  refine (admits.of_quiet (quiet_find _)).bind fun found => Respects.ite (fun opened => ?_) fun _ => .pure 0
  cases found with
  | none => exact .pure 1
  | some path =>
    refine (admits.of_quiet (quiet_resolve env path)).bind fun resolved => ?_
    cases resolved with
    | none => exact .pure 1
    | some hostPath =>
      refine (respects_look _).bind fun there => Respects.bind ?_ fun _ => .pure 1
      exact respects_when fun _ => (opens opened hostPath).bind fun _ => .pure ()

end admits

/-! ### The imports serve the queue -/

section serves

variable (env : FileEnv)

theorem leads_quiet {r : FileM imageSize α} (quiet : r.Respects Quiet) (one : U32) :
    r.Leads (AnsweredApart one) (AnsweredApart one) :=
  (quiet.mono fun _ _ quiet => quiet.toQueueKept.answered one).leads

/-- The request is pending without a callback only until the import returns. -/
theorem leads_requestFile (path : PathString) (req : U32) :
    (requestFile env path req : FileM imageSize U32).Leads Answered Answered := by
  have begins : (when (req ≠ 0) (addPending req) : FileM imageSize Unit).Leads Answered
      (AnsweredApart req) := by
    refine Leads.ite (fun nonzero => ?_) fun zero => Leads.pure (fun s answered => ?_) ()
    · refine leads_modify fun s answered other pending => ?_
      obtain rfl | pending := Finset.mem_insert.mp pending
      · exact ⟨nonzero, fun apart => absurd rfl apart⟩
      · exact ⟨(answered other pending).1, fun _ => answered.call pending⟩
    · rw [not_not.mp zero]
      exact answered
  refine begins.bind fun _ => (leads_quiet (quiet_dumpRequestObject req) req).bind fun _ => ?_
  refine (leads_quiet (quiet_resolve env path) req).bind fun resolved => ?_
  cases resolved with
  | none => exact (leads_removePending req).bind fun _ => Leads.pure (fun _ h => h) 0
  | some hostPath =>
    refine (leads_quiet (quiet_word _) req).bind fun dest => ?_
    refine (leads_quiet (quiet_word _) req).bind fun want => ?_
    refine (leads_quiet (quiet_word _) req).bind fun callbackPc => ?_
    refine (leads_quiet (quiet_word _) req).bind fun callbackCtx => ?_
    refine (leads_quiet (quiet_deliverFile env hostPath req dest want) req).bind fun _ => ?_
    refine Leads.ite (fun _ => ?_) fun _ => ?_
    · refine Leads.bind (M := Answered) ?_ fun _ => Leads.pure (fun _ h => h) 1
      exact leads_pushCall (.inr rfl)
    · exact (leads_removePending req).bind fun _ => Leads.pure (fun _ h => h) 1

theorem serves_handleAsyncFileIoImport (ordinal : U32) (args : GuestArgs) :
    (handleAsyncFileIoImport env ordinal args : FileM imageSize U32).Respects Serves := by
  refine admits_serves.handleAsyncFileIoImport env ordinal args (fun _ path out => ?_) fun _ path req => ?_
  · exact admits_serves.openPath env serves_openFile path out
  · refine ((admits_appends.requestFile env appends_pending path req).and ?_).mono
      fun _ _ both => ⟨both.1, both.2⟩
    exact (leads_requestFile env path req).respects

theorem serves_handleFilesystemImport (ordinal : U32) (args : GuestArgs) :
    (handleFilesystemImport env ordinal args : FileM imageSize U32).Respects Serves :=
  admits_serves.handleFilesystemImport env ordinal args fun _ => serves_openFile

end serves

end FileM
end Clicky
