import Clicky.Eapp.FileRequests

/-! Whole runs of a game with its file imports. -/
namespace Clicky
open Runs Routine FileM

/-- The running function returns; the game calls a file import; or others change the memory of the game
and the files of the host. -/
inductive FileEvent (imageSize : Nat) where
  | returned (task : Task) (cpu : Cpu) (nextAlloc : U32)
  | asyncFileIo (ordinal : U32) (args : GuestArgs)
  | filesystem (ordinal : U32) (args : GuestArgs)
  | others (bus : EappBus imageSize) (fs : FileSystem)

def FileEvent.isReturned {imageSize : Nat} : FileEvent imageSize → Bool
  | .returned _ _ _ => true
  | _ => false

namespace Play

variable {imageSize : Nat}

/-- What an import has put into the queue counts as enqueued. -/
def afterImport (p : Play (FileImports imageSize)) (state : EappState (FileImports imageSize)) :
    Play (FileImports imageSize) :=
  { p with
    eapp := { p.eapp with state }
    enqueued := p.enqueued ++ state.pendingGuestCalls.drop p.pending.length }

def imports (p : Play (FileImports imageSize)) (handler : FileM imageSize U32) :
    Option (Play (FileImports imageSize)) :=
  (handler p.eapp.state).state?.map p.afterImport

def fileStep (env : FileEnv) (p : Play (FileImports imageSize)) :
    FileEvent imageSize → Option (Play (FileImports imageSize))
  | .returned task cpu nextAlloc => p.step (.returned task cpu nextAlloc)
  | .asyncFileIo ordinal args => p.imports (handleAsyncFileIoImport env ordinal args)
  | .filesystem ordinal args => p.imports (handleFilesystemImport env ordinal args)
  | .others bus fs =>
    let rest := { p.eapp.state.rest with bus, fs }
    some { p with eapp := { p.eapp with state := { p.eapp.state with rest } } }

end Play

/-! ### The pending requests between imports -/

namespace Eapp

variable {ρ : Type}

/-- What a return leaves of the requests and of the queue: the first call may be taken out of it. -/
structure Dispatches (s s' : EappState ρ) : Prop where
  rest : s'.rest = s.rest
  queue : (s'.pendingGuestCalls = s.pendingGuestCalls ∧
      s'.asyncPendingRequests = s.asyncPendingRequests ∧
      s'.guestCallbackInvocationCount = s.guestCallbackInvocationCount) ∨
    ∃ call, s.pendingGuestCalls = call :: s'.pendingGuestCalls ∧
      s'.asyncPendingRequests = s.asyncPendingRequests.erase call.arg0 ∧
      s'.guestCallbackInvocationCount = s.guestCallbackInvocationCount + 1

/-- The requests, the queue and the rest are as they were. -/
structure Rests (s s' : EappState ρ) : Prop where
  rest : s'.rest = s.rest
  calls : s'.pendingGuestCalls = s.pendingGuestCalls
  requests : s'.asyncPendingRequests = s.asyncPendingRequests
  invoked : s'.guestCallbackInvocationCount = s.guestCallbackInvocationCount

theorem Rests.alloc {s : EappState ρ} {t : Eapp ρ} (rests : Rests s t.state) (len : U32) :
    (t.alloc len).Leaves fun t' => Rests s t'.state := by
  rw [Eapp.alloc, Outcome.leaves_zoom]
  exact fun _ _ => ⟨rests.rest, rests.calls, rests.requests, rests.invoked⟩

theorem Rests.dispatches {s s' : EappState ρ} (rests : Rests s s') : Dispatches s s' :=
  ⟨rests.rest, .inl ⟨rests.calls, rests.requests, rests.invoked⟩⟩

theorem dispatches_resume (s : Eapp ρ) : Dispatches s.state s.resume.state := by
  cases queue : s.state.pendingGuestCalls with
  | nil =>
    have idle : s.resume = s.queueNextFrame := by simp [resume, dispatchPendingGuestCall, queue]
    rw [idle]
    exact ⟨rfl, .inl ⟨rfl, rfl, rfl⟩⟩
  | cons call calls =>
    simp only [resume, dispatchPendingGuestCall, queue, if_true]
    exact ⟨rfl, .inr ⟨call, by simp [queue]⟩⟩

theorem dispatches_step (s : Eapp ρ) : s.step.Leaves fun s' => Dispatches s.state s'.state := by
  have same : Rests s.state s.state := ⟨rfl, rfl, rfl, rfl⟩
  unfold step
  split
  · simpa using same.dispatches
  · dsimp only
    split
    · unfold handleBootstrapReturn
      split
      · refine (same.alloc 0x2000).andThen fun s₁ appObject rests => ?_
        have named : Rests s.state { s₁.state with appObject } :=
          ⟨rests.rest, rests.calls, rests.requests, rests.invoked⟩
        refine (named.alloc (t := { s₁ with state := { s₁.state with appObject } }) 0x80).andThen
          fun s₂ frameContext rests => ?_
        have both : Rests s.state { s₂.state with frameContext } :=
          ⟨rests.rest, rests.calls, rests.requests, rests.invoked⟩
        refine Outcome.Leaves.andThen (P := fun t => Rests s.state t.state) ?_ fun s₃ _ rests => ?_
        · split
          · refine Outcome.Leaves.forEach (I := fun t : Eapp ρ => Rests s.state t.state) ?_ both _
            exact fun t len rests => Outcome.leaves_map.mpr (rests.alloc len)
          · simpa using both
        · refine (Outcome.leaves_done ..).mpr (Rests.dispatches ?_)
          exact ⟨rests.rest, rests.calls, rests.requests, rests.invoked⟩
      · have counted := dispatches_resume { s with state :=
          { s.state with frameCounter := s.state.frameCounter + 1 } }
        exact (Outcome.leaves_done ..).mpr ⟨counted.rest, counted.queue⟩
      · simpa using (⟨rfl, .inl ⟨rfl, rfl, rfl⟩⟩ : Dispatches s.state { s.state with halted := true })
    · split
      · simpa [handleGuestCallbackReturn] using dispatches_resume s
      · simpa using same.dispatches

end Eapp

namespace FileImports

/-- Before the first import. -/
def new {imageSize : Nat} (bus : EappBus imageSize) (fs : FileSystem) (renderState : List U32) :
    FileImports imageSize := { bus, fs, renderState }

end FileImports

namespace Play

variable {ρ : Type} {imageSize : Nat}

/-! ### The schedule with imports -/

/-- Callbacks are put into the queue, and all else that the schedule depends on is as it was. -/
structure Grows (p p' : Play ρ) : Prop where
  started : p'.started = p.started
  linked : p'.linked = p.linked
  kept : Eapp.Kept { p.eapp.state with pendingGuestCalls := p'.pending } p'.eapp.state
  phase : p'.eapp.state.bootstrapPhase = p.eapp.state.bootstrapPhase
  calls : ∃ new, p'.pending = p.pending ++ new ∧ p'.enqueued = p.enqueued ++ new

theorem Inv.grows {p p' : Play ρ} (inv : p.Inv) (grows : p.Grows p') : p'.Inv := by
  obtain ⟨new, queue, all⟩ := grows.calls
  obtain ⟨fifo, known⟩ := inv.delivered
  refine ⟨⟨?_, ?_⟩, grows.kept.halted.trans inv.awake, ?_⟩
  · rw [grows.started, queue, all, ← fifo, List.append_assoc]
  · rw [grows.started, grows.kept.auxAddr]
    exact known
  · rw [grows.started, grows.linked, grows.phase]
    exact inv.runs

/-- What a return leaves, in a game that goes on. -/
theorem dispatches_returned {p p' : Play ρ} {task : Task} {cpu : Cpu} {nextAlloc : U32}
    (stepped : p.step (.returned task cpu nextAlloc) = some p') :
    Eapp.Dispatches p.eapp.state p'.eapp.state ∧ p'.enqueued = p.enqueued := by
  simp only [step] at stepped
  split at stepped
  · have left := Eapp.dispatches_step { cpu, state := { p.eapp.state with nextAlloc } }
    split at stepped
    · rename_i eapp r ended
      rw [ended, Outcome.leaves_done] at left
      cases stepped
      exact ⟨⟨left.rest, left.queue⟩, rfl⟩
    · cases stepped
  · cases stepped

theorem imports_eq_some {p p' : Play (FileImports imageSize)} {handler : FileM imageSize U32} :
    p.imports handler = some p' ↔ ∃ s ret, handler p.eapp.state = .ok s ret ∧ p.afterImport s = p' := by
  simp only [imports, Option.map_eq_some_iff, Outcome.state?_eq_some]
  constructor
  · rintro ⟨s, ⟨never | ret, ran⟩, rfl⟩
    · exact never.elim
    · exact ⟨s, ret, ran, rfl⟩
  · rintro ⟨s, ret, ran, rfl⟩
    exact ⟨s, ⟨.ok ret, ran⟩, rfl⟩

theorem afterImport_grows (p : Play (FileImports imageSize)) {s : EappState (FileImports imageSize)}
    (appends : Appends p.eapp.state s) : p.Grows (p.afterImport s) := by
  obtain ⟨new, grown, _⟩ := appends.calls
  refine ⟨rfl, rfl, appends.kept, appends.phase, new, grown, ?_⟩
  simp [afterImport, pending, grown]

/-- What a step does to the queue and to the requests in it. -/
structure Accounts (p p' : Play (FileImports imageSize)) : Prop where
  inv : p.Inv → p'.Inv
  answered : Answered p.eapp.state → Answered p'.eapp.state
  counts : ∃ new taken : List PendingGuestCall, p'.enqueued = p.enqueued ++ new ∧
    taken ++ p'.pending = p.pending ++ new ∧
    p'.eapp.state.rest.asyncCallbackQueuedCount =
      p.eapp.state.rest.asyncCallbackQueuedCount + BitVec.ofNat 64 new.length ∧
    p'.eapp.state.guestCallbackInvocationCount =
      p.eapp.state.guestCallbackInvocationCount + BitVec.ofNat 64 taken.length

theorem accounts_import {p : Play (FileImports imageSize)} {s : EappState (FileImports imageSize)}
    (serves : Serves p.eapp.state s) : p.Accounts (p.afterImport s) := by
  obtain ⟨new, grown, _, counted⟩ := serves.appends.calls
  refine ⟨fun inv => inv.grows (p.afterImport_grows serves.appends), serves.answered, new, [], ?_⟩
  refine ⟨by simp [afterImport, pending, grown], grown, counted, ?_⟩
  simpa [afterImport] using serves.appends.invoked

theorem accounts_returned {p p' : Play (FileImports imageSize)} {task : Task} {cpu : Cpu}
    {nextAlloc : U32} (stepped : p.step (.returned task cpu nextAlloc) = some p') : p.Accounts p' := by
  obtain ⟨⟨rest, queue⟩, all⟩ := dispatches_returned stepped
  have counted : p'.eapp.state.rest.asyncCallbackQueuedCount =
      p.eapp.state.rest.asyncCallbackQueuedCount + BitVec.ofNat 64 0 := by simp [rest]
  refine ⟨fun inv => inv.step stepped, ?_, ?_⟩
  · intro answered req pending
    obtain ⟨calls, requests, _⟩ | ⟨call, calls, requests, _⟩ := queue
    · rw [requests] at pending
      rw [calls]
      exact answered req pending
    · rw [requests] at pending
      obtain ⟨apart, pending⟩ := Finset.mem_erase.mp pending
      refine ⟨(answered req pending).1, fun _ => ?_⟩
      obtain ⟨found, queued, same⟩ := answered.call pending
      rw [calls] at queued
      obtain rfl | later := List.mem_cons.mp queued
      · exact absurd same.symm apart
      · exact ⟨found, later, same⟩
  · obtain ⟨calls, _, invoked⟩ | ⟨call, calls, _, invoked⟩ := queue
    · exact ⟨[], [], by simp [all], by simp [pending, calls], counted, by simp [invoked]⟩
    · exact ⟨[], [call], by simp [all], by simp [pending, calls], counted, invoked⟩

theorem accounts_fileStep (env : FileEnv) {p p' : Play (FileImports imageSize)}
    {e : FileEvent imageSize} (stepped : p.fileStep env e = some p') : p.Accounts p' := by
  cases e with
  | returned task cpu nextAlloc => exact accounts_returned stepped
  | asyncFileIo ordinal args =>
    obtain ⟨s, ret, ran, rfl⟩ := imports_eq_some.mp stepped
    exact accounts_import ((serves_handleAsyncFileIoImport env ordinal args).of_ok ran)
  | filesystem ordinal args =>
    obtain ⟨s, ret, ran, rfl⟩ := imports_eq_some.mp stepped
    exact accounts_import ((serves_handleFilesystemImport env ordinal args).of_ok ran)
  | others bus fs =>
    cases stepped
    refine ⟨fun inv => inv.grows ⟨rfl, rfl, ⟨rfl, rfl, rfl, rfl⟩, rfl, [], ?_⟩, id, [], [], ?_⟩
    · simp [pending]
    · simp [pending]

/-- The callbacks are called in the order in which they were put into the queue. Every pending request
has its callback in the queue. The two counters count what came into the queue and what was called. -/
structure Accounted (p : Play (FileImports imageSize)) : Prop where
  delivered : dispatched p.started ++ p.pending = p.enqueued
  answered : ∀ req ∈ p.eapp.state.asyncPendingRequests, ∃ call ∈ p.pending, call.arg0 = req
  queued : p.eapp.state.rest.asyncCallbackQueuedCount = BitVec.ofNat 64 p.enqueued.length
  invoked : p.eapp.state.guestCallbackInvocationCount = BitVec.ofNat 64 (dispatched p.started).length

structure FileInv (p : Play (FileImports imageSize)) : Prop extends Accounted p where
  inv : p.Inv
  answers : Answered p.eapp.state

theorem fileInv_start (entryAddr auxAddr : U32) (vortex : Bool) (bus : EappBus imageSize)
    (fs : FileSystem) (renderState : List U32) :
    (start entryAddr auxAddr vortex (FileImports.new bus fs renderState)).FileInv := by
  have none_pending : Answered
      (start entryAddr auxAddr vortex (FileImports.new bus fs renderState)).eapp.state :=
    fun req impossible => absurd impossible (Finset.notMem_empty req)
  exact ⟨⟨rfl, fun req impossible => absurd impossible (Finset.notMem_empty req), rfl, rfl⟩,
    inv_start entryAddr auxAddr vortex _, none_pending⟩

theorem FileInv.step {env : FileEnv} {p p' : Play (FileImports imageSize)} {e : FileEvent imageSize}
    (inside : p.FileInv) (stepped : p.fileStep env e = some p') : p'.FileInv := by
  obtain ⟨inv, answered, new, taken, all, queue, queued, invoked⟩ := accounts_fileStep env stepped
  have inv' := inv inside.inv
  have answered' := answered inside.answers
  have now := inv'.delivered.1
  have called : (dispatched p'.started).length = (dispatched p.started).length + taken.length := by
    have before := congrArg List.length inside.delivered
    have after := congrArg List.length now
    have parts := congrArg List.length queue
    simp only [all, List.length_append] at before after parts
    omega
  refine ⟨⟨now, fun req pending => answered'.call pending, ?_, ?_⟩, inv', answered'⟩
  · rw [queued, inside.queued, all, List.length_append, BitVec.ofNat_add]
  · rw [invoked, inside.invoked, called, BitVec.ofNat_add]

/-- Over every run of a game with its file imports, no request is pending without a callback, and no
callback is lost, called twice or out of turn. -/
theorem requests_accounted (env : FileEnv) (entryAddr auxAddr : U32) (vortex : Bool)
    (bus : EappBus imageSize) (fs : FileSystem) (renderState : List U32)
    (es : List (FileEvent imageSize)) : Always (fileStep env) Accounted
      (start entryAddr auxAddr vortex (FileImports.new bus fs renderState)) es :=
  always_of_invariant (fun _ _ _ inside stepped => FileInv.step inside stepped)
    (fun _ inside => inside.toAccounted)
    (fileInv_start entryAddr auxAddr vortex bus fs renderState) es

/-! ### How long a request waits -/

def returns (es : List (FileEvent imageSize)) : Nat := es.countP FileEvent.isReturned

/-- The return of the entry function calls no callback. -/
def delay (p : Play ρ) : Nat := if p.started = [] then 1 else 0

/-- What is no return may only make the queue longer. -/
theorem waits {env : FileEnv} {p p' : Play (FileImports imageSize)} {e : FileEvent imageSize}
    (other : e.isReturned = false) (stepped : p.fileStep env e = some p') :
    p'.started = p.started ∧ p.pending <+: p'.pending := by
  cases e with
  | returned task cpu nextAlloc => cases other
  | asyncFileIo ordinal args =>
    obtain ⟨s, ret, ran, rfl⟩ := imports_eq_some.mp stepped
    obtain ⟨new, grown, _⟩ := ((serves_handleAsyncFileIoImport env ordinal args).of_ok ran).appends.calls
    exact ⟨rfl, new, grown.symm⟩
  | filesystem ordinal args =>
    obtain ⟨s, ret, ran, rfl⟩ := imports_eq_some.mp stepped
    obtain ⟨new, grown, _⟩ := ((serves_handleFilesystemImport env ordinal args).of_ok ran).appends.calls
    exact ⟨rfl, new, grown.symm⟩
  | others bus fs =>
    cases stepped
    exact ⟨rfl, List.prefix_refl _⟩

/-- A return calls the first callback in the queue, if it is not that of the entry function. -/
theorem advances {p p' : Play ρ} {task : Task} {cpu : Cpu} {nextAlloc : U32} (inv : p.Inv)
    (stepped : p.step (.returned task cpu nextAlloc) = some p') : p'.delay = 0 ∧
      ((dispatched p'.started = dispatched p.started ∧ p'.pending = p.pending ∧
          (p.delay = 1 ∨ p.pending = [])) ∨
        ∃ call, p.pending = call :: p'.pending ∧
          dispatched p'.started = dispatched p.started ++ [call]) := by
  obtain ⟨⟨f, entered⟩, _⟩ := returned_spec inv stepped
  refine ⟨by simp [delay, entered.started], ?_⟩
  rw [entered.started, dispatched_concat]
  obtain ⟨frame, _, turn, same⟩ | ⟨call, queue, rfl⟩ := entered.turn
  · have not_called : f.task ≠ .callback := by
      rw [Started.task, if_neg (by rw [frame]; decide)]
      decide
    refine .inl ⟨by simp [not_called], same, turn.imp_left fun first => ?_⟩
    simp [delay, first]
  · refine .inr ⟨call, queue, ?_⟩
    rw [if_pos call.task_started]
    rfl

/-- With each return one call fewer is in the queue, of those that were in it. -/
theorem catches_up {env : FileEnv} {p p' : Play (FileImports imageSize)} {es : List (FileEvent imageSize)}
    (inside : p.FileInv) (ran : run (fileStep env) p es = some p') {k : Nat}
    (waiting : k ≤ p.pending.length) (enough : k + p.delay ≤ returns es) :
    (dispatched p.started).length + k ≤ (dispatched p'.started).length := by
  induction es generalizing p k with
  | nil =>
    cases ran
    have none_left : k + p'.delay ≤ 0 := enough
    omega
  | cons e es ih =>
    obtain ⟨mid, stepped, rest⟩ := Option.bind_eq_some_iff.mp ran
    have later := inside.step stepped
    cases kind : e.isReturned with
    | false =>
      obtain ⟨started, queue⟩ := waits kind stepped
      have longer := queue.length_le
      have same : mid.delay = p.delay := by simp [delay, started]
      have counted : returns (e :: es) = returns es := by simp [returns, kind]
      rw [← started]
      exact ih later rest (waiting.trans longer) (by omega)
    | true =>
      have counted : returns (e :: es) = returns es + 1 := by simp [returns, kind]
      cases e with
      | returned task cpu nextAlloc =>
        obtain ⟨begun, ⟨calls, queue, turn⟩ | ⟨call, queue, calls⟩⟩ := advances inside.inv stepped
        · have idle : p.delay = 1 ∨ k = 0 := turn.imp_right fun empty => by simpa [empty] using waiting
          rw [← calls]
          exact ih later rest (queue ▸ waiting) (by omega)
        · have shorter : p.pending.length = mid.pending.length + 1 := by simp [queue]
          have one : (dispatched mid.started).length = (dispatched p.started).length + 1 := by
            simp [calls]
          have fewer := ih later rest (k := k - 1) (by omega) (by omega)
          omega
      | _ => cases kind

theorem enqueued_grows {env : FileEnv} {p p' : Play (FileImports imageSize)}
    {es : List (FileEvent imageSize)} (ran : run (fileStep env) p es = some p') :
    p.enqueued <+: p'.enqueued := by
  induction es generalizing p with
  | nil =>
    cases ran
    exact List.prefix_refl _
  | cons e es ih =>
    obtain ⟨mid, stepped, ran⟩ := Option.bind_eq_some_iff.mp ran
    obtain ⟨_, _, new, _, all, _⟩ := accounts_fileStep env stepped
    exact IsTrans.trans _ _ _ ⟨new, all.symm⟩ (ih ran)

theorem FileInv.run {env : FileEnv} {p p' : Play (FileImports imageSize)} {es : List (FileEvent imageSize)}
    (inside : p.FileInv) (ran : Runs.run (fileStep env) p es = some p') : p'.FileInv :=
  (always_of_invariant (fun _ _ _ inside stepped => FileInv.step inside stepped) (fun _ h => h)
    inside es).run ran

/-- After one more return than there are calls in the queue, all of them have been made. -/
theorem made_of_returns {env : FileEnv} {p p' : Play (FileImports imageSize)}
    {es : List (FileEvent imageSize)} (inside : p.FileInv) (ran : run (fileStep env) p es = some p')
    (enough : p.pending.length < returns es) : p.enqueued <+: dispatched p'.started := by
  have one : p.delay ≤ 1 := by
    unfold delay
    split <;> omega
  have fast := catches_up inside ran (Nat.le_refl _) (by omega)
  refine List.prefix_of_prefix_length_le (enqueued_grows ran) ⟨_, (inside.run ran).delivered⟩ ?_
  rw [← inside.delivered, List.length_append]
  exact fast

/-- Whatever imports the game calls meanwhile, by the time it has returned once more than there were calls
in the queue, every request that was pending has been answered. -/
theorem requests_answered (env : FileEnv) (entryAddr auxAddr : U32) (vortex : Bool)
    (bus : EappBus imageSize) (fs : FileSystem) (renderState : List U32)
    {es es' : List (FileEvent imageSize)} {p p' : Play (FileImports imageSize)}
    (reached : run (fileStep env) (start entryAddr auxAddr vortex (FileImports.new bus fs renderState)) es =
      some p) (ran : run (fileStep env) p es' = some p') (enough : p.pending.length < returns es') :
    ∀ req ∈ p.eapp.state.asyncPendingRequests,
      ∃ call ∈ (dispatched p'.started).drop (dispatched p.started).length, call.arg0 = req := by
  have inside := (fileInv_start entryAddr auxAddr vortex bus fs renderState).run reached
  intro req pending
  obtain ⟨call, queued, same⟩ := inside.answered req pending
  obtain ⟨others, parts⟩ := made_of_returns inside ran enough
  refine ⟨call, ?_, same⟩
  rw [← parts, ← inside.delivered, List.append_assoc, List.drop_left]
  exact List.mem_append_left _ queued

/-- A game whose image has the name of the file in its bundle, and a request for five bytes of it. -/
def requestImage : Ram 0x50 :=
  { mem := ("Manifest.plist".toList.map fun c => BitVec.ofNat 8 c.toNat) ++ [0, 0] ++ List.replicate 20 0 ++
      [0, 0, 0, 0x18, 5, 0, 0, 0] ++ List.replicate 24 0 ++ [0, 1, 0, 0x18, 7, 0, 0, 0, 0, 0, 0, 0]
    size_mem := by decide }

/-- The file has three bytes. -/
def requestEnv : FileEnv :=
  { bundle := .game
    host := { createDirAll := fun fs _ => some fs, write := fun fs _ => some fs }
    read := fun _ _ => some [1, 2, 3]
    readDir := fun _ _ => [] }

def requestPlay : Play (FileImports 0x50) :=
  .start 0 0 false (FileImports.new (.start requestImage) Bundle.hostFiles [])

def requestArgs : GuestArgs := { r0 := 0x18000000, r1 := 0, r2 := 0x18000010, r3 := 0 }

/-- The entry function returns, and then the frame function. -/
def requestReturns : List (FileEvent 0x50) :=
  [.returned .entry .new 0, .returned .frame (Cpu.new.set .pc bootstrapReturnPc) 0]

theorem requests_answered_one : ∃ p p', run (fileStep requestEnv) p requestReturns = some p' ∧
    0x18000010 ∈ p.eapp.state.asyncPendingRequests ∧
    ∃ call ∈ dispatched p'.started, call.arg0 = 0x18000010 := by
  have one : (run (fileStep requestEnv) requestPlay [.asyncFileIo 3 requestArgs]).map (fun p =>
      (p.pending.length, decide (0x18000010 ∈ p.eapp.state.asyncPendingRequests),
        (run (fileStep requestEnv) p requestReturns).isSome)) = some (1, true, true) := by
    decide +kernel
  obtain ⟨p, reached, state⟩ := Option.map_eq_some_iff.mp one
  obtain ⟨size, rest⟩ := Prod.mk.inj state
  obtain ⟨pending, ends⟩ := Prod.mk.inj rest
  obtain ⟨p', ran⟩ := Option.isSome_iff_exists.mp ends
  have pending := of_decide_eq_true pending
  obtain ⟨call, made, same⟩ := requests_answered requestEnv 0 0 false _ _ _ reached ran
    (by rw [size]; decide) _ pending
  exact ⟨p, p', ran, pending, call, List.mem_of_mem_drop made, same⟩

end Play
end Clicky
