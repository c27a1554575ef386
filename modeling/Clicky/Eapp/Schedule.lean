import Clicky.Eapp.Machine
import Clicky.Lib.Runs

/-! Completion callbacks over whole runs of a game. -/
namespace Clicky
open Runs

inductive Task where
  | entry | frame | callback
  deriving DecidableEq, Repr

/-- A function of the game as it was entered: where it begins, where it is to return to, and its
two arguments. -/
structure Started where
  pc : U32
  lr : U32
  r0 : U32
  r1 : U32
  deriving DecidableEq, Repr

def Cpu.started (c : Cpu) : Started :=
  { pc := c.get .pc, lr := c.get .lr, r0 := c.get .r0, r1 := c.get .r1 }

def Started.task (f : Started) : Task :=
  if f.lr = guestCallbackReturnPc then .callback else .frame

def PendingGuestCall.started (call : PendingGuestCall) : Started :=
  { pc := call.pc, lr := guestCallbackReturnPc, r0 := call.arg0, r1 := call.arg1 }

theorem PendingGuestCall.task_started (call : PendingGuestCall) : call.started.task = .callback :=
  if_pos rfl

/-- The calls among the functions that were entered, as their registers tell. -/
def dispatched (fs : List Started) : List PendingGuestCall :=
  (fs.filter fun f => f.task = .callback).map fun f => { pc := f.pc, arg0 := f.r0, arg1 := f.r1 }

/-- A game at work: the emulator as it was when the running function was entered or an import
returned, and what has happened so far. -/
structure Play (ρ : Type) where
  eapp : Eapp ρ
  linked : U32
  started : List Started := []
  enqueued : List PendingGuestCall := []

/-- The game returns with any registers, having moved the allocator on; or an import handler puts
a callback in the queue. -/
inductive PlayEvent where
  | returned (task : Task) (cpu : Cpu) (nextAlloc : U32)
  | enqueued (call : PendingGuestCall)

namespace Play

variable {ρ : Type}

def start (entryAddr auxAddr : U32) (vortex : Bool) (rest : ρ) : Play ρ :=
  let eapp := Eapp.start entryAddr auxAddr vortex rest
  { eapp, linked := eapp.cpu.get .lr }

def running (p : Play ρ) : Task :=
  match p.started.getLast? with
  | none => .entry
  | some f => f.task

def pending (p : Play ρ) : List PendingGuestCall := p.eapp.state.pendingGuestCalls

/-- A function returns by jumping to the link register it was given. -/
def step (p : Play ρ) : PlayEvent → Option (Play ρ)
  | .returned task cpu nextAlloc =>
    if task = p.running ∧ cpu.get .pc = p.linked then
      match Eapp.step { cpu, state := { p.eapp.state with nextAlloc } } with
      | .done eapp _ => some { p with
          eapp
          linked := eapp.cpu.get .lr
          started := p.started ++ [eapp.cpu.started] }
      | .panic _ => none
    else none
  | .enqueued call =>
    if call.pc = 0 then none
    else
      let state := { p.eapp.state with
        pendingGuestCalls := p.eapp.state.pendingGuestCalls ++ [call] }
      some { p with eapp := { p.eapp with state }, enqueued := p.enqueued ++ [call] }

/-- What was entered is the frame function or a callback, and the callbacks are, one for one and
in order, those that were put in the queue, up to the ones still in it. -/
def Delivered (p : Play ρ) : Prop :=
  dispatched p.started ++ p.pending = p.enqueued ∧
    ∀ f ∈ p.started, f.lr = guestCallbackReturnPc ∨
      f.lr = bootstrapReturnPc ∧ f.pc = p.eapp.state.auxAddr

/-- Apart from the first time, the frame function is entered only when no callback is pending. -/
def FrameWaits (p : Play ρ) (e : PlayEvent) : Prop :=
  ∀ p' f, p.step e = some p' → p'.started = p.started ++ [f] → f.task = .frame →
    p.started = [] ∨ p.pending = []

/-- The frame counter counts the returns of the frame function, and nothing else. -/
def CountsFrames (p : Play ρ) (e : PlayEvent) : Prop :=
  ∀ p', p.step e = some p' → p'.eapp.state.frameCounter =
    match e with
    | .returned .frame _ _ => p.eapp.state.frameCounter + 1
    | _ => p.eapp.state.frameCounter

end Play

namespace Eapp

variable {ρ : Type}

/-- What the schedule depends on, apart from the phase, is as it was. -/
structure Kept (s s' : EappState ρ) : Prop where
  auxAddr : s'.auxAddr = s.auxAddr
  pending : s'.pendingGuestCalls = s.pendingGuestCalls
  frameCounter : s'.frameCounter = s.frameCounter
  halted : s'.halted = s.halted

theorem Kept.alloc {s : EappState ρ} {t : Eapp ρ} (kept : Kept s t.state) (len : U32) :
    (t.alloc len).Leaves fun t' => Kept s t'.state := by
  rw [Eapp.alloc, Outcome.leaves_zoom]
  exact fun _ _ => ⟨kept.auxAddr, kept.pending, kept.frameCounter, kept.halted⟩

theorem Kept.vortex {s : EappState ρ} {t : Eapp ρ} (kept : Kept s t.state) :
    t.vortexPreallocateSurfaces.Leaves fun t' => Kept s t'.state := by
  refine Outcome.Leaves.forEach (I := fun t' : Eapp ρ => Kept s t'.state) ?_ kept _
  intro t' len here
  exact Outcome.leaves_map.mpr (here.alloc len)

/-- The frame function was entered. -/
structure AtFrame (s : Eapp ρ) : Prop where
  pc : s.cpu.get .pc = s.state.auxAddr
  lr : s.cpu.get .lr = bootstrapReturnPc

theorem atFrame_queueNextFrame (s : Eapp ρ) : s.queueNextFrame.AtFrame :=
  ⟨Cpu.call_pc .., Cpu.call_lr ..⟩

theorem bootstrapReturn_entry {s : Eapp ρ} (entry : s.state.bootstrapPhase = .entry) :
    s.handleBootstrapReturn.Leaves fun s' =>
      s'.AtFrame ∧ s'.state.bootstrapPhase = .running ∧ Kept s.state s'.state := by
  have same : Kept s.state s.state := ⟨rfl, rfl, rfl, rfl⟩
  rw [handleBootstrapReturn, entry]
  refine (same.alloc 0x2000).andThen fun s₁ appObject kept₁ => ?_
  have named : Kept s.state { s₁.state with appObject } :=
    ⟨kept₁.auxAddr, kept₁.pending, kept₁.frameCounter, kept₁.halted⟩
  refine (named.alloc (t := { s₁ with state := { s₁.state with appObject } }) 0x80).andThen
    fun s₂ frameContext kept₂ => ?_
  have both : Kept s.state { s₂.state with frameContext } :=
    ⟨kept₂.auxAddr, kept₂.pending, kept₂.frameCounter, kept₂.halted⟩
  refine Outcome.Leaves.andThen (P := fun t => Kept s.state t.state) ?_ fun s₃ _ kept₃ => ?_
  · split
    · exact both.vortex (t := { s₂ with state := { s₂.state with frameContext } })
    · exact (Outcome.leaves_done ..).mpr both
  · refine (Outcome.leaves_done ..).mpr ⟨atFrame_queueNextFrame _, rfl, ?_⟩
    exact ⟨kept₃.auxAddr, kept₃.pending, kept₃.frameCounter, kept₃.halted⟩

/-- The next function is the frame function if no callback is pending, else the first callback. -/
theorem resume_spec (s : Eapp ρ) :
    (s.state.pendingGuestCalls = [] ∧ s.resume.AtFrame ∧ s.resume.state = s.state) ∨
      ∃ call calls, s.state.pendingGuestCalls = call :: calls ∧
        s.resume.cpu.started = call.started ∧
        Kept { s.state with pendingGuestCalls := calls } s.resume.state ∧
        s.resume.state.bootstrapPhase = s.state.bootstrapPhase := by
  cases queue : s.state.pendingGuestCalls with
  | nil =>
    have idle : s.resume = s.queueNextFrame := by
      rw [resume, dispatchPendingGuestCall, queue]
      rfl
    rw [idle]
    exact .inl ⟨rfl, atFrame_queueNextFrame s, rfl⟩
  | cons call calls =>
    refine .inr ⟨call, calls, rfl, ?_⟩
    rw [resume, dispatchPendingGuestCall, queue]
    refine ⟨?_, ⟨rfl, rfl, rfl, rfl⟩, rfl⟩
    simp only [Cpu.started, PendingGuestCall.started, if_true, Cpu.call_pc, Cpu.call_lr,
      Cpu.call_r0, Cpu.call_r1]

theorem resume_frameCounter (s : Eapp ρ) :
    s.resume.state.frameCounter = s.state.frameCounter := by
  rcases s.resume_spec with ⟨_, _, same⟩ | ⟨_, _, _, _, kept, _⟩
  · rw [same]
  · exact kept.frameCounter

/-- The link register of the entry function was never set in its mode. -/
theorem start_lr (entryAddr auxAddr : U32) (vortex : Bool) (rest : ρ) :
    (start entryAddr auxAddr vortex rest).cpu.get .lr = 0 := by
  have supervisor : (start entryAddr auxAddr vortex rest).cpu.mode = .supervisor := by
    simp only [Cpu.mode, start_status]
    rfl
  rw [Cpu.get, supervisor]
  simp only [start, Cpu.regSet, Cpu.regGet]
  rw [Function.update_of_ne (by decide), Function.update_of_ne (by decide),
    Function.update_of_ne (by decide)]
  rfl

theorem step_running {s : Eapp ρ} (awake : s.state.halted = false)
    (running : s.state.bootstrapPhase = .running) :
    (s.cpu.get .pc = bootstrapReturnPc → s.step =
      .ok (resume { s with state :=
        { s.state with frameCounter := s.state.frameCounter + 1 } }) ()) ∧
      (s.cpu.get .pc = guestCallbackReturnPc → s.step = .ok s.resume ()) := by
  have go_on : ¬ s.state.halted = true := by simp [awake]
  constructor
  · intro at_return
    rw [step, if_neg go_on, if_pos (.inl at_return), handleBootstrapReturn, running]
  · intro at_return
    have elsewhere : ¬ (s.cpu.get .pc = bootstrapReturnPc ∨
        (s.cpu.get .pc = 0 ∧ s.state.bootstrapPhase ≠ .done)) := by
      rw [at_return]
      exact fun either => either.elim (by decide) fun null => absurd null.1 (by decide)
    rw [step, if_neg go_on]
    dsimp only
    rw [if_neg elsewhere, if_pos at_return, handleGuestCallbackReturn]

theorem step_entry {s : Eapp ρ} (awake : s.state.halted = false)
    (entry : s.state.bootstrapPhase = .entry) (null : s.cpu.get .pc = 0) :
    s.step = s.handleBootstrapReturn := by
  have go_on : ¬ s.state.halted = true := by simp [awake]
  rw [step, if_neg go_on]
  exact if_pos (.inr ⟨null, by rw [entry]; decide⟩)

end Eapp

namespace Play

variable {ρ : Type}

/-- The entry function runs, linked to address 0; or the last function that was entered runs. -/
structure Inv (p : Play ρ) : Prop where
  delivered : p.Delivered
  awake : p.eapp.state.halted = false
  runs : (p.started = [] ∧ p.linked = 0 ∧ p.eapp.state.bootstrapPhase = .entry) ∨
    ∃ fs f, p.started = fs ++ [f] ∧ p.linked = f.lr ∧ p.eapp.state.bootstrapPhase = .running ∧
      (f.lr = guestCallbackReturnPc ∨ f.lr = bootstrapReturnPc)

/-- What a return does: `f` is entered, in its turn. -/
structure Entered (p p' : Play ρ) (f : Started) : Prop where
  started : p'.started = p.started ++ [f]
  linked : p'.linked = f.lr
  enqueued : p'.enqueued = p.enqueued
  awake : p'.eapp.state.halted = false
  running : p'.eapp.state.bootstrapPhase = .running
  auxAddr : p'.eapp.state.auxAddr = p.eapp.state.auxAddr
  turn : (f.lr = bootstrapReturnPc ∧ f.pc = p.eapp.state.auxAddr ∧
      (p.started = [] ∨ p.pending = []) ∧ p'.pending = p.pending) ∨
    ∃ call, p.pending = call :: p'.pending ∧ f = call.started

/-- The play after a return, with the emulator as the return has left it. -/
def continued (p : Play ρ) (eapp : Eapp ρ) : Play ρ :=
  { p with eapp, linked := eapp.cpu.get .lr, started := p.started ++ [eapp.cpu.started] }

theorem entered_resume {p : Play ρ} {s : Eapp ρ} (queue : s.state.pendingGuestCalls = p.pending)
    (auxAddr : s.state.auxAddr = p.eapp.state.auxAddr) (awake : s.state.halted = false)
    (running : s.state.bootstrapPhase = .running) :
    p.Entered (p.continued s.resume) s.resume.cpu.started := by
  rcases s.resume_spec with ⟨idle, frame, same⟩ | ⟨call, calls, busy, entered, kept, phase⟩
  · have pending : (p.continued s.resume).pending = p.pending := by
      rw [← queue, ← same]
      rfl
    refine ⟨rfl, rfl, rfl, same ▸ awake, same ▸ running, same ▸ auxAddr, .inl ⟨frame.lr, ?_,
      .inr (queue.symm.trans idle), pending⟩⟩
    exact frame.pc.trans (same ▸ auxAddr)
  · refine ⟨rfl, rfl, rfl, kept.halted.trans awake, phase.trans running,
      kept.auxAddr.trans auxAddr, .inr ⟨call, ?_, entered⟩⟩
    rw [← queue, busy]
    exact congrArg (call :: ·) kept.pending.symm

theorem returned_spec {p p' : Play ρ} {task : Task} {cpu : Cpu} {nextAlloc : U32} (inv : p.Inv)
    (stepped : p.step (.returned task cpu nextAlloc) = some p') :
    (∃ f, p.Entered p' f) ∧ p'.eapp.state.frameCounter =
      if task = .frame then p.eapp.state.frameCounter + 1 else p.eapp.state.frameCounter := by
  rw [step] at stepped
  split at stepped
  · rename_i guard
    obtain ⟨who, back⟩ := guard
    rcases inv.runs with ⟨none_yet, null, phase⟩ | ⟨fs, f, last, link, phase, kind⟩
    · have entry : task = .entry := by
        rw [who, running, none_yet]
        rfl
      have left := Eapp.bootstrapReturn_entry
        (s := { cpu, state := { p.eapp.state with nextAlloc } }) phase
      rw [Eapp.step_entry (s := { cpu, state := { p.eapp.state with nextAlloc } }) inv.awake phase
        (back.trans null)] at stepped
      cases ends : Eapp.handleBootstrapReturn { cpu, state := { p.eapp.state with nextAlloc } } with
      | panic m =>
        rw [ends] at stepped
        cases stepped
      | done s r =>
        rw [ends] at stepped left
        obtain ⟨frame, running, kept⟩ := (Outcome.leaves_done ..).mp left
        cases stepped
        refine ⟨⟨_, rfl, rfl, rfl, kept.halted.trans inv.awake, running, kept.auxAddr,
          .inl ⟨frame.lr, frame.pc.trans kept.auxAddr, .inl none_yet, kept.pending⟩⟩, ?_⟩
        rw [entry, if_neg (by decide)]
        exact kept.frameCounter
    · have runs : task = f.task := by
        rw [who, running, last, List.getLast?_concat]
      have ⟨frame, callback⟩ := Eapp.step_running
        (s := { cpu, state := { p.eapp.state with nextAlloc } }) inv.awake phase
      rcases kind with called | framed
      · have not_frame : task ≠ .frame := by
          rw [runs, Started.task, if_pos called]
          decide
        rw [callback (back.trans (link.trans called))] at stepped
        cases stepped
        rw [if_neg not_frame]
        exact ⟨⟨_, entered_resume rfl rfl inv.awake phase⟩, Eapp.resume_frameCounter _⟩
      · have frame_task : task = .frame := by
          rw [runs, Started.task, if_neg (by rw [framed]; decide)]
        rw [frame (back.trans (link.trans framed))] at stepped
        cases stepped
        rw [if_pos frame_task]
        exact ⟨⟨_, entered_resume rfl rfl inv.awake phase⟩, Eapp.resume_frameCounter _⟩
  · cases stepped

theorem enqueued_spec {p p' : Play ρ} {call : PendingGuestCall}
    (stepped : p.step (.enqueued call) = some p') :
    p'.pending = p.pending ++ [call] ∧ p'.enqueued = p.enqueued ++ [call] ∧
      p'.started = p.started ∧ p'.linked = p.linked ∧
      Eapp.Kept { p.eapp.state with pendingGuestCalls := p'.pending } p'.eapp.state ∧
      p'.eapp.state.bootstrapPhase = p.eapp.state.bootstrapPhase := by
  rw [step] at stepped
  split at stepped
  · cases stepped
  · cases stepped
    exact ⟨rfl, rfl, rfl, rfl, ⟨rfl, rfl, rfl, rfl⟩, rfl⟩

theorem dispatched_concat (fs : List Started) (f : Started) :
    dispatched (fs ++ [f]) = dispatched fs ++
      if f.task = .callback then [{ pc := f.pc, arg0 := f.r0, arg1 := f.r1 }] else [] := by
  unfold dispatched
  rw [List.filter_append, List.map_append]
  by_cases called : f.task = .callback
  · simp [called]
  · simp [called]

theorem Entered.delivered {p p' : Play ρ} {f : Started} (entered : p.Entered p' f)
    (before : p.Delivered) : p'.Delivered := by
  obtain ⟨fifo, known⟩ := before
  have aux := entered.auxAddr
  constructor
  · rw [entered.started, entered.enqueued, dispatched_concat, ← fifo]
    rcases entered.turn with ⟨frame, _, _, same⟩ | ⟨call, queue, rfl⟩
    · have not_called : f.task ≠ .callback := by
        rw [Started.task, if_neg (by rw [frame]; decide)]
        decide
      rw [if_neg not_called, List.append_nil, same]
    · rw [if_pos call.task_started, queue, List.append_assoc]
      rfl
  · intro g member
    rw [entered.started] at member
    rw [aux]
    rcases List.mem_append.mp member with old | new
    · exact known g old
    · rw [List.mem_singleton.mp new]
      rcases entered.turn with ⟨frame, pc, _⟩ | ⟨call, _, rfl⟩
      · exact .inr ⟨frame, pc⟩
      · exact .inl rfl

theorem Inv.step {p p' : Play ρ} {e : PlayEvent} (inv : p.Inv) (stepped : p.step e = some p') :
    p'.Inv := by
  cases e with
  | returned task cpu nextAlloc =>
    obtain ⟨⟨f, entered⟩, _⟩ := returned_spec inv stepped
    refine ⟨entered.delivered inv.delivered, entered.awake, .inr ⟨p.started, f, entered.started,
      entered.linked, entered.running, ?_⟩⟩
    rcases entered.turn with ⟨frame, _⟩ | ⟨call, _, rfl⟩
    · exact .inr frame
    · exact .inl rfl
  | enqueued call =>
    obtain ⟨queue, all, started, linked, kept, phase⟩ := enqueued_spec stepped
    obtain ⟨fifo, known⟩ := inv.delivered
    refine ⟨⟨?_, ?_⟩, kept.halted.trans inv.awake, ?_⟩
    · rw [started, queue, all, ← fifo, List.append_assoc]
    · rw [started, kept.auxAddr]
      exact known
    · rw [started, linked, phase]
      exact inv.runs

theorem inv_start (entryAddr auxAddr : U32) (vortex : Bool) (rest : ρ) :
    (start entryAddr auxAddr vortex rest).Inv :=
  ⟨⟨rfl, fun _ impossible => absurd impossible List.not_mem_nil⟩, rfl,
    .inl ⟨rfl, Eapp.start_lr entryAddr auxAddr vortex rest, rfl⟩⟩

theorem frameWaits {p : Play ρ} (inv : p.Inv) (e : PlayEvent) : p.FrameWaits e := by
  intro p' f stepped started framed
  cases e with
  | returned task cpu nextAlloc =>
    obtain ⟨⟨g, entered⟩, _⟩ := returned_spec inv stepped
    have same : g = f := by simpa using entered.started.symm.trans started
    rcases entered.turn with ⟨_, _, turn, _⟩ | ⟨call, _, rfl⟩
    · exact turn
    · rw [← same, call.task_started] at framed
      cases framed
  | enqueued call =>
    obtain ⟨_, _, kept, _⟩ := enqueued_spec stepped
    exact absurd (kept.symm.trans started) (by simp)

theorem countsFrames {p : Play ρ} (inv : p.Inv) (e : PlayEvent) : p.CountsFrames e := by
  intro p' stepped
  cases e with
  | returned task cpu nextAlloc =>
    rw [(returned_spec inv stepped).2]
    cases task <;> rfl
  | enqueued call =>
    obtain ⟨_, _, _, _, kept, _⟩ := enqueued_spec stepped
    exact kept.frameCounter

/-- Over every run of a game the callbacks are delivered exactly once and in order, frames wait
for them, and the frame counter counts the frames. -/
theorem callbacks_delivered (entryAddr auxAddr : U32) (vortex : Bool) (rest : ρ)
    (es : List PlayEvent) :
    Always step Delivered (start entryAddr auxAddr vortex rest) es ∧
      EveryStep step FrameWaits (start entryAddr auxAddr vortex rest) es ∧
      EveryStep step CountsFrames (start entryAddr auxAddr vortex rest) es := by
  have initial := inv_start entryAddr auxAddr vortex rest
  have preserved : ∀ (p : Play ρ) e p', p.Inv → p.step e = some p' → p'.Inv :=
    fun _ _ _ inv stepped => inv.step stepped
  refine ⟨?_, ?_, ?_⟩
  · exact always_of_invariant preserved (fun _ inv => inv.delivered) initial es
  · exact everyStep_of_invariant preserved (fun _ e inv => frameWaits inv e) initial es
  · exact everyStep_of_invariant preserved (fun _ e inv => countsFrames inv e) initial es

end Play
end Clicky
