import Clicky.Eapp.Alloc
import Clicky.Eapp.Cpu
import Clicky.Eapp.Image
import Mathlib.Data.Fin.VecNotation
import Mathlib.Data.Finset.Basic

/-! Control flow between a game and the emulator: the entry function, one call of the frame
function after the other, completion callbacks in between, and the imports that the game calls. -/
namespace Clicky

def bootstrapReturnPc : U32 := 0x1efffffc
def guestCallbackReturnPc : U32 := 0x1efffff8

structure PendingGuestCall where
  pc : U32
  arg0 : U32
  arg1 : U32
  deriving DecidableEq, Repr

inductive BootstrapPhase where
  | entry | running | done
  deriving DecidableEq, Repr

/-- All of the emulator but the registers of the game. `ρ` is what the functions here do not look
at: memory, files, graphics and diagnostics. -/
structure EappState (ρ : Type) where
  auxAddr : U32
  vortex : Bool
  nextAlloc : U32 := workRamBase + 0x1000
  bootstrapPhase : BootstrapPhase := .entry
  appObject : U32 := 0
  frameContext : U32 := 0
  frameCounter : BitVec 64 := 0
  pendingGuestCalls : List PendingGuestCall := []
  guestCallbackInvocationCount : BitVec 64 := 0
  asyncPendingRequests : Finset U32 := ∅
  halted : Bool := false
  rest : ρ

structure Eapp (ρ : Type) where
  cpu : Cpu
  state : EappState ρ

/-- An import handler is given the import, the program counter, the link register and the first
four registers. It may change anything but the registers. -/
abbrev ImportHandler (ρ : Type) :=
  BoundImport → U32 → U32 → (Fin 4 → U32) → EappState ρ → EappState ρ × U32

namespace Cpu

/-- The registers at power-on: supervisor mode, interrupts off. -/
def new : Cpu :=
  { reg := fun i => if i = cpsr then 0xd3 else 0
    mode_valid := rfl }

/-- Enter a function that is to return to `lr`. -/
def call (c : Cpu) (r0 r1 lr pc : U32) : Cpu :=
  (((c.set .r0 r0).set .r1 r1).set .lr lr).set .pc pc

@[simp] theorem call_pc (c : Cpu) (r0 r1 lr pc : U32) : (c.call r0 r1 lr pc).get .pc = pc := by
  rw [call, get_set, if_pos rfl]

@[simp] theorem call_lr (c : Cpu) (r0 r1 lr pc : U32) : (c.call r0 r1 lr pc).get .lr = lr := by
  rw [call, get_set, if_neg (by decide), get_set, if_pos rfl]

@[simp] theorem call_r0 (c : Cpu) (r0 r1 lr pc : U32) : (c.call r0 r1 lr pc).get .r0 = r0 := by
  rw [call, get_set, if_neg (by decide), get_set, if_neg (by decide), get_set,
    if_neg (by decide), get_set, if_pos rfl]

@[simp] theorem call_r1 (c : Cpu) (r0 r1 lr pc : U32) : (c.call r0 r1 lr pc).get .r1 = r1 := by
  rw [call, get_set, if_neg (by decide), get_set, if_neg (by decide), get_set, if_pos rfl]

@[simp] theorem call_thumbMode (c : Cpu) (r0 r1 lr pc : U32) :
    (c.call r0 r1 lr pc).thumbMode = c.thumbMode := by
  simp only [call, thumbMode_set]

end Cpu

namespace Eapp

variable {ρ : Type}

/-- The link register is set for user mode, but the game begins in supervisor mode. -/
def start (entryAddr auxAddr : U32) (vortex : Bool) (rest : ρ) : Eapp ρ :=
  { cpu := ((Cpu.new.regSet .user .pc entryAddr).regSet .supervisor .sp stackTop).regSet .user .lr
      bootstrapReturnPc
    state := { auxAddr, vortex, rest } }

theorem start_status (entryAddr auxAddr : U32) (vortex : Bool) (rest : ρ) :
    (start entryAddr auxAddr vortex rest).cpu.reg cpsr = 0xd3 := by
  simp only [start, Cpu.regSet, Cpu.status_update]
  rfl

def callHandler (handler : ImportHandler ρ) (s : Eapp ρ) (called : BoundImport) :
    EappState ρ × U32 :=
  let args := ![s.cpu.get .r0, s.cpu.get .r1, s.cpu.get .r2, s.cpu.get .r3]
  handler called (s.cpu.get .pc) (s.cpu.get .lr) args s.state

def handleImport (handler : ImportHandler ρ) (s : Eapp ρ) (called : BoundImport) : Eapp ρ :=
  let lr := s.cpu.get .lr
  let (state, ret) := s.callHandler handler called
  { cpu := (s.cpu.set .r0 ret).set .pc (lr &&& ~~~(1 : U32))
    state }

def queueNextFrame (s : Eapp ρ) : Eapp ρ :=
  { s with
    cpu := s.cpu.call s.state.appObject s.state.frameContext bootstrapReturnPc s.state.auxAddr }

def dispatchPendingGuestCall (s : Eapp ρ) : Bool × Eapp ρ :=
  match s.state.pendingGuestCalls with
  | call :: calls =>
    (true,
      { cpu := s.cpu.call call.arg0 call.arg1 guestCallbackReturnPc call.pc
        state := { s.state with
          pendingGuestCalls := calls
          guestCallbackInvocationCount := s.state.guestCallbackInvocationCount + 1
          asyncPendingRequests := s.state.asyncPendingRequests.erase call.arg0 } })
  | [] => (false, s)

/-- The next function of the game: a pending callback, or else the next frame. -/
def resume (s : Eapp ρ) : Eapp ρ :=
  let (dispatched, s) := s.dispatchPendingGuestCall
  if dispatched then s else s.queueNextFrame

def handleGuestCallbackReturn (s : Eapp ρ) : Eapp ρ := s.resume

def alloc (s : Eapp ρ) (len : U32) : Outcome Empty (Eapp ρ) U32 :=
  (allocZeroed s.state.nextAlloc len).zoom fun nextAlloc =>
    { s with state := { s.state with nextAlloc } }

/-- Blocks for a game that expects its surfaces to be there. What is written to them is left
out. -/
def vortexPreallocateSurfaces (s : Eapp ρ) : Outcome Empty (Eapp ρ) Unit :=
  Outcome.forEach (fun s len => (s.alloc len).map fun _ => ()) s
    [0x100, 320 * 240 * 2, 0x40, 0x4, 0x200]

def handleBootstrapReturn (s : Eapp ρ) : Outcome Empty (Eapp ρ) Unit :=
  match s.state.bootstrapPhase with
  | .entry =>
    (s.alloc 0x2000).bind fun s appObject =>
      (alloc { s with state := { s.state with appObject } } 0x80).bind fun s frameContext =>
        let s : Eapp ρ := { s with state := { s.state with frameContext } }
        (if s.state.vortex then s.vortexPreallocateSurfaces else .ok s ()).bind fun s _ =>
          .ok (queueNextFrame { s with state := { s.state with bootstrapPhase := .running } }) ()
  | .running =>
    .ok (resume { s with state := { s.state with frameCounter := s.state.frameCounter + 1 } }) ()
  | .done => .ok { s with state := { s.state with halted := true } } ()

/-- What a step does at the addresses to return to. Anywhere else the game goes on. -/
def step (s : Eapp ρ) : Outcome Empty (Eapp ρ) Unit :=
  if s.state.halted then .ok s ()
  else
    let pc := s.cpu.get .pc
    if pc = bootstrapReturnPc ∨ (pc = 0 ∧ s.state.bootstrapPhase ≠ .done) then
      s.handleBootstrapReturn
    else if pc = guestCallbackReturnPc then .ok s.handleGuestCallbackReturn ()
    else .ok s ()

end Eapp
end Clicky
