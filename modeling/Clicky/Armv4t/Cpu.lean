import Clicky.Armv4t.Alu
import Clicky.Armv4t.Register
import Clicky.Lib.Dialogue

/-! What the interpreter's instructions are made of: reads and writes of the registers, and questions
to the memory. -/
namespace Clicky.Armv4t

/-- A call of the memory that the interpreter is given. -/
inductive MemOp where
  | r8 (addr : U32)
  | r16 (addr : U32)
  | r32 (addr : U32)
  | w8 (addr : U32) (val : U8)
  | w16 (addr : U32) (val : U16)
  | w32 (addr val : U32)
  | x16 (addr : U32)
  | x32 (addr : U32)
  deriving DecidableEq, Repr

abbrev MemOp.Answer : MemOp → Type
  | .r8 _ => U8
  | .r16 _ => U16
  | .r32 _ => U32
  | .w8 _ _ => Unit
  | .w16 _ _ => Unit
  | .w32 _ _ => Unit
  | .x16 _ => U16
  | .x32 _ => U32

abbrev MemM := Dialogue MemOp MemOp.Answer

/-- A part of an instruction: it changes the registers, asks the memory, and may panic. -/
abbrev CpuM := StateT RegFile MemM

namespace CpuM

/-- A panic of the interpreter, as `assert` and `unreachable` raise it. -/
def crash {α : Type} (message : String) : CpuM α := fun _ => .panic message

def debugAssert (c : Prop) [Decidable c] (message : String) : CpuM Unit :=
  if c then pure () else crash message

/-- The part, if there is a condition and it holds. -/
def when (c : Prop) [Decidable c] (part : CpuM Unit) : CpuM Unit := if c then part else pure ()

/-- A call of the memory. -/
def call (op : MemOp) : CpuM op.Answer := fun s => .ask op fun answer => .done (answer, s)

def r8 (addr : U32) : CpuM U8 := call (.r8 addr)
def r16 (addr : U32) : CpuM U16 := call (.r16 addr)
def r32 (addr : U32) : CpuM U32 := call (.r32 addr)
def w8 (addr : U32) (val : U8) : CpuM Unit := call (.w8 addr val)
def w16 (addr : U32) (val : U16) : CpuM Unit := call (.w16 addr val)
def w32 (addr val : U32) : CpuM Unit := call (.w32 addr val)
def x16 (addr : U32) : CpuM U16 := call (.x16 addr)
def x32 (addr : U32) : CpuM U32 := call (.x32 addr)

/-- A register of the current bank. -/
def reg (r : Register) : CpuM U32 := fun s => .done (s.index r, s)

def setReg (r : Register) (val : U32) : CpuM Unit := fun s => .done ((), s.setIndex r val)

/-- A register of a named bank. -/
def fileGet (bank : Fin 6) (r : Register) : CpuM U32 := fun s => .done (s.get bank r, s)

def fileSet (bank : Fin 6) (r : Register) (val : U32) : CpuM Unit := fun s =>
  match s.set bank r val with
  | .ok s => .done ((), s)
  | .error message => .panic message

def mode : CpuM Mode := fun s =>
  match s.mode with
  | .ok mode => .done (mode, s)
  | .error message => .panic message

section run

variable {α β : Type} (s : RegFile)

@[simp] theorem pure_run (a : α) : (pure a : CpuM α) s = .done (a, s) := rfl

@[simp] theorem bind_run (part : CpuM α) (rest : α → CpuM β) :
    (part >>= rest) s = part s >>= fun p => rest p.1 p.2 := rfl

@[simp] theorem map_run (f : α → β) (part : CpuM α) :
    (f <$> part) s = part s >>= fun p => .done (f p.1, p.2) := rfl

@[simp] theorem ite_run (c : Prop) [Decidable c] (yes no : CpuM α) :
    (if c then yes else no) s = if c then yes s else no s := apply_ite (fun part : CpuM α => part s) ..

@[simp] theorem crash_run (message : String) : (crash message : CpuM α) s = .panic message := rfl

@[simp] theorem debugAssert_run (c : Prop) [Decidable c] (message : String) :
    debugAssert c message s = if c then .done ((), s) else .panic message := ite_run ..

@[simp] theorem when_run (c : Prop) [Decidable c] (part : CpuM Unit) :
    when c part s = if c then part s else .done ((), s) := ite_run ..

@[simp] theorem call_run (op : MemOp) :
    call op s = .ask op fun answer => .done (answer, s) := rfl

@[simp] theorem reg_run (r : Register) : reg r s = .done (s.index r, s) := rfl

@[simp] theorem setReg_run (r : Register) (val : U32) :
    setReg r val s = .done ((), s.setIndex r val) := rfl

@[simp] theorem fileGet_run (bank : Fin 6) (r : Register) :
    fileGet bank r s = .done (s.get bank r, s) := rfl

end run

end CpuM
open CpuM

/-- The word that has only this bit set, or none. -/
def bitAt (set : Bool) (i : Nat) : U32 := (BitVec.ofBool set).setWidth 32 <<< i

def thumbMode : CpuM Bool := return (← reg .cpsr).getBit flagT
def irqEnable : CpuM Bool := return !(← fileGet 0 .cpsr).getBit 7
def fiqEnable : CpuM Bool := return !(← fileGet 0 .cpsr).getBit 6

/-- Puts `flags` in the place of the four condition flags. -/
def setFlags (flags : U32) : CpuM Unit := do
  setReg .cpsr ((← reg .cpsr).setBits 28 31 flags)

/-- What is kept of the program counter. An interrupt returns two words further back. -/
def returnAddress (exc : Exception) (pc : U32) : CpuM U32 :=
  match exc with
  | .interrupt | .fastInterrupt =>
    if 2 ^ 32 ≤ pc.toNat + 4 then crash overflow else pure (pc + 4)
  | _ => pure pc

/-- The status an exception starts with: its mode, interrupts disabled, and the flags as they were. -/
def entryStatus (exc : Exception) (cpsr : U32) : U32 :=
  exc.modeOnEntry.bits.setWidth 32 ||| bitAt exc.fiqDisable 6 ||| bitAt true 7 |||
    (cpsr &&& 0xf0000000)

/-- The entry of an exception whose interrupts are enabled. -/
def enter (exc : Exception) : CpuM Unit := do
  let newBank := exc.modeOnEntry.regBank
  let cpsr ← fileGet 0 .cpsr
  let pc ← fileGet 0 .pc
  fileSet newBank .lr (← returnAddress exc pc)
  fileSet newBank .spsr cpsr
  fileSet 0 .pc exc.address
  fileSet 0 .cpsr (entryStatus exc cpsr)

def exception (exc : Exception) : CpuM Unit :=
  match exc with
  | .interrupt => do when (← irqEnable) (enter exc)
  | .fastInterrupt => do when (← fiqEnable) (enter exc)
  | _ => enter exc

/-- The registers at power-on. -/
def newCpu : Except String RegFile := do
  let s ← RegFile.newEmpty.set Mode.user.regBank .pc 0
  s.set Mode.user.regBank .cpsr 0xd3

end Clicky.Armv4t
