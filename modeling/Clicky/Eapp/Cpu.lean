import Clicky.Memory
import Mathlib.Logic.Function.Basic

/-! The registers of the emulated processor, banked by mode. -/
namespace Clicky

inductive Mode where
  | user | fiq | irq | supervisor | abort | undefined | system
  deriving DecidableEq, Repr

def Mode.fromBits (mode : U32) : Option Mode :=
  if mode = 0x10 then some .user
  else if mode = 0x11 then some .fiq
  else if mode = 0x12 then some .irq
  else if mode = 0x13 then some .supervisor
  else if mode = 0x17 then some .abort
  else if mode = 0x1b then some .undefined
  else if mode = 0x1f then some .system
  else none

def Mode.regBank : Mode → Fin 6
  | .user => 0
  | .fiq => 1
  | .irq => 2
  | .supervisor => 3
  | .abort => 4
  | .undefined => 5
  | .system => 0

/-- The registers that instructions name. The status registers are not among them. -/
abbrev Reg := Fin 16

namespace Reg

def r0 : Reg := 0
def r1 : Reg := 1
def r2 : Reg := 2
def r3 : Reg := 3
def sp : Reg := 13
def lr : Reg := 14
def pc : Reg := 15

end Reg

def cpsr : Fin 37 := 16

def regMap (bank : Fin 6) (r : Reg) : Fin 37 :=
  let row : Vector (Fin 37) 16 :=
    match bank with
    | 0 => #v[0, 1, 2, 3, 4, 5, 6, 7, 8, 9, 10, 11, 12, 13, 14, 15]
    | 1 => #v[0, 1, 2, 3, 4, 5, 6, 7, 17, 18, 19, 20, 21, 22, 23, 15]
    | 2 => #v[0, 1, 2, 3, 4, 5, 6, 7, 8, 9, 10, 11, 12, 25, 26, 15]
    | 3 => #v[0, 1, 2, 3, 4, 5, 6, 7, 8, 9, 10, 11, 12, 28, 29, 15]
    | 4 => #v[0, 1, 2, 3, 4, 5, 6, 7, 8, 9, 10, 11, 12, 31, 32, 15]
    | 5 => #v[0, 1, 2, 3, 4, 5, 6, 7, 8, 9, 10, 11, 12, 34, 35, 15]
  row[r]

theorem regMap_ne_cpsr (bank : Fin 6) (r : Reg) : regMap bank r ≠ cpsr := by
  revert bank r
  decide

theorem regMap_inj {bank : Fin 6} {r r' : Reg} (same : regMap bank r = regMap bank r') :
    r = r' := by
  revert bank r r'
  decide

def modeBits (status : U32) : U32 := status &&& 0x1f

/-- The mode bits of the status register name a mode. -/
structure Cpu where
  reg : Fin 37 → U32
  mode_valid : (Mode.fromBits (modeBits (reg cpsr))).isSome

namespace Cpu

def mode (c : Cpu) : Mode := (Mode.fromBits (modeBits (c.reg cpsr))).get c.mode_valid

def thumbMode (c : Cpu) : Bool := (c.reg cpsr).getBit 5

theorem status_update (reg : Fin 37 → U32) (bank : Fin 6) (r : Reg) (val : U32) :
    Function.update reg (regMap bank r) val cpsr = reg cpsr :=
  Function.update_of_ne (regMap_ne_cpsr bank r).symm val reg

theorem valid_update (c : Cpu) (bank : Fin 6) (r : Reg) (val : U32) :
    (Mode.fromBits (modeBits (Function.update c.reg (regMap bank r) val cpsr))).isSome := by
  rw [status_update]
  exact c.mode_valid

def regSet (c : Cpu) (mode : Mode) (r : Reg) (val : U32) : Cpu :=
  { reg := Function.update c.reg (regMap mode.regBank r) val
    mode_valid := c.valid_update mode.regBank r val }

def regGet (c : Cpu) (mode : Mode) (r : Reg) : U32 := c.reg (regMap mode.regBank r)

/-- A register as the current mode sees it. -/
def get (c : Cpu) (r : Reg) : U32 := c.regGet c.mode r

def set (c : Cpu) (r : Reg) (val : U32) : Cpu := c.regSet c.mode r val

@[simp] theorem reg_cpsr_set (c : Cpu) (r : Reg) (val : U32) : (c.set r val).reg cpsr = c.reg cpsr :=
  status_update c.reg c.mode.regBank r val

@[simp] theorem mode_set (c : Cpu) (r : Reg) (val : U32) : (c.set r val).mode = c.mode := by
  simp only [mode, reg_cpsr_set]

@[simp] theorem thumbMode_set (c : Cpu) (r : Reg) (val : U32) :
    (c.set r val).thumbMode = c.thumbMode := by
  rw [thumbMode, thumbMode, reg_cpsr_set]

@[simp] theorem get_set (c : Cpu) (r r' : Reg) (val : U32) :
    (c.set r val).get r' = if r' = r then val else c.get r' := by
  rw [get, mode_set]
  by_cases same : r' = r
  · subst same
    rw [if_pos rfl]
    exact Function.update_self (β := fun _ => U32) (regMap c.mode.regBank r') val c.reg
  · rw [if_neg same]
    exact Function.update_of_ne (fun place => same (regMap_inj place)) val c.reg

end Cpu
end Clicky
