import Clicky.Armv4t.Thumb

/-! One step of the interpreter, on a memory that is given to it. -/
namespace Clicky.Armv4t
open CpuM

/-- Word accesses are forced to a multiple of 4, and a word read from elsewhere is rotated. The
instruction interface is the data interface. -/
def alignmentWrapper : (op : MemOp) → MemM op.Answer
  | .r8 addr => .ask (.r8 addr) .done
  | .r16 addr => .ask (.r16 addr) .done
  | .r32 addr => r32Aligned addr
  | .w8 addr val => .ask (.w8 addr val) .done
  | .w16 addr val => .ask (.w16 addr val) .done
  | .w32 addr val => .ask (.w32 (addr &&& ~~~3) val) .done
  | .x16 addr => .ask (.r16 addr) .done
  | .x32 addr => r32Aligned addr
where
  r32Aligned (addr : U32) : MemM U32 :=
    let a := addr &&& ~~~3
    .ask (.r32 a) fun val => .done (if a = addr then val else val.rotateRight ((addr &&& 3).toNat * 8))

/-- A part of an instruction, on a memory seen through the wrapper. -/
def CpuM.aligned {α : Type} (prog : CpuM α) : CpuM α := fun s =>
  (prog s).interpret alignmentWrapper

/-- One instruction. The result is whether there was one. -/
def step : CpuM Bool := do
  let thumb ← thumbMode
  let decodeOk ← (if !thumb then executeArm.aligned else executeThumb.aligned)
  when (!decodeOk) (exception .undefined)
  return decodeOk

end Clicky.Armv4t
