import Clicky.Lib.BitField
import Clicky.Lib.Outcome

/-! Memory accesses and the exceptions they raise. -/
namespace Clicky

abbrev U8 := BitVec 8
abbrev U16 := BitVec 16
abbrev U32 := BitVec 32

inductive CpuId where
  | cpu | cop
  deriving DecidableEq, Repr

structure IrqEnable where
  irq : Bool
  fiq : Bool
  deriving DecidableEq, Repr

def overflow : String := "attempt to add with overflow"
def underflow : String := "attempt to subtract with overflow"

def hexDigits (v : U8) : String :=
  String.ofList [Nat.digitChar (v.toNat / 16), Nat.digitChar (v.toNat % 16)]

inductive Level where
  | error | warn | info | debug | trace
  deriving DecidableEq, Repr

inductive MemAccessVal where
  | u8 (v : U8)
  | u16 (v : U16)
  | u32 (v : U32)
  deriving DecidableEq, Repr

inductive MemAccessKind where
  | read | execute | write
  deriving DecidableEq, Repr

structure MemAccess where
  kind : MemAccessKind
  offset : U32
  val : MemAccessVal
  deriving DecidableEq, Repr

inductive MemException where
  | stubRead (level : Level) (val : U32)
  | stubWrite (level : Level)
  | unexpected
  | unimplemented
  | fatal (msg : String)
  | i2cException (e : MemException) (access : MemAccess) (inDevice : String)
  | misaligned
  | invalidAccess
  | mmuViolation
  | contractViolation (msg : String) (severity : Level) (stubVal : Option U32)
  deriving DecidableEq, Repr

structure MemExceptionCtx where
  pc : U32
  access : MemAccess
  inDevice : String
  deriving DecidableEq, Repr

structure FatalMemException where
  context : MemExceptionCtx
  reason : MemException
  deriving DecidableEq, Repr

/-- Logging is the only other effect of `resolve`, and is left out. -/
def MemException.resolve (ctx : MemExceptionCtx) : MemException → Except FatalMemException Unit
  | .stubRead _ _ => .ok ()
  | .stubWrite _ => .ok ()
  | .i2cException e access inDevice => e.resolve { pc := ctx.pc, access, inDevice }
  | .misaligned => .error { context := ctx, reason := .misaligned }
  | .contractViolation msg severity stubVal =>
    if severity = .error then
      .error { context := ctx, reason := .contractViolation msg severity stubVal }
    else .ok ()
  | .unexpected => .error { context := ctx, reason := .unexpected }
  | .unimplemented => .error { context := ctx, reason := .unimplemented }
  | .fatal msg => .error { context := ctx, reason := .fatal msg }
  | .mmuViolation => .error { context := ctx, reason := .mmuViolation }
  | .invalidAccess => .error { context := ctx, reason := .invalidAccess }

/-- Whether `resolve` lets the exception pass, which does not depend on the context. -/
def MemException.harmless : MemException → Bool
  | .stubRead _ _ | .stubWrite _ => true
  | .i2cException e _ _ => e.harmless
  | .contractViolation _ severity _ => severity != .error
  | .misaligned | .unexpected | .unimplemented | .fatal _ | .mmuViolation | .invalidAccess => false

theorem MemException.resolve_ok_iff (e : MemException) (ctx : MemExceptionCtx) :
    e.resolve ctx = .ok () ↔ e.harmless = true := by
  induction e generalizing ctx with
  | i2cException e access inDevice ih => exact ih _
  | contractViolation msg severity stubVal =>
    cases severity <;> simp [MemException.resolve, MemException.harmless]
  | _ => simp [MemException.resolve, MemException.harmless]

/-- A fallible access: a `MemResult`, and the device as the access leaves it. -/
abbrev Access (M α : Type) := Outcome MemException M α

/-- Devices on the bus. Narrow accesses go through the 32 bit ones unless a device says
otherwise, and must then be word aligned. -/
class Memory (M : Type) where
  r32 : M → U32 → Access M U32
  w32 : M → U32 → U32 → Access M Unit
  r8 : M → U32 → Access M U8 := fun m offset =>
    if offset &&& 0x3 ≠ 0 then .raise m .misaligned else (r32 m offset).map (·.setWidth 8)
  r16 : M → U32 → Access M U16 := fun m offset =>
    if offset &&& 0x3 ≠ 0 then .raise m .misaligned else (r32 m offset).map (·.setWidth 16)
  w8 : M → U32 → U8 → Access M Unit := fun m offset val =>
    if offset &&& 0x3 ≠ 0 then .raise m .misaligned else w32 m offset (val.setWidth 32)
  w16 : M → U32 → U16 → Access M Unit := fun m offset val =>
    if offset &&& 0x3 ≠ 0 then .raise m .misaligned else w32 m offset (val.setWidth 32)
  x16 : M → U32 → Access M U16 := fun m offset => r16 m offset
  x32 : M → U32 → Access M U32 := fun m offset => r32 m offset

theorem narrow_refused {M α : Type} {m : M} {offset : U32} {word : Access M α}
    (refused : ¬ word.Returns) :
    ¬ (if offset &&& 0x3 ≠ 0 then Outcome.raise m MemException.misaligned else word).Returns := by
  split
  · exact Outcome.returns_raise _ _
  · exact refused

end Clicky
