import Clicky.FatalAccess
import Clicky.Mailbox

/-! The mailbox as the two cores use it, in any order: a core is interrupted from the other one's
write on to its own next look at the status. -/
namespace Clicky
open Runs

/-- An access to the mailbox. The machine tells it first which core that is. -/
structure MailboxAccess where
  core : CpuId
  access : GuestAccess
  deriving DecidableEq, Repr

def CpuId.other : CpuId → CpuId
  | .cpu => .cop
  | .cop => .cpu

inductive MailboxOp where
  | status
  | set (val : U32)
  | clear (val : U32)
  deriving DecidableEq, Repr

namespace MailboxOp

def ofWrite (offset val : U32) : Option MailboxOp :=
  if offset = 0x04 then some (.set val) else if offset = 0x08 then some (.clear val) else none

/-- What an access asks of the mailbox, if it is one of those that get something done. -/
def of : GuestAccess → Option MailboxOp
  | .r8 offset | .r16 offset | .r32 offset | .x16 offset | .x32 offset =>
    if offset = 0x00 then some .status else none
  | .w8 offset val => ofWrite offset (val.setWidth 32)
  | .w16 offset val => ofWrite offset (val.setWidth 32)
  | .w32 offset val => ofWrite offset val

def apply (bits : U32) : MailboxOp → U32
  | .status => bits
  | .set val => bits ||| val
  | .clear val => bits &&& ~~~val

def fires : MailboxOp → Bool
  | .status => false
  | .set _ | .clear _ => true

end MailboxOp

namespace MailboxAccess

def op (e : MailboxAccess) : Option MailboxOp := MailboxOp.of e.access

/-- The access is a write to Set or Clear by the core on the other side. -/
def Fires (core : CpuId) (e : MailboxAccess) : Prop :=
  e.core = core.other ∧ ∃ op, e.op = some op ∧ op.fires = true

/-- The core reads its status. -/
def Acks (core : CpuId) (e : MailboxAccess) : Prop := e.core = core ∧ e.op = some .status

end MailboxAccess

/-- All writes to Set and Clear, one after the other. -/
def bitsAfter (es : List MailboxAccess) : U32 := (es.filterMap (·.op)).foldl MailboxOp.apply 0

namespace Mailbox

def powerUp : Mailbox := .new (Line.new .hi) (Line.new .hi)

def access (s : Mailbox) (e : MailboxAccess) : Option Mailbox :=
  (MemoryAdapter.busAccess (s.setCpuid e.core) e.access).state?

/-- What the selected core's operation does to the mailbox. -/
def perform (s : Mailbox) : MailboxOp → Mailbox
  | .status => s.ackIrq
  | .set val => { s with sharedBits := s.sharedBits ||| val }.fireIrq
  | .clear val => { s with sharedBits := s.sharedBits &&& ~~~val }.fireIrq

theorem r32_state (s : Mailbox) (offset : U32) :
    (s.r32 offset).state? = some (if offset = 0x00 then s.ackIrq else s) := by
  unfold r32
  split
  · rfl
  · rw [if_neg (by decide)]
    rfl
  · rw [if_neg (by decide)]
    rfl
  · rw [if_neg (by decide)]
    rfl
  · rename_i elsewhere _ _ _
    rw [if_neg (c := offset = 0x00) elsewhere]
    split <;> rfl

theorem w32_state (s : Mailbox) (offset val : U32) :
    (s.w32 offset val).state? = some (((MailboxOp.ofWrite offset val).map s.perform).getD s) := by
  unfold w32 MailboxOp.ofWrite
  split
  · rfl
  · rfl
  · rfl
  · rfl
  · rename_i _ set clear _
    rw [if_neg (c := offset = 0x04) set, if_neg (c := offset = 0x08) clear]
    split <;> rfl

/-- A narrow access is a word access, or is refused. -/
theorem narrow_read_state {α : Type} (s : Mailbox) (offset : U32) (f : U32 → α) :
    (if offset &&& 0x3 ≠ 0 then Outcome.raise s MemException.misaligned
      else (s.r32 offset).map f).state? = some (if offset = 0x00 then s.ackIrq else s) := by
  split
  · rename_i misaligned
    rw [if_neg fun status => misaligned (by rw [status]; rfl)]
    rfl
  · rw [Outcome.state?_map, r32_state]

theorem narrow_write_state (s : Mailbox) (offset val : U32) :
    (if offset &&& 0x3 ≠ 0 then Outcome.raise s MemException.misaligned
      else s.w32 offset val).state? =
        some (((MailboxOp.ofWrite offset val).map s.perform).getD s) := by
  split
  · rename_i misaligned
    unfold MailboxOp.ofWrite
    rw [if_neg fun set => misaligned (by rw [set]; rfl),
      if_neg fun clear => misaligned (by rw [clear]; rfl)]
    rfl
  · exact s.w32_state offset val

theorem perform_read (s : Mailbox) (offset : U32) :
    (((if offset = 0x00 then some MailboxOp.status else none).map s.perform).getD s) =
      if offset = 0x00 then s.ackIrq else s := by
  split <;> rfl

theorem access_eq (s : Mailbox) (e : MailboxAccess) :
    s.access e =
      some ((e.op.map (s.setCpuid e.core).perform).getD (s.setCpuid e.core)) := by
  obtain ⟨core, access⟩ := e
  unfold Mailbox.access MailboxAccess.op
  cases access with
  | r8 offset | r16 offset | x16 offset =>
    exact (Outcome.state?_map ..).trans
      ((narrow_read_state ..).trans (congrArg some (perform_read ..).symm))
  | r32 offset | x32 offset =>
    exact (Outcome.state?_map ..).trans
      ((r32_state ..).trans (congrArg some (perform_read ..).symm))
  | w8 offset val => exact narrow_write_state ..
  | w16 offset val => exact narrow_write_state ..
  | w32 offset val => exact w32_state ..

@[simp] theorem irq_setCpuid (s : Mailbox) (id core : CpuId) :
    (s.setCpuid id).irq core = s.irq core := by
  cases core <;> rfl

theorem asserted_perform (s : Mailbox) (op : MailboxOp) (core : CpuId) :
    ((s.perform op).irq core).asserted = true ↔
      s.selectedCore = core.other ∧ op.fires = true ∨
        (s.irq core).asserted = true ∧ ¬ (s.selectedCore = core ∧ op = .status) := by
  obtain ⟨selected, cpuIrq, copIrq, bits⟩ := s
  cases op <;> cases selected <;> cases core <;>
    simp [perform, ackIrq, fireIrq, irq, CpuId.other, MailboxOp.fires]

theorem sharedBits_perform (s : Mailbox) (op : MailboxOp) :
    (s.perform op).sharedBits = op.apply s.sharedBits := by
  cases op with
  | status =>
    simp only [perform, ackIrq, MailboxOp.apply]
    split <;> rfl
  | set val | clear val =>
    simp only [perform, fireIrq, MailboxOp.apply]
    split <;> rfl

/-- The mailbox, against everything that was done to it so far. -/
structure Tells (es : List MailboxAccess) (s : Mailbox) : Prop where
  irq : ∀ core, (s.irq core).asserted = true ↔
    Since (MailboxAccess.Acks core) (MailboxAccess.Fires core) es
  bits : s.sharedBits = bitsAfter es

theorem Tells.concat {es : List MailboxAccess} {s s' : Mailbox} {e : MailboxAccess}
    (tells : Tells es s) (accessed : s.access e = some s') : Tells (es ++ [e]) s' := by
  rw [access_eq] at accessed
  cases accessed
  constructor
  · intro core
    rw [since_concat, ← tells.irq core]
    unfold MailboxAccess.Fires MailboxAccess.Acks
    cases e.op with
    | none => simp
    | some op =>
      simp only [Option.map_some, Option.getD_some, Option.some.injEq, exists_eq_left']
      exact asserted_perform (s.setCpuid e.core) op core
  · rw [bitsAfter, List.filterMap_append, List.foldl_append]
    change _ = List.foldl MailboxOp.apply (bitsAfter es) _
    rw [← tells.bits]
    cases done : e.op with
    | none => simp [done, setCpuid]
    | some op => simp [done, sharedBits_perform, setCpuid]

/-- The interrupt of a core is asserted exactly if the other core has written Set or Clear since
it last read its status. The bits that either core reads are those of all writes so far. -/
theorem mailbox_signals (es : List MailboxAccess) :
    ∃ s, run access powerUp es = some s ∧ ∀ core,
      ((s.irq core).asserted = true ↔
        Since (MailboxAccess.Acks core) (MailboxAccess.Fires core) es) ∧
      ∃ s', (s.setCpuid core).r32 0x00 = .ok s' (bitsAfter es) := by
  have total : ∀ (s : Mailbox) e, True → ∃ s', s.access e = some s' ∧ True :=
    fun s e _ => ⟨_, s.access_eq e, trivial⟩
  have fresh : Tells [] powerUp := by
    constructor
    · intro core
      simp only [since_nil, iff_false]
      cases core <;> decide
    · rfl
  obtain ⟨s, reached, _⟩ := run_total total trivial es (s := powerUp)
  have tells : Tells es s := run_history fresh (fun _ _ _ _ => Tells.concat) reached
  refine ⟨s, reached, fun core => ⟨tells.irq core, (s.setCpuid core).ackIrq, ?_⟩⟩
  rw [← tells.bits]
  rfl

end Mailbox
end Clicky
