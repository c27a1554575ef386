import Clicky.Eapp.Bus
import Clicky.Lib.Runs

/-! The heap of a game: blocks are cut off the work RAM one after the other, and never given
back. -/
namespace Clicky
open Runs

def workRamEnd : U32 := workRamBase + BitVec.ofNat 32 workRamSize
def stackTop : U32 := workRamEnd - 0x1000

/-- The state is `next_alloc`. Nothing guards the sum of the round-up. -/
def allocZeroed (nextAlloc len : U32) : Outcome Empty U32 U32 :=
  if 2 ^ 32 ≤ len.toNat + 0xf then .panic addOverflow
  else
    let len := (len + 0xf) &&& ~~~(0xf : U32)
    let addr := nextAlloc
    let stop := saturatingAdd addr len
    if stop ≤ workRamEnd then .ok stop addr else .ok nextAlloc 0

/-- What makes the emulator allocate: the runtime allocator of the guest, an input event for it,
and the objects of the emulation itself. -/
inductive AllocRequest where
  | misc (r0 : U32)
  | inputEvents
  | hle (len : U32)
  deriving DecidableEq, Repr

def AllocRequest.len : AllocRequest → U32
  | .misc r0 => if r0 < 0x10 then 0x10 else r0
  | .inputEvents => 0x40
  | .hle len => len

/-- The length of the block that a request is to get. -/
def AllocRequest.blockLen (r : AllocRequest) : Nat := (r.len.toNat + 0xf) / 16 * 16

structure Block where
  addr : Nat
  len : Nat
  deriving DecidableEq, Repr

def Block.Covers (b : Block) (a : Nat) : Prop := b.addr ≤ a ∧ a < b.addr + b.len

/-- The allocator, and the blocks it has handed out. -/
structure GuestHeap where
  nextAlloc : U32 := workRamBase + 0x1000
  blocks : List Block := []

namespace GuestHeap

def step (h : GuestHeap) (r : AllocRequest) : Option GuestHeap :=
  match allocZeroed h.nextAlloc r.len with
  | .ok nextAlloc addr => some
    { nextAlloc
      blocks := if addr = 0 then h.blocks else h.blocks ++ [{ addr := addr.toNat, len := r.blockLen }] }
  | _ => none

def Fits (h : GuestHeap) (r : AllocRequest) : Prop :=
  h.nextAlloc.toNat + r.blockLen ≤ workRamEnd.toNat

/-- A block that may be handed out: aligned, in the work RAM, apart from the blocks in use and
from the word below the initial stack pointer. -/
structure GoodBlock (h : GuestHeap) (b : Block) : Prop where
  aligned : b.addr % 16 = 0
  inside : workRamBase.toNat ≤ b.addr ∧ b.addr + b.len ≤ workRamEnd.toNat
  apart : ∀ o ∈ h.blocks, ∀ a, o.Covers a → ¬ b.Covers a
  offStack : ∀ a, stackTop.toNat - 4 ≤ a → a < stackTop.toNat → ¬ b.Covers a

/-- What is promised of one request. -/
def Served (h : GuestHeap) (r : AllocRequest) : Prop :=
  ∃ nextAlloc addr, allocZeroed h.nextAlloc r.len = .ok nextAlloc addr ∧
    (addr ≠ 0 → r.len.toNat ≤ r.blockLen ∧
      h.GoodBlock { addr := addr.toNat, len := r.blockLen }) ∧
    (addr = 0 ↔ ¬ h.Fits r) ∧ (addr = 0 → nextAlloc = h.nextAlloc)

/-- The size can be rounded up, and the block, if it fits, does not grow across the stack
pointer from below. -/
def Harmless (h : GuestHeap) (r : AllocRequest) : Prop :=
  r.len.toNat + 0xf < 2 ^ 32 ∧
    (h.Fits r → h.nextAlloc.toNat < stackTop.toNat →
      h.nextAlloc.toNat + r.blockLen < stackTop.toNat)

/-- Everything handed out lies below `next_alloc`. -/
structure Stacked (h : GuestHeap) : Prop where
  aligned : h.nextAlloc.toNat % 16 = 0
  inside : workRamBase.toNat ≤ h.nextAlloc.toNat ∧ h.nextAlloc.toNat ≤ workRamEnd.toNat
  behind : ∀ b ∈ h.blocks, b.addr + b.len ≤ h.nextAlloc.toNat

theorem and_not_15 (x : U32) : x &&& ~~~(0xf : U32) = (x >>> 4) <<< 4 := by
  apply BitVec.eq_of_getLsbD_eq
  intro i inside
  have mask : (0xf : U32).getLsbD i = decide (i < 4) := by
    change (0xf#32).getLsbD i = _
    rw [BitVec.getLsbD_ofNat, Nat.testBit_two_pow_sub_one 4 i]
    simp [inside]
  rw [BitVec.getLsbD_and, BitVec.getLsbD_not, BitVec.getLsbD_shiftLeft, BitVec.getLsbD_ushiftRight,
    mask]
  by_cases low : i < 4
  · simp [low]
  · simp [low, inside, Nat.add_sub_of_le (Nat.not_lt.mp low)]

theorem toNat_rounded {r : AllocRequest} (small : r.len.toNat + 0xf < 2 ^ 32) :
    ((r.len + 0xf) &&& ~~~(0xf : U32)).toNat = r.blockLen := by
  have sum : (r.len + 0xf).toNat = r.len.toNat + 0xf := by
    rw [BitVec.toNat_add]
    exact Nat.mod_eq_of_lt small
  rw [and_not_15, BitVec.toNat_shiftLeft, BitVec.toNat_ushiftRight, Nat.shiftRight_eq_div_pow,
    Nat.shiftLeft_eq, sum, AllocRequest.blockLen]
  omega

theorem workRamEnd_toNat : workRamEnd.toNat = 0x14000000 := by decide

theorem allocZeroed_fits {h : GuestHeap} {r : AllocRequest} (small : r.len.toNat + 0xf < 2 ^ 32)
    (fits : h.Fits r) : ∃ stop : U32, stop.toNat = h.nextAlloc.toNat + r.blockLen ∧
      allocZeroed h.nextAlloc r.len = .ok stop h.nextAlloc := by
  unfold Fits at fits
  have bound := workRamEnd_toNat
  have len := toNat_rounded small
  have sum : h.nextAlloc.toNat + ((r.len + 0xf) &&& ~~~(0xf : U32)).toNat < 2 ^ 32 := by omega
  have stop : (saturatingAdd h.nextAlloc ((r.len + 0xf) &&& ~~~(0xf : U32))).toNat =
      h.nextAlloc.toNat + r.blockLen := by
    rw [saturatingAdd, if_pos sum, BitVec.toNat_add, Nat.mod_eq_of_lt sum, len]
  refine ⟨_, stop, ?_⟩
  rw [allocZeroed, if_neg (Nat.not_le.mpr small)]
  exact if_pos (BitVec.le_def.mpr (stop ▸ fits))

theorem allocZeroed_full {h : GuestHeap} {r : AllocRequest} (small : r.len.toNat + 0xf < 2 ^ 32)
    (full : ¬ h.Fits r) : allocZeroed h.nextAlloc r.len = .ok h.nextAlloc 0 := by
  unfold Fits at full
  have bound := workRamEnd_toNat
  have len := toNat_rounded small
  have stop : ¬ saturatingAdd h.nextAlloc ((r.len + 0xf) &&& ~~~(0xf : U32)) ≤ workRamEnd := by
    rw [BitVec.le_def, saturatingAdd]
    split
    · rename_i sum
      rw [BitVec.toNat_add, Nat.mod_eq_of_lt sum, len]
      exact full
    · decide
  rw [allocZeroed, if_neg (Nat.not_le.mpr small)]
  exact if_neg stop

theorem Stacked.nonzero {h : GuestHeap} (stacked : h.Stacked) : h.nextAlloc ≠ 0 := by
  intro zero
  have low := stacked.inside.1
  rw [zero] at low
  exact absurd low (by decide)

theorem step_stacked {h h' : GuestHeap} {r : AllocRequest} (stacked : h.Stacked)
    (taken : h.step r = some h') : h'.Stacked := by
  by_cases small : r.len.toNat + 0xf < 2 ^ 32
  · by_cases fits : h.Fits r
    · obtain ⟨stop, grown, done⟩ := allocZeroed_fits small fits
      simp only [step, done, if_neg stacked.nonzero] at taken
      cases taken
      have aligned := stacked.aligned
      have inside := stacked.inside
      unfold Fits AllocRequest.blockLen at fits
      unfold AllocRequest.blockLen at grown
      refine ⟨by dsimp only; omega, by dsimp only; omega, fun b member => ?_⟩
      rcases List.mem_append.mp member with old | new
      · have behind := stacked.behind b old
        dsimp only
        omega
      · rw [List.mem_singleton.mp new]
        exact Nat.le_of_eq grown.symm
    · simp only [step, allocZeroed_full small fits, if_true] at taken
      cases taken
      exact stacked
  · simp only [step, allocZeroed, if_pos (Nat.not_lt.mp small)] at taken
    cases taken

theorem goodBlock_iff {h : GuestHeap} {r : AllocRequest} (stacked : h.Stacked) (fits : h.Fits r) :
    h.GoodBlock { addr := h.nextAlloc.toNat, len := r.blockLen } ↔
      (h.nextAlloc.toNat < stackTop.toNat →
        h.nextAlloc.toNat + r.blockLen < stackTop.toNat) := by
  have top : stackTop.toNat = 0x13fff000 := by decide
  have aligned := stacked.aligned
  constructor
  · intro good below
    by_contra across
    have word := good.offStack (stackTop.toNat - 4) (Nat.le_refl _) (by omega)
    refine word ⟨?_, ?_⟩ <;> dsimp only
    · omega
    · omega
  · intro short
    refine ⟨aligned, ⟨stacked.inside.1, fits⟩, ?_, ?_⟩
    · rintro o member a ⟨_, before⟩ ⟨after, _⟩
      have behind := stacked.behind o member
      dsimp only at after
      omega
    · rintro a low high ⟨after, before⟩
      dsimp only at after before
      unfold AllocRequest.blockLen at short before
      omega

theorem served_iff_harmless {h : GuestHeap} (stacked : h.Stacked) (r : AllocRequest) :
    h.Served r ↔ h.Harmless r := by
  by_cases small : r.len.toNat + 0xf < 2 ^ 32
  · by_cases fits : h.Fits r
    · obtain ⟨stop, _, done⟩ := allocZeroed_fits small fits
      unfold Served Harmless
      simp only [small, fits, true_and, true_implies, ← goodBlock_iff stacked fits]
      constructor
      · rintro ⟨_, _, same, good, _⟩
        rw [done] at same
        cases same
        exact (good stacked.nonzero).2
      · intro good
        refine ⟨stop, h.nextAlloc, done, fun _ => ⟨?_, good⟩, ?_, ?_⟩
        · unfold AllocRequest.blockLen
          omega
        · exact iff_of_false stacked.nonzero fun no => no trivial
        · exact fun zero => absurd zero stacked.nonzero
    · refine iff_of_true ?_ ⟨small, fun yes => absurd yes fits⟩
      exact ⟨h.nextAlloc, 0, allocZeroed_full small fits, fun no => absurd rfl no,
        iff_of_true rfl fits, fun _ => rfl⟩
  · refine iff_of_false ?_ fun harmless => small harmless.1
    rintro ⟨_, _, done, _⟩
    rw [allocZeroed, if_pos (Nat.not_lt.mp small)] at done
    cases done

theorem start_stacked : Stacked {} :=
  ⟨by decide, by decide, fun _ impossible => absurd impossible List.not_mem_nil⟩

/-- Every request of a run is served as promised exactly when none of them has a size in the last
15 bytes of the number range, or a block that grows across the stack pointer. -/
theorem alloc_served_iff (rs : List AllocRequest) :
    BeforeEach step Served {} rs ↔ BeforeEach step Harmless {} rs := by
  apply beforeEach_iff (I := Stacked)
  · exact fun _ _ _ stacked taken => step_stacked stacked taken
  · exact fun _ r stacked => served_iff_harmless stacked r
  · exact start_stacked

/-- A size that cannot be rounded up, and one whose block ends at the stack pointer. -/
theorem bad_requests :
    ¬ BeforeEach step Served {} [.misc 0xfffffff8] ∧
      ¬ BeforeEach step Served {} [.misc 0x3ffe000] := by
  constructor
  · rintro ⟨⟨_, _, done, _⟩, _⟩
    cases done
  · rintro ⟨served, _⟩
    obtain ⟨_, short⟩ := (served_iff_harmless start_stacked _).mp served
    have fits : Fits {} (.misc 0x3ffe000) := by
      unfold Fits
      decide
    exact absurd (short fits (by decide)) (by decide)

end GuestHeap
end Clicky
