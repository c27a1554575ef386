import Clicky.MemCon
import Mathlib.Data.Fin.Tuple.Basic
import Mathlib.Order.Minimal

/-! Address translation against the rule of `memory_controller.txt`. The loop reads another
mask out of the logical register than the manual does. -/
namespace Clicky

namespace Mmap

/-- The mask of the manual: the bits 0 to 13 of the logical register, for the address bits 16
to 29. -/
def manualMask (m : Mmap) : U32 := m.logical.getBits 0 13 <<< 16

/-- The code moves the bits 11 to 13 of the field to the address bits 28 to 30, and takes no
others: the masks are equal only if the field is empty. -/
theorem mask_eq_manualMask_iff (m : Mmap) :
    m.mask = m.manualMask ↔ m.logical.getBits 0 13 = 0#32 := by
  simp only [mask, manualMask, BitVec.eq_of_getLsbD_eq_iff, BitVec.getLsbD_shiftLeft,
    BitVec.getLsbD_getBits, BitVec.getLsbD_zero, Nat.zero_add]
  constructor
  · intro same
    have low : ∀ j, j < 12 → m.logical.getLsbD j = false := by
      intro j inside
      have here := same (16 + j) (by omega)
      simpa [show 16 + j < 28 by omega, show 16 + j < 32 by omega, show j < 14 by omega] using here.symm
    have at12 : m.logical.getLsbD 12 = m.logical.getLsbD 11 := by simpa using (same 28 (by omega)).symm
    have at13 : m.logical.getLsbD 13 = m.logical.getLsbD 12 := by simpa using (same 29 (by omega)).symm
    intro j _
    by_cases inside : j < 14
    · obtain h | rfl | rfl : j < 12 ∨ j = 12 ∨ j = 13 := by omega
      · rw [low j h, Bool.and_false]
      · rw [at12, low 11 (by omega), Bool.and_false]
      · rw [at13, at12, low 11 (by omega), Bool.and_false]
    · simp [inside]
  · intro empty i _
    have bit : ∀ j, j < 14 → m.logical.getLsbD j = false := by
      intro j inside
      simpa [inside] using empty j (by omega)
    have coded : (decide (i - 28 < 13 + 1 - 11) && m.logical.getLsbD (11 + (i - 28))) = false := by
      by_cases inside : i - 28 < 3
      · rw [bit _ (by omega), Bool.and_false]
      · simp [inside]
    have manual : (decide (i - 16 < 13 + 1 - 0) && m.logical.getLsbD (i - 16)) = false := by
      by_cases inside : i - 16 < 14
      · rw [bit _ inside, Bool.and_false]
      · simp [inside]
    rw [coded, manual, Bool.and_false, Bool.and_false]

/-- The mapping is enabled, permits the access, and agrees with the address under a mask. -/
structure Takes (m : Mmap) (mask addr : U32) (access : MemAccessKind) : Prop where
  enabled : m.logical ≠ 0 ∧ m.physical ≠ 0
  permits : m.prot.denies access = false
  agrees : addr &&& mask = m.virtAddr &&& mask

def target (m : Mmap) (mask addr : U32) : U32 × Protection :=
  ((addr &&& ~~~mask) ||| (m.physAddr &&& mask), m.prot)

theorem translate_of_takes {m : Mmap} {addr : U32} {access : MemAccessKind}
    (takes : m.Takes m.mask addr access) :
    m.translate addr access = some (m.target m.mask addr) := by
  unfold translate
  rw [if_neg (not_or.mpr takes.enabled), takes.permits, if_neg Bool.false_ne_true,
    if_neg (not_not_intro takes.agrees)]
  rfl

theorem takes_of_translate {m : Mmap} {addr : U32} {access : MemAccessKind}
    (found : (m.translate addr access).isSome = true) : m.Takes m.mask addr access := by
  unfold translate at found
  split at found
  · cases found
  · rename_i enabled
    split at found
    · cases found
    · rename_i permits
      split at found
      · cases found
      · rename_i agrees
        exact ⟨not_or.mp enabled, Bool.eq_false_iff.mpr permits, not_not.mp agrees⟩

theorem translate_isSome_iff (m : Mmap) (addr : U32) (access : MemAccessKind) :
    (m.translate addr access).isSome = true ↔ m.Takes m.mask addr access := by
  constructor
  · exact takes_of_translate
  · intro takes
    rw [translate_of_takes takes]
    rfl

/-- Two masks have the same effect where address and target agree on the bits they differ in. -/
theorem target_eq_iff (m : Mmap) (mask₁ mask₂ addr : U32) :
    m.target mask₁ addr = m.target mask₂ addr ↔
      (addr ^^^ m.physAddr) &&& (mask₁ ^^^ mask₂) = 0#32 := by
  simp only [target, Prod.mk.injEq, and_true, BitVec.eq_of_getLsbD_eq_iff, BitVec.getLsbD_or,
    BitVec.getLsbD_and, BitVec.getLsbD_xor, BitVec.getLsbD_not, BitVec.getLsbD_zero]
  refine forall₂_congr fun i inside => ?_
  cases addr.getLsbD i <;> cases m.physAddr.getLsbD i <;> cases mask₁.getLsbD i <;>
    cases mask₂.getLsbD i <;> simp [inside]

end Mmap

namespace MemConImpl

/-- The mapping at which the loop of `virt_to_phys` returns. -/
def chosen (s : MemConImpl) (addr : U32) (access : MemAccessKind) : Option (Fin 8) :=
  (List.finRange 8).find? fun no => ((s.mmap no).translate addr access).isSome

/-- The mappings that take the address under the mask of the code. -/
def Taking (s : MemConImpl) (addr : U32) (access : MemAccessKind) : Set (Fin 8) :=
  {no | (s.mmap no).Takes (s.mmap no).mask addr access}

/-- The mappings that take the address according to the manual. -/
def ManualTaking (s : MemConImpl) (addr : U32) (access : MemAccessKind) : Set (Fin 8) :=
  {no | (s.mmap no).Takes (s.mmap no).manualMask addr access}

/-- The rule of the manual: the first mapping that takes the address is chosen and replaces the
bits of its mask; without one the address stays and nothing is forbidden. -/
structure FollowsManual (s : MemConImpl) (addr : U32) (access : MemAccessKind) : Prop where
  mapped : ∀ no, IsLeast (s.ManualTaking addr access) no → s.chosen addr access = some no ∧
    s.virtToPhys addr access = (s.mmap no).target (s.mmap no).manualMask addr
  unmapped : (∀ no, no ∉ s.ManualTaking addr access) → s.chosen addr access = none ∧
    s.virtToPhys addr access = (addr, { r := true, w := true, d := true, x := true })

theorem chosen_eq_find (s : MemConImpl) (addr : U32) (access : MemAccessKind) :
    s.chosen addr access = Fin.find? fun no => ((s.mmap no).translate addr access).isSome := by
  rw [Fin.find?_eq_find?_finRange]
  rfl

theorem chosen_eq_some_iff {s : MemConImpl} {addr : U32} {access : MemAccessKind} {no : Fin 8} :
    s.chosen addr access = some no ↔ IsLeast (s.Taking addr access) no := by
  rw [chosen_eq_find, Fin.find?_eq_some_iff]
  simp only [Mmap.translate_isSome_iff, ← Bool.not_eq_true]
  refine and_congr_right fun _ => ?_
  constructor
  · intro first k takes
    exact not_lt.mp fun before => first k before takes
  · intro least k before takes
    exact absurd (least takes) (not_le.mpr before)

theorem chosen_eq_none_iff {s : MemConImpl} {addr : U32} {access : MemAccessKind} :
    s.chosen addr access = none ↔ ∀ no, no ∉ s.Taking addr access := by
  rw [chosen_eq_find, Fin.find?_eq_none_iff]
  simp only [← Bool.not_eq_true, Mmap.translate_isSome_iff]
  rfl

theorem virtToPhys_eq (s : MemConImpl) (addr : U32) (access : MemAccessKind) :
    s.virtToPhys addr access =
      ((s.chosen addr access).bind fun no => (s.mmap no).translate addr access).getD
        (addr, { r := true, w := true, d := true, x := true }) := by
  rw [chosen_eq_find, Fin.bind_find?_isSome, Fin.findSome?_eq_findSome?_finRange]
  rfl

theorem virtToPhys_of_chosen {s : MemConImpl} {addr : U32} {access : MemAccessKind} {no : Fin 8}
    (first : s.chosen addr access = some no) :
    s.virtToPhys addr access = (s.mmap no).target (s.mmap no).mask addr := by
  have takes := (chosen_eq_some_iff.mp first).1
  rw [virtToPhys_eq, first, Option.bind_some, Mmap.translate_of_takes takes]
  rfl

theorem virtToPhys_of_not_chosen {s : MemConImpl} {addr : U32} {access : MemAccessKind}
    (passed : s.chosen addr access = none) :
    s.virtToPhys addr access = (addr, { r := true, w := true, d := true, x := true }) := by
  rw [virtToPhys_eq, passed]
  rfl

/-- The first mapping that takes the address in either reading takes it in both, and its target
agrees with the address on the bits in which the two masks differ. -/
def ReadingsAgree (s : MemConImpl) (addr : U32) (access : MemAccessKind) : Prop :=
  ∀ no, IsLeast (s.Taking addr access ∪ s.ManualTaking addr access) no →
    no ∈ s.Taking addr access ∧ no ∈ s.ManualTaking addr access ∧
      (addr ^^^ (s.mmap no).physAddr) &&& ((s.mmap no).mask ^^^ (s.mmap no).manualMask) = 0#32

theorem exists_isLeast {taking : Set (Fin 8)} {no : Fin 8} (member : no ∈ taking) :
    ∃ least, IsLeast taking least := by
  obtain ⟨least, takes, first⟩ := exists_minimal_of_wellFoundedLT (· ∈ taking) ⟨no, member⟩
  exact ⟨least, takes, fun k h => (le_total least k).elim id fun below => first h below⟩

/-- The translation follows the manual exactly where the two readings of the mask agree. -/
theorem virt_to_phys_follows_manual_iff (s : MemConImpl) (addr : U32) (access : MemAccessKind) :
    s.FollowsManual addr access ↔ s.ReadingsAgree addr access := by
  constructor
  · rintro ⟨mapped, unmapped⟩ no least
    by_cases some_manual : ∃ k, k ∈ s.ManualTaking addr access
    · obtain ⟨k, member⟩ := some_manual
      obtain ⟨first, manual⟩ := exists_isLeast member
      obtain ⟨chosen, result⟩ := mapped first manual
      have coded := chosen_eq_some_iff.mp chosen
      have same : no = first := by
        apply le_antisymm (least.2 (.inl coded.1))
        exact least.1.elim (fun h => coded.2 h) fun h => manual.2 h
      subst same
      refine ⟨coded.1, manual.1, ?_⟩
      rw [← Mmap.target_eq_iff, ← virtToPhys_of_chosen chosen]
      exact result
    · rw [not_exists] at some_manual
      have none_coded := chosen_eq_none_iff.mp (unmapped some_manual).1
      exact least.1.elim (fun h => absurd h (none_coded no)) fun h => absurd h (some_manual no)
  · intro agree
    constructor
    · intro no manual
      obtain ⟨first, least⟩ := exists_isLeast
        (Set.mem_union_right (s.Taking addr access) manual.1)
      obtain ⟨coded, both, bits⟩ := agree first least
      have same : first = no := le_antisymm (least.2 (.inr manual.1)) (manual.2 both)
      subst same
      have chosen : s.chosen addr access = some first :=
        chosen_eq_some_iff.mpr ⟨coded, fun k h => least.2 (.inl h)⟩
      refine ⟨chosen, ?_⟩
      rw [virtToPhys_of_chosen chosen]
      exact (Mmap.target_eq_iff _ _ _ _).mpr bits
    · intro none_manual
      have passed : s.chosen addr access = none := by
        refine chosen_eq_none_iff.mpr fun no coded => ?_
        obtain ⟨first, least⟩ := exists_isLeast
          (Set.mem_union_left (s.ManualTaking addr access) coded)
        exact none_manual first (agree first least).2.1
      exact ⟨passed, virtToPhys_of_not_chosen passed⟩

/-- One mapping for the 64 KiB at 0x10000000 only, with all mask bits set. -/
def firstPages : MemConImpl :=
  { mmap := fun no => if no.val = 0 then { logical := 0x10003fff, physical := 0x20000f00 } else {} }

/-- The next 64 KiB are mapped along: the code compares the three bits 28 to 30. -/
theorem next_pages_mapped_along : ¬ firstPages.FollowsManual 0x10010000 .read := by
  intro follows
  have none_manual : ∀ no, no ∉ firstPages.ManualTaking 0x10010000 .read := by
    rintro no ⟨enabled, -, agrees⟩
    by_cases first : no = 0
    · subst first
      exact absurd agrees (by decide)
    · simp [firstPages, first] at enabled
  exact absurd (follows.unmapped none_manual).1 (by decide)

end MemConImpl
end Clicky
