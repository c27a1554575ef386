import Clicky.Ide.Drive

/-! Cylinders, heads and sectors: what the drive makes of the registers when they hold an address of
that kind. -/
namespace Clicky

/-- An address on a disk. Sectors are counted from one. -/
structure Chs where
  cyl : Nat
  head : Nat
  sector : Nat
  deriving DecidableEq, Repr

structure Geometry where
  cylinders : Nat
  heads : Nat
  sectors : Nat
  deriving DecidableEq, Repr

namespace Geometry

def Inside (g : Geometry) (c : Chs) : Prop :=
  c.cyl < g.cylinders ∧ c.head < g.heads ∧ 1 ≤ c.sector ∧ c.sector ≤ g.sectors

instance (g : Geometry) (c : Chs) : Decidable (g.Inside c) := inferInstanceAs (Decidable (_ ∧ _))

/-- The address after another one: of the next sector, or else head, or else cylinder. -/
def next (g : Geometry) (c : Chs) : Chs :=
  if c.sector < g.sectors then { c with sector := c.sector + 1 }
  else if c.head + 1 < g.heads then ⟨c.cyl, c.head + 1, 1⟩
  else ⟨c.cyl + 1, 0, 1⟩

def block (g : Geometry) (c : Chs) : Nat := (c.cyl * g.heads + c.head) * g.sectors + (c.sector - 1)

/-- The blocks that contents of registers stand for, on a device with so many blocks: none outside
of the geometry, and inside of it one after the other. -/
structure Translates {R : Type} (g : Geometry) (blocks : Nat) (chs : R → Chs)
    (offset : R → Option Nat) : Prop where
  refuses : ∀ r, offset r = none ↔ ¬ g.Inside (chs r)
  injective : ∀ r r' n, offset r = some n → offset r' = some n → chs r = chs r'
  fits : ∀ r n, offset r = some n → n < blocks
  first : ∀ r, g.Inside (chs r) → chs r = ⟨0, 0, 1⟩ → offset r = some 0
  next : ∀ r r' n, offset r = some n → g.Inside (chs r') → chs r' = g.next (chs r) →
    offset r' = some (n + 1)

/-- The last digit of a number, and the number before it. -/
theorem digit_unique {base high high' low low' : Nat} (small : low < base) (small' : low' < base)
    (same : high * base + low = high' * base + low') : high = high' ∧ low = low' := by
  have positive : 0 < base := Nat.lt_of_le_of_lt (Nat.zero_le _) small
  have quotients := congrArg (· / base) same
  have digits := congrArg (· % base) same
  simp only [Nat.mul_comm _ base, Nat.mul_add_div positive, Nat.div_eq_of_lt small,
    Nat.div_eq_of_lt small', Nat.add_zero] at quotients
  simp only [Nat.mul_comm _ base, Nat.mul_add_mod, Nat.mod_eq_of_lt small,
    Nat.mod_eq_of_lt small'] at digits
  exact ⟨quotients, digits⟩

theorem block_injective {g : Geometry} {c c' : Chs} (inside : g.Inside c) (inside' : g.Inside c')
    (same : g.block c = g.block c') : c = c' := by
  obtain ⟨_, head, counted, sector⟩ := inside
  obtain ⟨_, head', counted', sector'⟩ := inside'
  obtain ⟨track, place⟩ := digit_unique (by omega) (by omega) same
  obtain ⟨sameCyl, sameHead⟩ := digit_unique head head' track
  have sameSector : c.sector = c'.sector := by omega
  cases c
  cases c'
  exact Chs.mk.injEq .. |>.mpr ⟨sameCyl, sameHead, sameSector⟩

theorem block_lt {g : Geometry} {c : Chs} (inside : g.Inside c) :
    g.block c < g.cylinders * g.heads * g.sectors := by
  obtain ⟨cyl, head, counted, sector⟩ := inside
  have cylinder : (c.cyl + 1) * g.heads ≤ g.cylinders * g.heads := Nat.mul_le_mul_right _ cyl
  rw [Nat.succ_mul] at cylinder
  have track : (c.cyl * g.heads + c.head + 1) * g.sectors ≤ g.cylinders * g.heads * g.sectors :=
    Nat.mul_le_mul_right _ (by omega)
  rw [Nat.succ_mul] at track
  unfold block
  omega

theorem block_next {g : Geometry} {c : Chs} (inside : g.Inside c) :
    g.block (g.next c) = g.block c + 1 := by
  obtain ⟨_, head, counted, sector⟩ := inside
  have nextTrack : (c.cyl * g.heads + (c.head + 1)) * g.sectors =
      (c.cyl * g.heads + c.head) * g.sectors + g.sectors := by
    rw [← Nat.add_assoc, Nat.succ_mul]
  rw [next]
  by_cases more : c.sector < g.sectors
  · rw [if_pos more]
    simp only [block]
    omega
  · rw [if_neg more]
    by_cases heads : c.head + 1 < g.heads
    · rw [if_pos heads]
      simp only [block, nextTrack]
      omega
    · have last : c.head + 1 = g.heads := by omega
      rw [if_neg heads]
      rw [last, ← Nat.add_one_mul c.cyl g.heads] at nextTrack
      simp only [block, Nat.add_zero]
      omega

/-- Blocks numbered through the cylinders, heads and sectors are what is asked for. -/
theorem translates_block {R : Type} {g : Geometry} {blocks : Nat}
    (fits : g.cylinders * g.heads * g.sectors ≤ blocks) (chs : R → Chs) :
    g.Translates blocks chs fun r => if g.Inside (chs r) then some (g.block (chs r)) else none where
  refuses r := by
    by_cases inside : g.Inside (chs r) <;> simp [inside]
  injective r r' n found found' := by
    obtain ⟨inside, here⟩ := Option.ite_none_right_eq_some.mp found
    obtain ⟨inside', there⟩ := Option.ite_none_right_eq_some.mp found'
    have same := (Option.some.inj here).trans (Option.some.inj there).symm
    exact block_injective inside inside' same
  fits r n found := by
    obtain ⟨inside, here⟩ := Option.ite_none_right_eq_some.mp found
    exact Option.some.inj here ▸ Nat.lt_of_lt_of_le (block_lt inside) fits
  first r inside start := by
    rw [if_pos inside, start]
    simp [block]
  next r r' n found inside after := by
    obtain ⟨before, here⟩ := Option.ite_none_right_eq_some.mp found
    rw [if_pos inside, after, block_next before, Option.some.inj here]

end Geometry

namespace IdeDrive

variable {β : Type} [BlockDev β]

/-- What IDENTIFY announces of a device of this length. -/
def geometry (len : Nat) : Geometry := ⟨len / (numHeads * numSectors * 512), numHeads, numSectors⟩

/-- Registers that hold an address by cylinder, head and sector. -/
abbrev ChsRegs := { reg : IdeRegs // reg.lba3DevHead.getBit DevHead.L = false }

def ChsRegs.chs (r : ChsRegs) : Chs where
  cyl := r.val.lba2CylHi.toNat <<< 8 ||| r.val.lba1CylLo.toNat
  head := (r.val.lba3DevHead.getBits 0 3).toNat
  sector := r.val.lba0SectorNo.toNat

def chsOffset (d : IdeDrive β) (r : ChsRegs) : Option Nat := { d with reg := r.val }.getSectorOffset

/-- The head has four bits, and any head is one that the drive has. -/
theorem chsOffset_eq_none (d : IdeDrive β) (r : ChsRegs) : d.chsOffset r = none := by
  have head : (r.val.lba3DevHead.getBits 0 3).toNat < numHeads :=
    Nat.lt_succ_of_le (Nat.and_le_right (n := (r.val.lba3DevHead >>> 0).toNat) (m := 15))
  unfold chsOffset getSectorOffset
  rw [r.property, if_neg Bool.false_ne_true]
  exact if_pos (.inr (.inr head))

/-- The test for an address outside of the geometry is turned around: it refuses every address
there is. That is right for a device without a whole cylinder. -/
theorem chs_translates_iff (d : IdeDrive β) :
    (geometry (BlockDev.len d.blockdev)).Translates (BlockDev.len d.blockdev / 512) ChsRegs.chs
        d.chsOffset ↔ BlockDev.len d.blockdev < numHeads * numSectors * 512 := by
  constructor
  · intro translates
    by_contra long
    have cylinder : 0 < BlockDev.len d.blockdev / (numHeads * numSectors * 512) :=
      Nat.div_pos (Nat.not_lt.mp long) (by decide)
    let start : ChsRegs := ⟨{ lba0SectorNo := 1 }, rfl⟩
    have here : start.chs = ⟨0, 0, 1⟩ := by decide
    have inside : (geometry (BlockDev.len d.blockdev)).Inside ⟨0, 0, 1⟩ :=
      ⟨cylinder, (by decide : 0 < numHeads), Nat.le_refl 1, (by decide : 1 ≤ numSectors)⟩
    have found := translates.first start (here ▸ inside) here
    rw [chsOffset_eq_none] at found
    cases found
  · intro short
    have empty (c : Chs) : ¬ (geometry (BlockDev.len d.blockdev)).Inside c := by
      rintro ⟨cylinder, _⟩
      rw [geometry, Nat.div_eq_of_lt short] at cylinder
      exact Nat.not_lt_zero _ cylinder
    refine ⟨fun r => iff_of_true (d.chsOffset_eq_none r) (empty _), ?_, ?_, ?_, ?_⟩
    · intro r r' n found
      rw [chsOffset_eq_none] at found
      cases found
    · intro r n found
      rw [chsOffset_eq_none] at found
      cases found
    · exact fun r inside => absurd inside (empty _)
    · exact fun r r' n _ inside => absurd inside (empty _)

/-- A device of one cylinder. -/
def oneCylinder : IdeDrive Mem where
  blockdev := .new (List.replicate (numHeads * numSectors * 512) 0)
  irq := .new .hi
  dmarq := .new .hi

theorem one_cylinder_refused :
    ¬ (geometry (BlockDev.len oneCylinder.blockdev)).Translates
      (BlockDev.len oneCylinder.blockdev / 512) ChsRegs.chs oneCylinder.chsOffset := by
  intro translates
  have short := (chs_translates_iff oneCylinder).mp translates
  have size : BlockDev.len oneCylinder.blockdev = numHeads * numSectors * 512 :=
    List.length_replicate
  exact absurd size (Nat.ne_of_lt short)

end IdeDrive
end Clicky
