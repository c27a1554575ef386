import Clicky.Ide.Drive
import Clicky.Lib.Blocks
import Clicky.Lib.LittleEndian

/-! How large a drive says that it is: by cylinders, by blocks, and by the address of the last
block. -/
namespace Clicky

/-- What the guest finds in the block of IDENTIFY, and in the registers of an address. -/
structure Capacity where
  cyls : Nat
  heads : Nat
  sectors : Nat
  curCapacity : Nat
  lbaCapacity : Nat
  maxLba : Nat
  deriving DecidableEq, Repr

namespace Capacity

def chs (c : Capacity) : Nat := c.cyls * c.heads * c.sectors

def identifyWord (buf : List U8) (n : Nat) : U16 := BitVec.ofLeBytes 16 (buf.slice (2 * n) 2)

def lbaOf (reg : IdeRegs) : Nat :=
  reg.lba0SectorNo.toNat + 2 ^ 8 * reg.lba1CylLo.toNat + 2 ^ 16 * reg.lba2CylHi.toNat +
    2 ^ 24 * (reg.lba3DevHead.toNat % 16)

def found (buf : List U8) (reg : IdeRegs) : Capacity where
  cyls := (identifyWord buf 1).toNat
  heads := (identifyWord buf 3).toNat
  sectors := (identifyWord buf 6).toNat
  curCapacity := (identifyWord buf 57).toNat + 2 ^ 16 * (identifyWord buf 58).toNat
  lbaCapacity := (BitVec.ofLeBytes 32 (buf.slice 120 4)).toNat
  maxLba := lbaOf reg

/-- What is announced of a device of so many blocks. Cylinders and blocks are cut off to the width
of their fields; the address of the last block has a greatest value. -/
def ofBlocks (blocks : Nat) : Capacity where
  cyls := blocks / (numHeads * numSectors) % 2 ^ 16
  heads := numHeads
  sectors := numSectors
  curCapacity := blocks / (numHeads * numSectors) % 2 ^ 16 * (numHeads * numSectors)
  lbaCapacity := blocks % 2 ^ 32
  maxLba := min (blocks - 1) 0x0fffffff

theorem le16_eq (v : U16) : le16 v = v.toLeBytes 2 := rfl

theorem le32_eq (v : U32) : le32 v = v.toLeBytes 4 := by
  have low (x : U32) : (x.setWidth 16).setWidth 8 = (x.setWidth 8 : U8) :=
    BitVec.setWidth_setWidth_of_le x (by decide)
  have next (x : U32) : ((x.setWidth 16 : U16) >>> 8).setWidth 8 = ((x >>> 8).setWidth 8 : U8) := by
    apply BitVec.eq_of_getLsbD_eq
    intro i inside
    have fits : 8 + i < 16 := by omega
    simp [inside, fits]
  simp only [le32, le16, BitVec.toLeBytes, low, next, List.cons_append, List.nil_append,
    ← BitVec.shiftRight_add]

/-- A field of the block of IDENTIFY, by its number among the fields and the place of its word. -/
theorem identifyWord_flatten {l : List (List U8)} {k n : Nat} {v : U16}
    (field : l[k]? = some (le16 v)) (place : (l.take k).flatten.length = 2 * n) :
    identifyWord l.flatten n = v := by
  have bytes := List.slice_flatten field
  rw [place] at bytes
  rw [identifyWord]
  change BitVec.ofLeBytes 16 (l.flatten.slice (2 * n) (le16 v).length) = v
  rw [bytes, le16_eq]
  exact BitVec.ofLeBytes_toLeBytes v (by decide)

theorem lbaCapacity_flatten {l : List (List U8)} {k n : Nat} {v : U32}
    (field : l[k]? = some (le32 v)) (place : (l.take k).flatten.length = n) :
    BitVec.ofLeBytes 32 (l.flatten.slice n 4) = v := by
  have bytes := List.slice_flatten field
  rw [place] at bytes
  change BitVec.ofLeBytes 32 (l.flatten.slice n (le32 v).length) = v
  rw [bytes, le32_eq]
  exact BitVec.ofLeBytes_toLeBytes v (by decide)

theorem toHdDriveid_words (m : IdeDriveMeta) :
    identifyWord m.toHdDriveid 1 = m.cylinders ∧ identifyWord m.toHdDriveid 3 = m.heads ∧
      identifyWord m.toHdDriveid 6 = m.sectors ∧
      identifyWord m.toHdDriveid 57 =
        (m.cylinders.setWidth 32 * m.heads.setWidth 32 * m.sectors.setWidth 32 : U32).setWidth 16 ∧
      identifyWord m.toHdDriveid 58 =
        ((m.cylinders.setWidth 32 * m.heads.setWidth 32 * m.sectors.setWidth 32 : U32) >>> 16).setWidth
          16 ∧
      BitVec.ofLeBytes 32 (m.toHdDriveid.slice 120 4) = BitVec.ofNat 32 m.totalSectors := by
  refine ⟨?_, ?_, ?_, ?_, ?_, ?_⟩
  · exact identifyWord_flatten (k := 1) rfl (by simp)
  · exact identifyWord_flatten (k := 3) rfl (by simp)
  · exact identifyWord_flatten (k := 6) rfl (by simp)
  · exact identifyWord_flatten (k := 24) rfl (by simp)
  · exact identifyWord_flatten (k := 25) rfl (by simp)
  · exact lbaCapacity_flatten (k := 27) rfl (by simp)

theorem halves (x : U32) :
    (x.setWidth 16 : U16).toNat + 2 ^ 16 * ((x >>> 16).setWidth 16 : U16).toNat = x.toNat := by
  have bound := x.isLt
  rw [BitVec.toNat_setWidth, BitVec.toNat_setWidth, BitVec.toNat_ushiftRight,
    Nat.shiftRight_eq_div_pow]
  omega

/-- The block holds what the length of the device comes to, in the widths of the fields. -/
theorem found_identify (len : Nat) (reg : IdeRegs) :
    found (driveMeta len).toHdDriveid reg = { ofBlocks (len / 512) with maxLba := lbaOf reg } := by
  obtain ⟨cyls, heads, sectors, low, high, lba⟩ := toHdDriveid_words (driveMeta len)
  have cylinders : (driveMeta len).cylinders.toNat =
      len / 512 / (numHeads * numSectors) % 2 ^ 16 := by
    rw [driveMeta, BitVec.toNat_ofNat, Nat.div_div_eq_div_mul, Nat.mul_comm 512]
  have sixteen : (driveMeta len).heads = 16 := rfl
  have sixtyThree : (driveMeta len).sectors = 63 := rfl
  have product : ((driveMeta len).cylinders.setWidth 32 * (driveMeta len).heads.setWidth 32 *
      (driveMeta len).sectors.setWidth 32 : U32).toNat =
        len / 512 / (numHeads * numSectors) % 2 ^ 16 * (numHeads * numSectors) := by
    have bound := (driveMeta len).cylinders.isLt
    rw [sixteen, sixtyThree, BitVec.toNat_mul, BitVec.toNat_mul, BitVec.toNat_setWidth, ← cylinders]
    change (driveMeta len).cylinders.toNat % 2 ^ 32 * 16 % 2 ^ 32 * 63 % 2 ^ 32 = _
    have whole : numHeads * numSectors = 1008 := rfl
    rw [whole]
    omega
  simp only [found, cyls, heads, sectors, low, high, lba, halves, product, cylinders]
  rw [BitVec.toNat_ofNat]
  rfl

/-- The four registers hold an address of 28 bits. -/
theorem lbaOf_eq {reg : IdeRegs} {devHead : U8} {lba : Nat} (small : lba ≤ 0x0fffffff)
    (first : reg.lba0SectorNo = BitVec.ofNat 8 lba) (second : reg.lba1CylLo = BitVec.ofNat 8 (lba >>> 8))
    (third : reg.lba2CylHi = BitVec.ofNat 8 (lba >>> 16))
    (last : reg.lba3DevHead =
      (devHead &&& ~~~(0x0f : U8)) ||| (BitVec.ofNat 8 (lba >>> 24) &&& 0x0f)) : lbaOf reg = lba := by
  have nibble (x y : U8) : ((x &&& ~~~(0x0f : U8)) ||| (y &&& 0x0f)).toNat % 16 = y.toNat % 16 := by
    have same : ((x &&& ~~~(0x0f : U8)) ||| (y &&& 0x0f)) &&& 0x0f = y &&& 0x0f := by
      apply BitVec.eq_of_getLsbD_eq
      intro i inside
      simp only [BitVec.getLsbD_and, BitVec.getLsbD_or, BitVec.getLsbD_not, inside]
      cases (0x0f : U8).getLsbD i <;> simp
    have low (z : U8) : (z &&& 0x0f).toNat = z.toNat % 16 := Nat.and_two_pow_sub_one_eq_mod z.toNat 4
    rw [← low, same, low]
  rw [lbaOf, first, second, third, last, nibble]
  simp only [BitVec.toNat_ofNat, Nat.shiftRight_eq_div_pow]
  omega

end Capacity

namespace IdeDrive

variable {β : Type} [BlockDev β]

/-- The drive carries out both commands, and the guest finds a capacity. -/
def Announces (d : IdeDrive β) (c : Capacity) : Prop :=
  ∃ d₁ d₂, d.execCmd 0xec = .ok d₁ () ∧ d.execCmd 0xf8 = .ok d₂ () ∧
    c = Capacity.found d₁.iobuf.buf d₂.reg

omit [BlockDev β] in
theorem fill_identify (d : IdeDrive β) (len : Nat) :
    (d.iobuf.fill (driveMeta len).toHdDriveid).buf = (driveMeta len).toHdDriveid := by
  have whole := length_toHdDriveid (driveMeta len)
  have size := d.iobuf.sized
  change d.iobuf.buf.overwrite 0 _ = _
  unfold List.overwrite
  rw [size, Nat.sub_zero, List.take_zero, List.nil_append,
    List.take_of_length_le (by omega), List.drop_eq_nil_of_le (by omega), List.append_nil]

theorem execCmd_identify {d : IdeDrive β} (ready : d.reg.status.getBit Status.BSY = false) :
    ∃ d₁, d.execCmd 0xec = .ok d₁ () ∧
      d₁.iobuf.buf = (driveMeta (BlockDev.len d.blockdev)).toHdDriveid := by
  unfold execCmd begin
  rw [ready, if_neg Bool.false_ne_true]
  exact ⟨_, rfl, d.fill_identify _⟩

theorem execCmd_maxAddress {d : IdeDrive β} (ready : d.reg.status.getBit Status.BSY = false) :
    ∃ d₂, d.execCmd 0xf8 = .ok d₂ () ∧
      Capacity.lbaOf d₂.reg = min (BlockDev.len d.blockdev / 512 - 1) 0x0fffffff := by
  unfold execCmd begin
  rw [ready, if_neg Bool.false_ne_true]
  exact ⟨_, rfl, Capacity.lbaOf_eq (Nat.min_le_right _ _) rfl rfl rfl rfl⟩

theorem not_ready {d d' : IdeDrive β} {cmd : U8} (done : d.execCmd cmd = .ok d' ()) :
    d.reg.status.getBit Status.BSY = false := by
  cases busy : d.reg.status.getBit Status.BSY with
  | false => rfl
  | true =>
    unfold execCmd begin at done
    rw [busy, if_pos rfl] at done
    cases done

theorem announces_iff (d : IdeDrive β) (c : Capacity) :
    d.Announces c ↔ d.reg.status.getBit Status.BSY = false ∧
      c = Capacity.ofBlocks (BlockDev.len d.blockdev / 512) := by
  constructor
  · rintro ⟨d₁, d₂, identified, addressed, rfl⟩
    have ready := not_ready identified
    obtain ⟨_, same, block⟩ := execCmd_identify ready
    cases identified.symm.trans same
    obtain ⟨_, same', address⟩ := execCmd_maxAddress ready
    cases addressed.symm.trans same'
    refine ⟨ready, ?_⟩
    rw [block, Capacity.found_identify, address]
    rfl
  · rintro ⟨ready, rfl⟩
    obtain ⟨d₁, identified, block⟩ := execCmd_identify ready
    obtain ⟨d₂, addressed, address⟩ := execCmd_maxAddress ready
    refine ⟨d₁, d₂, identified, addressed, ?_⟩
    rw [block, Capacity.found_identify, address]
    rfl

end IdeDrive

namespace Capacity

/-- What is announced of a device of this length says one thing, and no more of a smaller device. -/
structure Consistent (len : Nat) (c : Capacity) : Prop where
  last : c.maxLba + 1 = c.lbaCapacity
  current : c.curCapacity = c.chs
  below : c.chs ≤ c.lbaCapacity
  near : min (len / 512) (65535 * 16 * 63) < c.chs + 16 * 63
  monotone : ∀ (β : Type) [BlockDev β] (d : IdeDrive β) (c' : Capacity), d.Announces c' →
    512 ≤ BlockDev.len d.blockdev → BlockDev.len d.blockdev ≤ len →
      c'.chs ≤ c.chs ∧ c'.lbaCapacity ≤ c.lbaCapacity

/-- The blocks can be addressed, and the cylinders counted, or else their count ends in as many as
can be counted. -/
def Representable (blocks : Nat) : Prop :=
  blocks ≤ 2 ^ 28 ∧
    (blocks / (numHeads * numSectors) < 2 ^ 16 ∨ blocks / (numHeads * numSectors) % 2 ^ 16 = 65535)

theorem ofBlocks_chs (blocks : Nat) : (ofBlocks blocks).chs = blocks / 1008 % 65536 * 1008 := by
  change blocks / 1008 % 65536 * 16 * 63 = _
  omega

theorem consistent_of_representable {len : Nat} (size : 512 ≤ len)
    (fits : Representable (len / 512)) : Consistent len (ofBlocks (len / 512)) := by
  have chs := ofBlocks_chs (len / 512)
  obtain ⟨addressed, counted⟩ := fits
  change len / 512 / 1008 < 65536 ∨ len / 512 / 1008 % 65536 = 65535 at counted
  refine ⟨?_, ?_, ?_, ?_, ?_⟩
  · change min (len / 512 - 1) 0x0fffffff + 1 = len / 512 % 2 ^ 32
    omega
  · rw [chs]
    rfl
  · rw [chs]
    change _ ≤ len / 512 % 2 ^ 32
    omega
  · rw [chs]
    omega
  · intro β _ d c' announced _ smaller
    obtain ⟨_, rfl⟩ := (d.announces_iff c').mp announced
    have blocks : BlockDev.len d.blockdev / 512 ≤ len / 512 := Nat.div_le_div_right smaller
    rw [chs, ofBlocks_chs]
    refine ⟨?_, ?_⟩
    · omega
    · change _ % 2 ^ 32 ≤ len / 512 % 2 ^ 32
      omega

/-- There are devices of every length. -/
theorem exists_announcing (len : Nat) :
    ∃ d : IdeDrive Mem, d.Announces (ofBlocks (len / 512)) ∧ BlockDev.len d.blockdev = len := by
  let d : IdeDrive Mem :=
    { blockdev := .new (List.replicate len 0), irq := .new .hi, dmarq := .new .hi }
  have size : BlockDev.len d.blockdev = len := List.length_replicate
  have ready : d.reg.status.getBit Status.BSY = false := by
    change (((0 : U8).setBit Status.DRDY true).setBit Status.DSC true).getBit Status.BSY = false
    decide
  refine ⟨d, (d.announces_iff _).mpr ⟨ready, ?_⟩, size⟩
  rw [size]

theorem representable_of_consistent {len : Nat} (consistent : Consistent len (ofBlocks (len / 512))) :
    Representable (len / 512) := by
  have near := consistent.near
  have last : min (len / 512 - 1) 0x0fffffff + 1 = len / 512 % 2 ^ 32 := consistent.last
  rw [ofBlocks_chs] at near
  refine ⟨?_, ?_⟩
  · by_contra large
    obtain ⟨d, announced, size⟩ := exists_announcing ((2 ^ 32 - 1) * 512)
    have smaller := (consistent.monotone Mem d _ announced (by omega) (by omega)).2
    change (2 ^ 32 - 1) * 512 / 512 % 2 ^ 32 ≤ len / 512 % 2 ^ 32 at smaller
    omega
  · change len / 512 / 1008 < 65536 ∨ len / 512 / 1008 % 65536 = 65535
    omega

end Capacity

namespace IdeDrive

variable {β : Type} [BlockDev β]

/-- IDENTIFY cuts the cylinders and the blocks off, where the command for the last address has a
greatest one to give: what the two announce is consistent for the devices that they can represent. -/
theorem capacity_consistent_iff {d : IdeDrive β} (ready : d.reg.status.getBit Status.BSY = false)
    (size : 512 ≤ BlockDev.len d.blockdev) :
    (∃ c, d.Announces c ∧ c.Consistent (BlockDev.len d.blockdev)) ↔
      Capacity.Representable (BlockDev.len d.blockdev / 512) := by
  simp only [announces_iff, ready, true_and, exists_eq_left]
  exact ⟨Capacity.representable_of_consistent, Capacity.consistent_of_representable size⟩

def twoBlocks : IdeDrive Mem where
  blockdev := .new (List.replicate 1024 0)
  irq := .new .hi
  dmarq := .new .hi

theorem two_blocks_consistent :
    (∃ c, twoBlocks.Announces c ∧ c.Consistent (BlockDev.len twoBlocks.blockdev)) ↔
      Capacity.Representable (BlockDev.len twoBlocks.blockdev / 512) := by
  have size : BlockDev.len twoBlocks.blockdev = 1024 := List.length_replicate
  exact capacity_consistent_iff (by decide) (by omega)

/-- With one cylinder more than the field can count, none is announced. -/
theorem cylinders_wrap : ¬ ∀ d : IdeDrive Mem, d.reg.status.getBit Status.BSY = false →
    512 ≤ BlockDev.len d.blockdev →
      ∃ c, d.Announces c ∧ c.Consistent (BlockDev.len d.blockdev) := by
  intro consistent
  obtain ⟨d, announced, size⟩ := Capacity.exists_announcing (65536 * 1008 * 512)
  have ready := ((d.announces_iff _).mp announced).1
  have large : 512 ≤ BlockDev.len d.blockdev := by omega
  obtain ⟨_, counted⟩ := (capacity_consistent_iff ready large).mp (consistent d ready large)
  change BlockDev.len d.blockdev / 512 / 1008 < 65536 ∨
    BlockDev.len d.blockdev / 512 / 1008 % 65536 = 65535 at counted
  omega

end IdeDrive
end Clicky
