import Clicky.Eapp.Bus

/-! Reads and writes of a game, against the three regions of bytes that its bus keeps. -/
namespace Clicky
open Outcome

inductive BusAccess where
  | read (width : Width) (offset : U32)
  | write (width : Width) (offset : U32) (val : BitVec width.bits)

inductive RamRegion where
  | image | workRam | framebuf
  deriving DecidableEq, Repr

def RamRegion.base : RamRegion → Nat
  | .image => 0x18000000
  | .workRam => 0x10000000
  | .framebuf => 0x14020000

namespace EappBus

variable {imageSize : Nat}

def regionLen (b : EappBus imageSize) : RamRegion → Nat
  | .image => b.imageLen.toNat
  | .workRam => workRamSize
  | .framebuf => dmaFbSize

def Inside (b : EappBus imageSize) (r : RamRegion) (offset : U32) (len : Nat) : Prop :=
  r.base ≤ offset.toNat ∧ offset.toNat + len ≤ r.base + b.regionLen r

def InRegion (b : EappBus imageSize) (offset : U32) (len : Nat) : Prop :=
  ∃ r, b.Inside r offset len

/-- After the write, whatever is read in a region holds the bytes written, lowest first, and
elsewhere the bytes it held before. -/
def Patched (b b' : EappBus imageSize) (width : Width) (offset : U32) (val : BitVec width.bits) :
    Prop :=
  ∀ (w : Width) (o : U32), b.InRegion o w.bytes →
    ∃ before after, b.read w o = .ok b before ∧ b'.read w o = .ok b' after ∧
      ∀ i < w.bytes, after.leByte i =
        if offset.toNat ≤ o.toNat + i ∧ o.toNat + i < offset.toNat + width.bytes then
          val.leByte (o.toNat + i - offset.toNat)
        else before.leByte i

/-- The access comes to an end, and in a region it does what memory does. -/
def Behaves (b : EappBus imageSize) : BusAccess → Prop
  | .read width offset => ∃ r, b.read width offset = .done b r ∧
      (b.InRegion offset width.bytes → ∃ val, r = .ok val)
  | .write width offset val => ∃ b' r, b.write width offset val = .done b' r ∧
      (b.InRegion offset width.bytes → r = .ok () ∧ b.Patched b' width offset val)

/-- The access begins in the image or in the work RAM, and ends past it. -/
def StraddlesAt (b : EappBus imageSize) (offset : U32) (len : Nat) : Prop :=
  (RamRegion.base .image ≤ offset.toNat ∧
      offset.toNat < RamRegion.base .image + b.regionLen .image ∧
      RamRegion.base .image + imageSize < offset.toNat + len) ∨
    (RamRegion.base .workRam ≤ offset.toNat ∧
      offset.toNat < RamRegion.base .workRam + b.regionLen .workRam ∧
      RamRegion.base .workRam + workRamSize < offset.toNat + len)

def Straddles (b : EappBus imageSize) : BusAccess → Prop
  | .read width offset | .write width offset _ => b.StraddlesAt offset width.bytes

/-- The write makes a counter that is kept of the framebuffer overflow. -/
def Overrun (b : EappBus imageSize) (width : Width) (fbOff : U32) : Prop :=
  width = .word ∧ (b.hwFbWriteCount = BitVec.allOnes 64 ∨
    fbOff = 0 ∧ b.hwFbWriteCount ≠ 0 ∧ b.hwDmaFrame = BitVec.allOnes 64)

def Overruns (b : EappBus imageSize) : BusAccess → Prop
  | .read _ _ => False
  | .write width offset _ =>
    b.Inside .framebuf offset width.bytes ∧ b.Overrun width (offset - hwStubBase - 0x20000)

theorem imageLen_le (b : EappBus imageSize) : b.imageLen.toNat ≤ imageSize := by
  rw [imageLen, BitVec.toNat_ofNat]
  exact Nat.mod_le _ _

theorem window_iff (base len offset : U32) :
    base ≤ offset ∧ offset - base < len ↔
      base.toNat ≤ offset.toNat ∧ offset.toNat < base.toNat + len.toNat := by
  rw [BitVec.le_def, BitVec.lt_def]
  refine and_congr_right fun above => ?_
  rw [BitVec.toNat_sub_of_le (BitVec.le_def.mpr above)]
  omega

theorem toNat_sub_base (base : U32) {offset : U32} (above : base.toNat ≤ offset.toNat) :
    (offset - base).toNat = offset.toNat - base.toNat :=
  BitVec.toNat_sub_of_le (BitVec.le_def.mpr above)

theorem image_window (b : EappBus imageSize) (offset : U32) :
    fileVmaBase ≤ offset ∧ offset - fileVmaBase < b.imageLen ↔
      0x18000000 ≤ offset.toNat ∧ offset.toNat < 0x18000000 + b.imageLen.toNat :=
  window_iff fileVmaBase b.imageLen offset

theorem workRam_window (offset : U32) :
    workRamBase ≤ offset ∧ offset - workRamBase < BitVec.ofNat 32 workRamSize ↔
      0x10000000 ≤ offset.toNat ∧ offset.toNat < 0x14000000 :=
  window_iff workRamBase (BitVec.ofNat 32 workRamSize) offset

theorem hwStub_window (offset : U32) :
    hwStubBase ≤ offset ∧ offset - hwStubBase < BitVec.ofNat 32 hwStubSize ↔
      0x14000000 ≤ offset.toNat ∧ offset.toNat < 0x18000000 :=
  window_iff hwStubBase (BitVec.ofNat 32 hwStubSize) offset

theorem image_offset {offset : U32} (above : 0x18000000 ≤ offset.toNat) :
    (offset - fileVmaBase).toNat = offset.toNat - 0x18000000 := toNat_sub_base fileVmaBase above

theorem workRam_offset {offset : U32} (above : 0x10000000 ≤ offset.toNat) :
    (offset - workRamBase).toNat = offset.toNat - 0x10000000 := toNat_sub_base workRamBase above

theorem framebuf_offset {offset : U32} (above : 0x14020000 ≤ offset.toNat) :
    (offset - hwStubBase - 0x20000).toNat = offset.toNat - 0x14020000 := by
  have rel : (offset - hwStubBase).toNat = offset.toNat - 0x14000000 :=
    toNat_sub_base hwStubBase (Nat.le_trans (by decide) above)
  rw [BitVec.toNat_sub_of_le, rel]
  · change offset.toNat - 0x14000000 - 0x20000 = offset.toNat - 0x14020000
    omega
  · rw [BitVec.le_def, rel]
    change 0x20000 ≤ offset.toNat - 0x14000000
    omega

theorem registers_iff {offset : U32} (above : 0x14000000 ≤ offset.toNat) :
    offset - hwStubBase < 0x20000 ↔ offset.toNat < 0x14020000 := by
  rw [BitVec.lt_def, toNat_sub_base hwStubBase above]
  change offset.toNat - 0x14000000 < 0x20000 ↔ offset.toNat < 0x14020000
  omega

def bytes (b : EappBus imageSize) : RamRegion → List U8
  | .image => b.image.mem
  | .workRam => b.workRam.mem
  | .framebuf => b.dmaFramebuf.mem

theorem Width.bytes_pos (width : Width) : 0 < width.bytes := by
  cases width <;> decide

section
variable {b : EappBus imageSize} {width : Width} {offset : U32} {val : BitVec width.bits}

/-! Where the dispatch sends an access. -/

theorem read_image (above : 0x18000000 ≤ offset.toNat)
    (below : offset.toNat < 0x18000000 + b.imageLen.toNat) : b.read width offset =
      (b.image.read width (offset - fileVmaBase)).zoom b.putImage :=
  if_pos ((b.image_window offset).mpr ⟨above, below⟩)

theorem read_workRam (above : 0x10000000 ≤ offset.toNat) (below : offset.toNat < 0x14000000) :
    b.read width offset = (b.workRam.read width (offset - workRamBase)).zoom b.putWorkRam := by
  rw [read, if_neg (by rw [image_window]; omega),
    if_pos ((workRam_window offset).mpr ⟨above, below⟩)]

theorem read_framebuf (above : 0x14020000 ≤ offset.toNat)
    (fits : offset.toNat + width.bytes ≤ 0x14020000 + 153600) : b.read width offset =
      (b.dmaFramebuf.read width (offset - hwStubBase - 0x20000)).zoom b.putFramebuf := by
  have wide := Width.bytes_pos width
  have here := framebuf_offset above
  have size : dmaFbSize = 153600 := rfl
  rw [read, if_neg (by rw [image_window]; omega), if_neg (by rw [workRam_window]; omega),
    if_pos ((hwStub_window offset).mpr ⟨by omega, by omega⟩)]
  dsimp only
  rw [if_neg (by rw [registers_iff (by omega)]; omega), if_pos (by omega), Ram.read]

theorem store_image (above : 0x18000000 ≤ offset.toNat)
    (below : offset.toNat < 0x18000000 + b.imageLen.toNat) : b.store width offset val =
      (b.image.write width (offset - fileVmaBase) val).zoom b.putImage :=
  if_pos ((b.image_window offset).mpr ⟨above, below⟩)

theorem store_workRam (above : 0x10000000 ≤ offset.toNat) (below : offset.toNat < 0x14000000) :
    b.store width offset val =
      (b.workRam.write width (offset - workRamBase) val).zoom b.putWorkRam := by
  rw [store, if_neg (by rw [image_window]; omega),
    if_pos ((workRam_window offset).mpr ⟨above, below⟩)]

theorem store_framebuf (above : 0x14020000 ≤ offset.toNat)
    (fits : offset.toNat + width.bytes ≤ 0x14020000 + 153600) : b.store width offset val =
      ((b.dmaFramebuf.write width (offset - hwStubBase - 0x20000) val).zoom b.putFramebuf).bind
        fun b _ => b.framebufWritten width (offset - hwStubBase - 0x20000) := by
  have wide := Width.bytes_pos width
  have here := framebuf_offset above
  have size : dmaFbSize = 153600 := rfl
  rw [store, if_neg (by rw [image_window]; omega), if_neg (by rw [workRam_window]; omega),
    if_pos ((hwStub_window offset).mpr ⟨by omega, by omega⟩)]
  dsimp only
  rw [if_neg (by rw [registers_iff (by omega)]; omega), if_pos (by omega), Ram.write]

end

/-- A read in a region gives its bytes there. -/
theorem read_region {b : EappBus imageSize} {r : RamRegion} {width : Width} {offset : U32}
    (inside : b.Inside r offset width.bytes) :
    b.read width offset = .ok b (BitVec.ofLeBytes width.bits
      ((b.bytes r).slice (offset.toNat - r.base) width.bytes)) := by
  have wide := Width.bytes_pos width
  obtain ⟨above, below⟩ := inside
  cases r with
  | image =>
    change 0x18000000 ≤ offset.toNat at above
    change offset.toNat + width.bytes ≤ 0x18000000 + b.imageLen.toNat at below
    have whole := b.imageLen_le
    have here := image_offset above
    rw [read_image above (by omega), b.image.read_inside (by omega), here]
    rfl
  | workRam =>
    change 0x10000000 ≤ offset.toNat at above
    change offset.toNat + width.bytes ≤ 0x10000000 + 0x4000000 at below
    have here := workRam_offset above
    have size : workRamSize = 0x4000000 := rfl
    rw [read_workRam above (by omega), b.workRam.read_inside (by omega), here]
    rfl
  | framebuf =>
    change 0x14020000 ≤ offset.toNat at above
    change offset.toNat + width.bytes ≤ 0x14020000 + 153600 at below
    have here := framebuf_offset above
    have size : dmaFbSize = 153600 := rfl
    rw [read_framebuf above below, b.dmaFramebuf.read_inside (by omega), here]
    rfl

theorem one_lt_succ {count : BitVec 64} (room : count ≠ BitVec.allOnes 64) :
    1 < count + 1 ↔ count ≠ 0 := by
  have top : count.toNat ≠ 2 ^ 64 - 1 := fun full => room (BitVec.eq_of_toNat_eq full)
  have bound := count.isLt
  have sum : (count + 1).toNat = count.toNat + 1 := by
    rw [BitVec.toNat_add]
    exact Nat.mod_eq_of_lt (by change count.toNat + 1 < 2 ^ 64; omega)
  rw [BitVec.lt_def, sum, ne_eq, BitVec.toNat_eq]
  change 1 < count.toNat + 1 ↔ ¬ count.toNat = 0
  omega

theorem framebufWritten_overrun {b : EappBus imageSize} {width : Width} {fbOff : U32}
    (beyond : b.Overrun width fbOff) : b.framebufWritten width fbOff = .panic addOverflow := by
  obtain ⟨rfl, full | ⟨first, again, full⟩⟩ := beyond
  · exact if_pos full
  · by_cases counted : b.hwFbWriteCount = BitVec.allOnes 64
    · exact if_pos counted
    · simp only [framebufWritten]
      rw [if_neg counted, if_pos ⟨first, (one_lt_succ counted).mpr again⟩, if_pos full]

theorem framebufWritten_fits {b : EappBus imageSize} {width : Width} {fbOff : U32}
    (fits : ¬ b.Overrun width fbOff) :
    ∃ b', b.framebufWritten width fbOff = .ok b' () ∧ ∀ r, b'.bytes r = b.bytes r := by
  cases width with
  | byte => exact ⟨_, rfl, fun r => by cases r <;> rfl⟩
  | half => exact ⟨_, rfl, fun r => by cases r <;> rfl⟩
  | word =>
    have room : ¬ b.hwFbWriteCount = BitVec.allOnes 64 := fun full => fits ⟨rfl, .inl full⟩
    simp only [framebufWritten]
    rw [if_neg room]
    split
    · rename_i again
      have frames : ¬ b.hwDmaFrame = BitVec.allOnes 64 := fun full =>
        fits ⟨rfl, .inr ⟨again.1, (one_lt_succ room).mp again.2, full⟩⟩
      rw [if_neg frames]
      exact ⟨_, rfl, fun r => by cases r <;> rfl⟩
    · exact ⟨_, rfl, fun r => by cases r <;> rfl⟩

/-! What replacing one memory leaves of the others. -/

theorem bytes_putImage (b : EappBus imageSize) (image : Ram imageSize) (r : RamRegion) :
    (b.putImage image).bytes r = if r = .image then image.mem else b.bytes r := by
  cases r <;> rfl

theorem bytes_putWorkRam (b : EappBus imageSize) (workRam : Ram workRamSize) (r : RamRegion) :
    (b.putWorkRam workRam).bytes r = if r = .workRam then workRam.mem else b.bytes r := by
  cases r <;> rfl

theorem bytes_putFramebuf (b : EappBus imageSize) (framebuf : Ram dmaFbSize) (r : RamRegion) :
    (b.putFramebuf framebuf).bytes r = if r = .framebuf then framebuf.mem else b.bytes r := by
  cases r <;> rfl

/-- A write in a region overwrites its bytes there, and keeps the other regions. -/
theorem store_region {b : EappBus imageSize} {r : RamRegion} {width : Width} {offset : U32}
    (val : BitVec width.bits) (inside : b.Inside r offset width.bytes)
    (counts : r = .framebuf → ¬ b.Overrun width (offset - hwStubBase - 0x20000)) :
    ∃ b', b.store width offset val = .ok b' () ∧
      b'.bytes r = (b.bytes r).overwrite (offset.toNat - r.base) (val.toLeBytes width.bytes) ∧
      ∀ r', r' ≠ r → b'.bytes r' = b.bytes r' := by
  have wide := Width.bytes_pos width
  obtain ⟨above, below⟩ := inside
  cases r with
  | image =>
    change 0x18000000 ≤ offset.toNat at above
    change offset.toNat + width.bytes ≤ 0x18000000 + b.imageLen.toNat at below
    have whole := b.imageLen_le
    have here := image_offset above
    obtain ⟨image, done, written⟩ := b.image.write_inside (offset - fileVmaBase) val (by omega)
    rw [store_image above (by omega), done]
    refine ⟨b.putImage image, rfl, ?_, fun r' other => ?_⟩
    · rw [bytes_putImage, if_pos rfl, written, here]
      rfl
    · rw [bytes_putImage, if_neg other]
  | workRam =>
    change 0x10000000 ≤ offset.toNat at above
    change offset.toNat + width.bytes ≤ 0x10000000 + 0x4000000 at below
    have here := workRam_offset above
    have size : workRamSize = 0x4000000 := rfl
    obtain ⟨workRam, done, written⟩ := b.workRam.write_inside (offset - workRamBase) val (by omega)
    rw [store_workRam above (by omega), done]
    refine ⟨b.putWorkRam workRam, rfl, ?_, fun r' other => ?_⟩
    · rw [bytes_putWorkRam, if_pos rfl, written, here]
      rfl
    · rw [bytes_putWorkRam, if_neg other]
  | framebuf =>
    change 0x14020000 ≤ offset.toNat at above
    change offset.toNat + width.bytes ≤ 0x14020000 + 153600 at below
    have here := framebuf_offset above
    have size : dmaFbSize = 153600 := rfl
    obtain ⟨framebuf, done, written⟩ :=
      b.dmaFramebuf.write_inside (offset - hwStubBase - 0x20000) val (by omega)
    rw [store_framebuf above below, done]
    obtain ⟨b', booked, same⟩ := framebufWritten_fits (b := b.putFramebuf framebuf) (counts rfl)
    refine ⟨b', booked, ?_, fun r' other => ?_⟩
    · rw [same, bytes_putFramebuf, if_pos rfl, written, here]
      rfl
    · rw [same, bytes_putFramebuf, if_neg other]

theorem read_total {b : EappBus imageSize} {width : Width} {offset : U32}
    (within : ¬ b.StraddlesAt offset width.bytes) : ∃ r, b.read width offset = .done b r := by
  simp only [StraddlesAt, RamRegion.base, regionLen] at within
  have work : workRamSize = 0x4000000 := rfl
  rw [read]
  split
  · rename_i image
    have ⟨above, below⟩ := (b.image_window offset).mp image
    have here := image_offset above
    rw [b.image.read_inside (by omega)]
    exact ⟨_, rfl⟩
  · split
    · rename_i _ workRam
      have ⟨above, below⟩ := (workRam_window offset).mp workRam
      have here := workRam_offset above
      rw [b.workRam.read_inside (by omega)]
      exact ⟨_, rfl⟩
    · split
      · dsimp only
        split
        · exact ⟨_, rfl⟩
        · split
          · rename_i fits
            rw [Ram.bulkRead, if_neg (Nat.not_lt.mpr fits)]
            exact ⟨_, rfl⟩
          · exact ⟨_, rfl⟩
      · exact ⟨_, rfl⟩

theorem read_straddles {b : EappBus imageSize} {width : Width} {offset : U32}
    (straddles : b.StraddlesAt offset width.bytes) :
    b.read width offset = .panic outOfBounds := by
  simp only [StraddlesAt, RamRegion.base, regionLen] at straddles
  have work : workRamSize = 0x4000000 := rfl
  obtain ⟨above, below, past⟩ | ⟨above, below, past⟩ := straddles
  · have here := image_offset above
    rw [read_image above below, b.image.read_past (by omega)]
    rfl
  · have here := workRam_offset above
    rw [read_workRam above (by omega), b.workRam.read_past (by omega)]
    rfl

theorem store_total {b : EappBus imageSize} {width : Width} {offset : U32}
    (val : BitVec width.bits) (within : ¬ b.StraddlesAt offset width.bytes)
    (counts : ¬ b.Overruns (.write width offset val)) :
    ∃ b' r, b.store width offset val = .done b' r := by
  by_cases region : b.InRegion offset width.bytes
  · obtain ⟨r, inside⟩ := region
    obtain ⟨b', done, _⟩ := store_region val inside fun same beyond => counts ⟨same ▸ inside, beyond⟩
    exact ⟨b', _, done⟩
  simp only [StraddlesAt, RamRegion.base, regionLen] at within
  have work : workRamSize = 0x4000000 := rfl
  rw [store]
  split
  · rename_i image
    have ⟨above, below⟩ := (b.image_window offset).mp image
    have here := image_offset above
    obtain ⟨image, done, _⟩ := b.image.write_inside (offset - fileVmaBase) val (by omega)
    rw [done]
    exact ⟨_, _, rfl⟩
  · split
    · rename_i _ workRam
      have ⟨above, below⟩ := (workRam_window offset).mp workRam
      have here := workRam_offset above
      obtain ⟨workRam, done, _⟩ := b.workRam.write_inside (offset - workRamBase) val (by omega)
      rw [done]
      exact ⟨_, _, rfl⟩
    · split
      · rename_i _ _ stub
        have ⟨above, below⟩ := (hwStub_window offset).mp stub
        dsimp only
        split
        · exact ⟨_, _, rfl⟩
        · rename_i framebuf
          rw [registers_iff above] at framebuf
          have here := framebuf_offset (Nat.not_lt.mp framebuf)
          have size : dmaFbSize = 153600 := rfl
          rw [if_neg]
          · exact ⟨_, _, rfl⟩
          · intro fits
            refine region ⟨.framebuf, Nat.not_lt.mp framebuf, ?_⟩
            simp only [RamRegion.base, regionLen]
            omega
      · exact ⟨_, _, rfl⟩

theorem store_straddles {b : EappBus imageSize} {width : Width} {offset : U32}
    (val : BitVec width.bits) (straddles : b.StraddlesAt offset width.bytes) :
    b.store width offset val = .panic outOfBounds := by
  simp only [StraddlesAt, RamRegion.base, regionLen] at straddles
  have work : workRamSize = 0x4000000 := rfl
  obtain ⟨above, below, past⟩ | ⟨above, below, past⟩ := straddles
  · have here := image_offset above
    rw [store_image above below, b.image.write_past val (by omega)]
    rfl
  · have here := workRam_offset above
    rw [store_workRam above (by omega), b.workRam.write_past val (by omega)]
    rfl

theorem store_overruns {b : EappBus imageSize} {width : Width} {offset : U32}
    {val : BitVec width.bits} (overruns : b.Overruns (.write width offset val)) :
    b.store width offset val = .panic addOverflow := by
  have wide := Width.bytes_pos width
  obtain ⟨⟨above, below⟩, beyond⟩ := overruns
  simp only [RamRegion.base, regionLen] at above below
  have here := framebuf_offset above
  have size : dmaFbSize = 153600 := rfl
  obtain ⟨framebuf, done, _⟩ :=
    b.dmaFramebuf.write_inside (offset - hwStubBase - 0x20000) val (by omega)
  rw [store_framebuf above below, done]
  exact framebufWritten_overrun (b := b.putFramebuf framebuf) beyond

theorem regionLen_le (b : EappBus imageSize) (r : RamRegion) :
    b.regionLen r ≤ (b.bytes r).length := by
  cases r with
  | image =>
    rw [bytes, b.image.size_mem]
    exact b.imageLen_le
  | workRam => exact Nat.le_of_eq b.workRam.size_mem.symm
  | framebuf => exact Nat.le_of_eq b.dmaFramebuf.size_mem.symm

/-- No address is in two regions. -/
theorem apart {b : EappBus imageSize} {r r' : RamRegion} {offset o : U32} {len len' i : Nat}
    (inside : b.Inside r offset len) (inside' : b.Inside r' o len') (other : r' ≠ r) (low : i < len') :
    ¬ (offset.toNat ≤ o.toNat + i ∧ o.toNat + i < offset.toNat + len) := by
  obtain ⟨above, below⟩ := inside
  obtain ⟨above', below'⟩ := inside'
  have work : workRamSize = 0x4000000 := rfl
  have frame : dmaFbSize = 153600 := rfl
  cases r <;> cases r' <;> first | exact absurd rfl other | skip
  all_goals
    simp only [RamRegion.base, regionLen] at above below above' below'
    omega

theorem patched_of_bytes {b b' : EappBus imageSize} {r : RamRegion} {width : Width} {offset : U32}
    {val : BitVec width.bits} (inside : b.Inside r offset width.bytes)
    (written : b'.bytes r =
      (b.bytes r).overwrite (offset.toNat - r.base) (val.toLeBytes width.bytes))
    (kept : ∀ r', r' ≠ r → b'.bytes r' = b.bytes r') : b.Patched b' width offset val := by
  intro w o ⟨r', inside'⟩
  refine ⟨_, _, read_region inside', read_region (b := b') inside', fun i low => ?_⟩
  have fits : 8 * (i + 1) ≤ w.bits := by
    rw [w.bits_eq]
    omega
  rw [BitVec.leByte_ofLeBytes _ i fits, BitVec.leByte_ofLeBytes _ i fits, List.getD_eq_getElem?_getD,
    List.getD_eq_getElem?_getD, List.getElem?_slice, List.getElem?_slice, if_pos low, if_pos low]
  by_cases same : r' = r
  · subst same
    have whole := b.regionLen_le r'
    obtain ⟨above, below⟩ := inside
    obtain ⟨above', below'⟩ := inside'
    rw [written, List.getElem?_overwrite, BitVec.length_toLeBytes]
    by_cases here : offset.toNat ≤ o.toNat + i ∧ o.toNat + i < offset.toNat + width.bytes
    · have pos : o.toNat - r'.base + i - (offset.toNat - r'.base) = o.toNat + i - offset.toNat := by
        omega
      rw [if_pos here, if_pos ⟨by omega, by omega, by omega⟩, pos,
        BitVec.getElem?_toLeBytes _ _ _ (by omega)]
      rfl
    · rw [if_neg here, if_neg (by omega)]
  · rw [kept r' same, if_neg (apart inside inside' same low)]

theorem write_eq_store (b : EappBus imageSize) (width : Width) (offset : U32)
    (val : BitVec width.bits) :
    ∃ log, b.write width offset val = ({ b with watchLog := log }).store width offset val := by
  unfold write logWrite
  split
  · split
    · exact ⟨_, rfl⟩
    · exact ⟨b.watchLog, rfl⟩
  · exact ⟨b.watchLog, rfl⟩

theorem bytes_watchLog (b : EappBus imageSize) (log : List WatchHit) (r : RamRegion) :
    ({ b with watchLog := log }).bytes r = b.bytes r := by
  cases r <;> rfl

theorem read_behaves_iff {b : EappBus imageSize} {width : Width} {offset : U32} :
    b.Behaves (.read width offset) ↔ ¬ b.StraddlesAt offset width.bytes := by
  constructor
  · rintro ⟨_, done, _⟩ straddles
    rw [read_straddles straddles] at done
    cases done
  · intro within
    obtain ⟨r, done⟩ := read_total within
    refine ⟨r, done, fun ⟨_, inside⟩ => ?_⟩
    rw [read_region inside] at done
    cases done
    exact ⟨_, rfl⟩

theorem write_behaves_iff {b : EappBus imageSize} {width : Width} {offset : U32}
    {val : BitVec width.bits} :
    b.Behaves (.write width offset val) ↔
      ¬ b.StraddlesAt offset width.bytes ∧ ¬ b.Overruns (.write width offset val) := by
  obtain ⟨log, stored⟩ := b.write_eq_store width offset val
  rw [Behaves, stored]
  constructor
  · rintro ⟨_, _, done, _⟩
    constructor
    · intro straddles
      rw [store_straddles (b := { b with watchLog := log }) val straddles] at done
      cases done
    · intro overruns
      rw [store_overruns (b := { b with watchLog := log }) overruns] at done
      cases done
  · rintro ⟨within, counts⟩
    obtain ⟨b', r, done⟩ := store_total (b := { b with watchLog := log }) val within counts
    refine ⟨b', r, done, fun ⟨region, inside⟩ => ?_⟩
    obtain ⟨_, inside_done, written, kept⟩ := store_region (b := { b with watchLog := log }) val
      inside fun same beyond => counts ⟨same ▸ inside, beyond⟩
    rw [done] at inside_done
    cases inside_done
    simp only [bytes_watchLog] at written kept
    exact ⟨rfl, patched_of_bytes inside written kept⟩

/-- An access comes to an end and does what memory does exactly when it does not run out of the
image or the work RAM, and no counter overflows. -/
theorem behaves_iff (b : EappBus imageSize) (a : BusAccess) :
    b.Behaves a ↔ ¬ b.Straddles a ∧ ¬ b.Overruns a := by
  cases a with
  | read width offset =>
    exact read_behaves_iff.trans ⟨fun within => ⟨within, not_false⟩, And.left⟩
  | write width offset val => exact write_behaves_iff

/-- A word read that begins in the last bytes of the work RAM, and a halfword write over the end
of an image. -/
theorem access_over_the_end :
    ¬ (start (Ram.new 0x200028)).Behaves (.read .word 0x13fffffd) ∧
      ¬ (start (Ram.new 0x200028)).Behaves (.write .half 0x18200027 0x1234) := by
  constructor
  · intro behaves
    exact read_behaves_iff.mp behaves (.inr ⟨by decide, by decide, by decide⟩)
  · intro behaves
    exact (write_behaves_iff.mp behaves).1 (.inl ⟨by decide, by decide, by decide⟩)

end EappBus
end Clicky
