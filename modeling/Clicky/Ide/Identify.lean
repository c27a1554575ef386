import Clicky.Memory

/-! The block of data an IDE drive describes itself with. -/
namespace Clicky

def numHeads : Nat := 16
def numSectors : Nat := 63

def ascii (text : String) : List U8 := text.toList.map fun c => BitVec.ofNat 8 c.toNat

structure IdeDriveMeta where
  totalSectors : Nat
  cylinders : U16
  heads : U16
  sectors : U16
  serial : List U8
  fwVersion : List U8
  model : List U8

/-- Text in a field of `n` bytes, padded with spaces, each pair of bytes swapped. -/
def padAscii (n : Nat) (src : List U8) : List U8 :=
  (List.range n).map fun i => (src[i ^^^ 1]?).getD 0x20

def le16 (v : U16) : List U8 := [v.setWidth 8, (v >>> 8).setWidth 8]
def le32 (v : U32) : List U8 := le16 (v.setWidth 16) ++ le16 ((v >>> 16).setWidth 16)
def zeroBytes (n : Nat) : List U8 := List.replicate n 0

/-- The bytes of `to_hd_driveid`, whose struct is packed. -/
def IdeDriveMeta.toHdDriveid (m : IdeDriveMeta) : List U8 :=
  let capacity : U32 := m.cylinders.setWidth 32 * m.heads.setWidth 32 * m.sectors.setWidth 32
  List.flatten [
    le16 0x0040, le16 m.cylinders, le16 0, le16 m.heads, -- config, cyls, reserved2, heads
    le16 (m.sectors * 512), le16 512, le16 m.sectors,    -- track_bytes, sector_bytes, sectors
    zeroBytes 6, padAscii 20 m.serial,                   -- vendor0 to vendor2, serial_no
    le16 0, le16 0, le16 4,                              -- buf_type, buf_size, ecc_bytes
    padAscii 8 m.fwVersion, padAscii 40 m.model,         -- fw_rev, model
    [1, 0], le16 0, [0, 7], le16 0,                      -- max_multsect, dword_io, capability
    [0, 2], [0, 2], le16 3,                              -- tPIO, tDMA, field_valid
    le16 m.cylinders, le16 m.heads, le16 m.sectors,      -- cur_cyls, cur_heads, cur_sectors
    le16 (capacity.setWidth 16), le16 ((capacity >>> 16).setWidth 16),
    [0, 0], le32 (BitVec.ofNat 32 m.totalSectors),       -- multsect, lba_capacity
    le16 7, le16 7, le16 7,                              -- dma_1word, dma_mword, eide_pio_modes
    le16 120, le16 120, le16 120, le16 120,              -- eide_dma_min to eide_pio_iordy
    zeroBytes 374]                                       -- words 69 to 255

@[simp] theorem length_padAscii (n : Nat) (src : List U8) : (padAscii n src).length = n := by
  simp [padAscii]

@[simp] theorem length_le16 (v : U16) : (le16 v).length = 2 := rfl
@[simp] theorem length_le32 (v : U32) : (le32 v).length = 4 := rfl
@[simp] theorem length_zeroBytes (n : Nat) : (zeroBytes n).length = n := List.length_replicate

theorem length_toHdDriveid (m : IdeDriveMeta) : m.toHdDriveid.length = 512 := by
  simp only [IdeDriveMeta.toHdDriveid, List.length_flatten, List.map_cons, List.map_nil,
    length_le16, length_le32, length_padAscii, length_zeroBytes, List.length_cons, List.length_nil]
  decide

def driveMeta (len : Nat) : IdeDriveMeta where
  totalSectors := len / 512
  cylinders := BitVec.ofNat 16 (len / (numHeads * numSectors * 512))
  heads := BitVec.ofNat 16 numHeads
  sectors := BitVec.ofNat 16 numSectors
  serial := ascii "serials_are_4_chumps"
  fwVersion := ascii "0"
  model := ascii "clickydrive"

end Clicky
