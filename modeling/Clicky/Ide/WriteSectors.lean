import Clicky.Ide.ReadSectors

/-! WRITE SECTORS: the disk and the buffer together are the image the stream writes. -/
namespace Clicky
open Outcome

namespace IdeUnit

/-- The image is the disk with the bytes in the buffer already in place. -/
structure Accepts (u : IdeUnit Mem) (t : Stream) (file : IdeRegs) : Prop where
  state : u.state = .writeReady
  image : t.image = u.blockdev.data.overwrite u.blockdev.pos (u.iobuf.buf.take u.iobuf.idx)
  pos : t.pos = u.blockdev.pos + u.iobuf.idx
  inside : u.iobuf.idx < 512
  counted : 1 ≤ u.remainingSectors
  left : t.left = (512 - u.iobuf.idx) + 512 * (u.remainingSectors - 1)
  fits : t.pos + t.left ≤ u.blockdev.data.length
  wide : u.cfg.eightbit = false
  file : u.reg.file = file

def Writing (u : IdeUnit Mem) (t : Stream) (file : IdeRegs) : Prop :=
  if t.left = 0 then u.Rests t.image file else u.Accepts t file

theorem Writing.accepts {u : IdeUnit Mem} {t : Stream} {file : IdeRegs}
    (writing : u.Writing t file) (more : 0 < t.left) : u.Accepts t file := by
  have going : ¬ t.left = 0 := by omega
  rwa [Writing, if_neg going] at writing

theorem Writing.rests {u : IdeUnit Mem} {t : Stream} {file : IdeRegs}
    (writing : u.Writing t file) (ended : t.left = 0) : u.Rests t.image file := by
  rwa [Writing, if_pos ended] at writing

theorem Accepts.writing {u : IdeUnit Mem} {t : Stream} {file : IdeRegs} (accepts : u.Accepts t file) :
    u.Writing t file := by
  have inside := accepts.inside
  have left := accepts.left
  have going : ¬ t.left = 0 := by omega
  rwa [Writing, if_neg going]

theorem accepts_of_empty {u : IdeUnit Mem} {t : Stream} {file : IdeRegs}
    (state : u.state = .writeReady) (start : u.iobuf.idx = 0) (data : u.blockdev.data = t.image)
    (pos : u.blockdev.pos = t.pos) (counted : 1 ≤ u.remainingSectors)
    (left : t.left = 512 * u.remainingSectors) (fits : t.pos + t.left ≤ t.image.length)
    (wide : u.cfg.eightbit = false) (regs : u.reg.file = file) : u.Accepts t file where
  state := state
  image := by rw [start, List.take_zero, List.overwrite_nil, data]
  pos := by rw [start, pos]; rfl
  inside := by rw [start]; decide
  counted := counted
  left := by rw [start]; omega
  fits := by rw [data]; exact fits
  wide := wide
  file := regs

theorem Accepts.image_put {u : IdeUnit Mem} {t : Stream} {file : IdeRegs}
    (accepts : u.Accepts t file) (val : U8) :
    (t.put [val]).image = u.blockdev.data.overwrite u.blockdev.pos
      ((u.iobuf.put val).buf.take (u.iobuf.idx + 1)) := by
  have inside := accepts.inside
  have pos := accepts.pos
  have stored : u.iobuf.idx < u.iobuf.buf.length := by rw [u.iobuf.sized]; exact inside
  have taken : (u.iobuf.buf.set u.iobuf.idx val).take (u.iobuf.idx + 1) =
      u.iobuf.buf.take u.iobuf.idx ++ [val] := by
    rw [List.take_succ_eq_append_getElem (by rw [List.length_set]; exact stored),
      List.getElem_set_self, List.take_set_of_le (Nat.le_refl _)]
  have start : t.pos = u.blockdev.pos + (u.iobuf.buf.take u.iobuf.idx).length := by
    rw [pos, List.length_take]
    omega
  rw [Stream.put, accepts.image, start, List.overwrite_overwrite]
  exact congrArg (u.blockdev.data.overwrite u.blockdev.pos) taken.symm

theorem Accepts.advance {u : IdeUnit Mem} {t : Stream} {file : IdeRegs} (accepts : u.Accepts t file)
    (room : u.iobuf.idx + 1 < 512) (val : U8) :
    { u with iobuf := u.iobuf.put val }.Accepts (t.put [val]) file where
  state := accepts.state
  image := accepts.image_put val
  pos := by
    simp only [Stream.put, List.length_singleton, IdeIoBuf.put, accepts.pos]
    omega
  inside := room
  counted := accepts.counted
  left := by
    simp only [Stream.put, List.length_singleton, IdeIoBuf.put, accepts.left]
    omega
  fits := by
    have left := accepts.left
    have fits := accepts.fits
    simp only [Stream.put, List.length_singleton]
    omega
  wide := accepts.wide
  file := accepts.file

end IdeUnit

namespace IdeDrive

theorem storeSector_mem {d : IdeDrive Mem} (inside : d.blockdev.pos + 512 ≤ d.blockdev.data.length) :
    ∃ d', d.storeSector = .ok d' () ∧ d.MediaOnly d' ∧ d'.iobuf = d.iobuf ∧
      d'.blockdev.data = d.blockdev.data.overwrite d.blockdev.pos d.iobuf.buf ∧
      d'.blockdev.pos = d.blockdev.pos + 512 := by
  have room : d.blockdev.pos + d.iobuf.buf.length ≤ d.blockdev.data.length := by
    rw [d.iobuf.sized]
    exact inside
  obtain ⟨m, wrote, data, pos⟩ := Mem.writeAll_eq room
  rw [d.iobuf.sized] at pos
  refine ⟨{ d with blockdev := m }, ?_, ⟨rfl, rfl, rfl, rfl, rfl, rfl, rfl⟩, rfl, data, pos⟩
  rw [storeSector, wrote]

theorem finishSector_writing {d : IdeDrive Mem} {t : Stream} {f : IdeRegs}
    (data : d.blockdev.data = t.image) (pos : d.blockdev.pos = t.pos)
    (counted : 1 ≤ d.remainingSectors) (left : t.left = 512 * (d.remainingSectors - 1))
    (fits : t.pos + t.left ≤ t.image.length) (wide : d.cfg.eightbit = false)
    (regs : d.reg.file = f) :
    ∃ d', d.finishSector = .ok d' () ∧ d'.toIdeUnit.Writing t f := by
  by_cases one : d.remainingSectors = 1
  · obtain ⟨irq, finished⟩ := finishSector_last one
    refine ⟨_, finished, ?_⟩
    unfold IdeUnit.Writing
    rw [if_pos (by omega)]
    constructor
    · rfl
    · rfl
    · simp [requesting]
    · simp
    · exact data
    · exact wide
    · exact regs
  · obtain ⟨irq, finished⟩ := finishSector_more (d := d) (by omega)
    refine ⟨_, finished, ?_⟩
    apply IdeUnit.Accepts.writing
    apply IdeUnit.accepts_of_empty
    · rfl
    · rfl
    · exact data
    · exact pos
    · simp only
      omega
    · exact left
    · exact fits
    · exact wide
    · exact regs

theorem dataWrite8_accepts {d : IdeDrive Mem} {t : Stream} {file : IdeRegs}
    (accepts : d.Accepts t file) (val : U8) :
    ∃ d', d.dataWrite8 val = .ok d' () ∧ d'.toIdeUnit.Writing (t.put [val]) file := by
  by_cases room : d.iobuf.idx + 1 < 512
  · exact ⟨_, dataWrite8_inside accepts.state room val, (accepts.advance room val).writing⟩
  · have inside := accepts.inside
    have left := accepts.left
    have fits := accepts.fits
    have counted := accepts.counted
    have pos := accepts.pos
    have last : d.iobuf.idx = 511 := by omega
    have image := accepts.image_put val
    have whole : (d.iobuf.put val).buf.take (d.iobuf.idx + 1) = (d.iobuf.put val).buf := by
      apply List.take_of_length_le
      rw [(d.iobuf.put val).sized, last]
    rw [whole] at image
    have len : (t.put [val]).image.length = d.blockdev.data.length := by
      rw [image, List.length_overwrite]
    rw [dataWrite8_end accepts.state last, if_neg (by omega)]
    obtain ⟨d₁, wrote, media, iobuf, data₁, pos₁⟩ := storeSector_mem (d := { d with
      iobuf := d.iobuf.put val
      reg.status := (d.reg.status.setBit Status.DRQ false).setBit Status.BSY true
      state := .writeAsyncFlush }) (by simp only; omega)
    obtain ⟨d', finished, writing⟩ := finishSector_writing (d := d₁) (t := t.put [val])
      (f := file) (data₁.trans image.symm)
      (pos₁.trans (by simp only [Stream.put, List.length_singleton]; omega))
      (by rw [media.remainingSectors]; exact counted)
      (by rw [media.remainingSectors]; simp only [Stream.put, List.length_singleton]; omega)
      (by rw [len]; simp only [Stream.put, List.length_singleton]; omega)
      (by rw [media.cfg]; exact accepts.wide)
      ((congrArg IdeRegs.file media.reg).trans accepts.file)
    refine ⟨d', ?_, writing⟩
    rw [wrote]
    exact finished

theorem dataWrite16_accepts {d : IdeDrive Mem} {t : Stream} {file : IdeRegs}
    (writing : d.Writing t file) (two : 2 ≤ t.left) (w : U16) :
    ∃ d', d.dataWrite16 w = .ok d' () ∧ d'.toIdeUnit.Writing (t.put (le16 w)) file := by
  have accepts := writing.accepts (by omega)
  obtain ⟨d₁, wrote₁, writing₁⟩ := dataWrite8_accepts accepts (w.setWidth 8)
  have accepts₁ := writing₁.accepts (by simp only [Stream.put, List.length_singleton]; omega)
  obtain ⟨d₂, wrote₂, writing₂⟩ := dataWrite8_accepts accepts₁ ((w >>> 8).setWidth 8)
  refine ⟨d₂, ?_, ?_⟩
  · simp only [dataWrite16, accepts.wide, wrote₁, bind_ok, wrote₂, Bool.false_eq_true, if_false]
  · rw [Stream.put_put] at writing₂
    exact writing₂

theorem execCmd_writeSectors {d : IdeDrive Mem} {lba : Nat} {c : U8}
    (quiet : d.reg.status.getBit Status.BSY = false) (wide : d.cfg.eightbit = false)
    (holds : d.reg.Holds lba c) (onDisk : (lba + sectorsOf c) * 512 ≤ d.blockdev.data.length) :
    ∃ d', d.execCmd 0x30 = .ok d' () ∧
      d'.Accepts ⟨d.blockdev.data, 512 * lba, 512 * sectorsOf c⟩ d.reg.file := by
  have offset : ∀ status error, ({ d with reg.status := status, reg.error := error } :
      IdeDrive Mem).getSectorOffset = some lba := by
    intro status error
    exact getSectorOffset_lba (holds.of_file rfl)
  unfold execCmd begin
  rw [if_neg (by simp [quiet])]
  show ∃ d', writeSectors _ = _ ∧ _
  unfold writeSectors
  rw [offset]
  simp only [seekSector, BlockDev.seek, Mem.seek, bind_ok]
  refine ⟨_, rfl, ?_⟩
  have sectors : d.sectors = sectorsOf c := sectors_eq holds
  apply IdeUnit.accepts_of_empty
  · rfl
  · rfl
  · rfl
  · exact Nat.mul_comm ..
  · exact sectors_pos d
  · exact congrArg (512 * ·) sectors.symm
  · rw [Nat.add_mul] at onDisk
    simp only
    omega
  · exact wide
  · rfl

end IdeDrive

namespace IdeController

theorem writeData_accepts (ws : List U16) {s : IdeController Mem} {d : IdeDrive Mem} {t : Stream}
    {file : IdeRegs} (active : s.Active d) (writing : d.Writing t file)
    (enough : 2 * ws.length ≤ t.left) :
    ∃ s' d', s.writeData ws = .ok s' () ∧ s'.Active d' ∧
      d'.toIdeUnit.Writing (t.put (halves ws)) file := by
  induction ws generalizing s d t with
  | nil => exact ⟨s, d, rfl, active, by rw [halves_nil, Stream.put_nil]; exact writing⟩
  | cons w ws ih =>
    rw [List.length_cons] at enough
    obtain ⟨d₁, wrote, writing₁⟩ := IdeDrive.dataWrite16_accepts writing (by omega) w
    have first : s.write16 .data w = .ok (s.putSelected d₁) () := by
      rw [write16, active.onSelected, wrote]
      rfl
    obtain ⟨s', d', rest, active', writing'⟩ :=
      ih (active_putSelected s d₁) writing₁ (by simp only [Stream.put, length_le16]; omega)
    refine ⟨s', d', ?_, active', ?_⟩
    · simp only [writeData, first, bind_ok, rest]
    · rw [Stream.put_put] at writing'
      rw [halves_cons]
      exact writing'

/-- WRITE SECTORS and the halfwords it asks for: they are on the disk, in order, nothing else on
it has changed, and reading the same sectors back gives them again. -/
theorem write_sectors_stores (s : IdeController Mem) (d : IdeDrive Mem) (lba : Nat) (c : U8)
    (ws : List U16) (active : s.Active d) (quiet : d.reg.status.getBit Status.BSY = false)
    (wide : d.cfg.eightbit = false) (holds : d.reg.Holds lba c)
    (onDisk : (lba + sectorsOf c) * 512 ≤ d.blockdev.data.length)
    (all : ws.length = 256 * sectorsOf c) :
    ∃ s₁ s₂ d₂, s.write8 .command 0x30 = .ok s₁ () ∧ s₁.writeData ws = .ok s₂ () ∧
      s₂.Active d₂ ∧
      d₂.Rests (d.blockdev.data.overwrite (512 * lba) (halves ws)) d.reg.file ∧
      ∃ s₃ s₄, s₂.write8 .command 0x20 = .ok s₃ () ∧
        s₃.readData (256 * sectorsOf c) = .ok s₄ ws := by
  obtain ⟨d₁, started, accepts⟩ := IdeDrive.execCmd_writeSectors quiet wide holds onDisk
  have command : s.write8 .command 0x30 = .ok (s.putSelected d₁) () := by
    show s.onSelected (fun d => d.execCmd 0x30) = _
    rw [active.onSelected, started]
    rfl
  have bytes : (halves ws).length = 512 * sectorsOf c := by
    rw [length_halves, all]
    omega
  obtain ⟨s₂, d₂, wrote, active₂, writing⟩ :=
    writeData_accepts ws (active_putSelected s d₁) accepts.writing (by simp only; omega)
  have rests := writing.rests (by simp only [Stream.put]; omega)
  refine ⟨_, s₂, d₂, command, wrote, active₂, rests, ?_⟩
  have onDisk₂ : (lba + sectorsOf c) * 512 ≤ d₂.blockdev.data.length := by
    rw [rests.data, Stream.put, List.length_overwrite]
    exact onDisk
  obtain ⟨s₃, s₄, d₄, ws', again, read, same, _⟩ := readSectors_run active₂ rests.busy rests.wide
    (holds.of_file rests.file) onDisk₂
  refine ⟨s₃, s₄, again, ?_⟩
  rw [read]
  have back : halves ws' = halves ws := by
    rw [same, rests.data, Stream.put]
    simp only
    rw [← bytes]
    apply List.slice_overwrite
    rw [Nat.add_mul] at onDisk
    omega
  rw [halves_injective back]

theorem second_sector_stores :
    let u : IdeUnit Mem := { blockdev := Mem.new (List.replicate 1024 0x5a), reg := {
      sectorCount := 1, lba0SectorNo := 1, lba3DevHead := 0xe0, status := 0x50 } }
    let s : IdeController Mem :=
      { commonIrqLine := Line.new .hi, dmarq := Line.new .hi, ide0 := some u }
    let ws : List U16 := List.replicate 256 0xbeef
    ∃ s₁ s₂ d₂, s.write8 .command 0x30 = .ok s₁ () ∧ s₁.writeData ws = .ok s₂ () ∧
      s₂.Active d₂ ∧ d₂.Rests (u.blockdev.data.overwrite (512 * 1) (halves ws)) u.reg.file ∧
      ∃ s₃ s₄, s₂.write8 .command 0x20 = .ok s₃ () ∧
        s₃.readData (256 * sectorsOf 1) = .ok s₄ ws := by
  intro u s ws
  apply write_sectors_stores s (s.lend u) 1 1
  · exact ⟨rfl, rfl⟩
  · decide
  · rfl
  · constructor <;> decide
  · simp only [s, lend, u, Mem.new, List.length_replicate]
    decide
  · simp only [ws, List.length_replicate]
    decide

end IdeController
end Clicky
