import Clicky.Ide.Effect
import Clicky.Ide.Stream

/-! READ SECTORS: the data register serves the stream the command starts. -/
namespace Clicky
open Outcome

namespace IdeUnit

/-- The buffer holds what is next in the stream, and the medium stands where the buffer ends. -/
structure Serves (u : IdeUnit Mem) (t : Stream) (file : IdeRegs) : Prop where
  state : u.state = .readReady
  data : u.blockdev.data = t.image
  ahead : u.blockdev.pos = t.pos + (512 - u.iobuf.idx)
  inside : u.iobuf.idx < 512
  counted : 1 ≤ u.remainingSectors
  left : t.left = (512 - u.iobuf.idx) + 512 * (u.remainingSectors - 1)
  fits : t.pos + t.left ≤ t.image.length
  buffered : u.iobuf.buf.drop u.iobuf.idx = t.image.slice t.pos (512 - u.iobuf.idx)
  wide : u.cfg.eightbit = false
  file : u.reg.file = file

def Reading (u : IdeUnit Mem) (t : Stream) (file : IdeRegs) : Prop :=
  if t.left = 0 then u.Rests t.image file else u.Serves t file

theorem Reading.serves {u : IdeUnit Mem} {t : Stream} {file : IdeRegs}
    (reading : u.Reading t file) (more : 0 < t.left) : u.Serves t file := by
  have going : ¬ t.left = 0 := by omega
  rwa [Reading, if_neg going] at reading

theorem Reading.rests {u : IdeUnit Mem} {t : Stream} {file : IdeRegs}
    (reading : u.Reading t file) (ended : t.left = 0) : u.Rests t.image file := by
  rwa [Reading, if_pos ended] at reading

theorem Serves.reading {u : IdeUnit Mem} {t : Stream} {file : IdeRegs} (serves : u.Serves t file) :
    u.Reading t file := by
  have inside := serves.inside
  have left := serves.left
  have going : ¬ t.left = 0 := by omega
  rwa [Reading, if_neg going]

theorem serves_of_loaded {u : IdeUnit Mem} {t : Stream} {file : IdeRegs}
    (state : u.state = .readReady) (start : u.iobuf.idx = 0) (data : u.blockdev.data = t.image)
    (pos : u.blockdev.pos = t.pos + 512) (loaded : u.iobuf.buf = t.image.slice t.pos 512)
    (counted : 1 ≤ u.remainingSectors) (left : t.left = 512 * u.remainingSectors)
    (fits : t.pos + t.left ≤ t.image.length) (wide : u.cfg.eightbit = false)
    (regs : u.reg.file = file) : u.Serves t file where
  state := state
  data := data
  ahead := by rw [start]; exact pos
  inside := by rw [start]; decide
  counted := counted
  left := by rw [start]; omega
  fits := fits
  buffered := by rw [start]; exact loaded
  wide := wide
  file := regs

theorem Serves.next {u : IdeUnit Mem} {t : Stream} {file : IdeRegs} (serves : u.Serves t file) :
    u.iobuf.buf[u.iobuf.idx]? = t.image[t.pos]? ∧
      u.iobuf.buf.drop (u.iobuf.idx + 1) = t.image.slice (t.pos + 1) (512 - (u.iobuf.idx + 1)) := by
  have inside := serves.inside
  have left := serves.left
  have fits := serves.fits
  have here : t.pos < t.image.length := by omega
  have stored : u.iobuf.idx < u.iobuf.buf.length := by rw [u.iobuf.sized]; exact inside
  have onward : 512 - u.iobuf.idx = 512 - (u.iobuf.idx + 1) + 1 := by omega
  have buffered := serves.buffered
  rw [List.drop_eq_getElem_cons stored, onward, List.slice_succ here, List.cons.injEq] at buffered
  obtain ⟨byte, rest⟩ := buffered
  refine ⟨?_, rest⟩
  rw [List.getElem?_eq_getElem stored, List.getElem?_eq_getElem here, byte]

theorem Serves.byte {u : IdeUnit Mem} {t : Stream} {file : IdeRegs} (serves : u.Serves t file)
    {b : U8} (get : u.iobuf.buf[u.iobuf.idx]? = some b) : t.image.slice t.pos 1 = [b] := by
  rw [serves.next.1] at get
  obtain ⟨here, byte⟩ := List.getElem?_eq_some_iff.mp get
  rw [List.slice_succ here, List.slice_zero, byte]

theorem Serves.advance {u : IdeUnit Mem} {t : Stream} {file : IdeRegs} (serves : u.Serves t file)
    (room : u.iobuf.idx + 1 < 512) :
    { u with iobuf.idx := u.iobuf.idx + 1 }.Serves (t.skip 1) file where
  state := serves.state
  data := serves.data
  ahead := by
    simp only [Stream.skip, serves.ahead]
    omega
  inside := room
  counted := serves.counted
  left := by
    simp only [Stream.skip, serves.left]
    omega
  fits := by
    have left := serves.left
    have fits := serves.fits
    simp only [Stream.skip]
    omega
  buffered := serves.next.2
  wide := serves.wide
  file := serves.file

end IdeUnit

namespace IdeDrive

theorem loadSector_mem {d : IdeDrive Mem} (inside : d.blockdev.pos + 512 ≤ d.blockdev.data.length) :
    ∃ d', d.loadSector = .ok d' () ∧ d.MediaOnly d' ∧ d'.blockdev.data = d.blockdev.data ∧
      d'.blockdev.pos = d.blockdev.pos + 512 ∧
      d'.iobuf.buf = d.blockdev.data.slice d.blockdev.pos 512 := by
  have all := List.length_slice inside
  refine ⟨{ d with
    blockdev := { d.blockdev with pos := d.blockdev.pos + 512 }
    iobuf := d.iobuf.fill (d.blockdev.data.slice d.blockdev.pos 512) }, ?_,
    ⟨rfl, rfl, rfl, rfl, rfl, rfl, rfl⟩, rfl, rfl, ?_⟩
  · rw [loadSector, Mem.readExact_eq inside]
  · exact List.overwrite_full (all.trans d.iobuf.sized.symm)

theorem loadNext_serves {d : IdeDrive Mem} {t : Stream} {f : IdeRegs}
    (data : d.blockdev.data = t.image) (pos : d.blockdev.pos = t.pos)
    (counted : 1 ≤ d.remainingSectors) (left : t.left = 512 * d.remainingSectors)
    (fits : t.pos + t.left ≤ t.image.length) (wide : d.cfg.eightbit = false)
    (regs : d.reg.file = f) :
    ∃ d', d.loadNext = .ok d' () ∧ d'.toIdeUnit.Serves t f := by
  unfold loadNext
  have inside : d.blockdev.pos + 512 ≤ d.blockdev.data.length := by
    rw [data, pos]
    omega
  obtain ⟨d₁, loaded, media, data₁, pos₁, buf₁⟩ := loadSector_mem (d := { d with
    reg.status := (d.reg.status.setBit Status.DRQ false).setBit Status.BSY true
    state := .readAsyncLoad }) inside
  simp only [loaded, bind_ok]
  refine ⟨_, rfl, ?_⟩
  rw [pulseIrqUnlessDma_unit]
  apply IdeUnit.serves_of_loaded
  · rfl
  · rfl
  · exact data₁.trans data
  · exact pos₁.trans (congrArg (· + 512) pos)
  · rw [← data, ← pos]
    exact buf₁
  · exact media.remainingSectors ▸ counted
  · exact media.remainingSectors ▸ left
  · exact fits
  · exact media.cfg ▸ wide
  · exact (congrArg IdeRegs.file media.reg).trans regs

theorem dataRead8_serves {d : IdeDrive Mem} {t : Stream} {file : IdeRegs} (serves : d.Serves t file) :
    ∃ d' b, d.dataRead8 = .ok d' b ∧ t.image.slice t.pos 1 = [b] ∧ d'.Reading (t.skip 1) file := by
  have inside := serves.inside
  have left := serves.left
  have fits := serves.fits
  have counted := serves.counted
  by_cases room : d.iobuf.idx + 1 < 512
  · obtain ⟨ret, get, read⟩ := dataRead8_inside serves.state room
    exact ⟨_, ret, read, serves.byte get, (serves.advance room).reading⟩
  · obtain ⟨ret, get, read⟩ := dataRead8_end serves.state (by omega)
    have byte := serves.byte get
    rw [read]
    split
    · omega
    · rename_i one
      refine ⟨_, ret, rfl, byte, ?_⟩
      unfold IdeUnit.Reading
      rw [if_pos (by simp only [Stream.skip, left, one]; omega)]
      constructor
      · rfl
      · rfl
      · simp [finishRead, pulseIrq]
      · simp [finishRead, pulseIrq]
      · exact serves.data
      · exact serves.wide
      · exact serves.file
    · rename_i more sectors
      rw [sectors] at left
      have pos : d.blockdev.pos = t.pos + 1 := by
        rw [serves.ahead]
        omega
      obtain ⟨d', loaded, serves'⟩ := loadNext_serves (t := t.skip 1) (f := file)
        (d := { d with iobuf.idx := 512, remainingSectors := more + 1 })
        serves.data pos (Nat.le_add_left ..) (by simp only [Stream.skip]; omega)
        (by simp only [Stream.skip]; omega) serves.wide serves.file
      exact ⟨d', ret, by rw [loaded]; rfl, byte, serves'.reading⟩

theorem dataRead16_serves {d : IdeDrive Mem} {t : Stream} {file : IdeRegs}
    (reading : d.Reading t file) (two : 2 ≤ t.left) :
    ∃ d' w, d.dataRead16 = .ok d' w ∧ t.image.slice t.pos 2 = le16 w ∧
      d'.Reading (t.skip 2) file := by
  have serves := reading.serves (by omega)
  obtain ⟨d₁, lo, read₁, byte₁, reading₁⟩ := dataRead8_serves serves
  have serves₁ := reading₁.serves (by simp only [Stream.skip]; omega)
  obtain ⟨d₂, hi, read₂, byte₂, reading₂⟩ := dataRead8_serves serves₁
  refine ⟨d₂, halfword lo hi, ?_, ?_, ?_⟩
  · simp only [dataRead16, read₁, bind_ok, serves₁.wide, read₂, halfword, Bool.false_eq_true,
      if_false]
  · rw [le16_halfword, ← List.slice_append_slice t.image t.pos 1 1, byte₁]
    simpa [Stream.skip] using byte₂
  · rw [Stream.skip_skip] at reading₂
    exact reading₂

theorem execCmd_readSectors {d : IdeDrive Mem} {lba : Nat} {c : U8}
    (quiet : d.reg.status.getBit Status.BSY = false) (wide : d.cfg.eightbit = false)
    (holds : d.reg.Holds lba c) (onDisk : (lba + sectorsOf c) * 512 ≤ d.blockdev.data.length) :
    ∃ d', d.execCmd 0x20 = .ok d' () ∧
      d'.Serves ⟨d.blockdev.data, 512 * lba, 512 * sectorsOf c⟩ d.reg.file := by
  have offset : ∀ status error, ({ d with reg.status := status, reg.error := error } :
      IdeDrive Mem).getSectorOffset = some lba := by
    intro status error
    exact getSectorOffset_lba (holds.of_file rfl)
  unfold execCmd begin
  rw [if_neg (by simp [quiet])]
  show ∃ d', readSectors _ = _ ∧ _
  unfold readSectors
  rw [offset]
  simp only
  have one := sectors_pos d
  rw [sectors_eq holds] at one
  rw [Nat.add_mul] at onDisk
  have inside : lba * 512 + 512 ≤ d.blockdev.data.length := by omega
  obtain ⟨d₁, loaded, media, data₁, pos₁, buf₁⟩ := loadSector_mem (d := { d with
    blockdev := { d.blockdev with pos := lba * 512 }
    state := .readAsyncLoad
    reg.status := (d.reg.status.setBit Status.BSY true).setBit Status.ERR false
    reg.error := 0 }) inside
  have same_file : d₁.reg.file = d.reg.file := by
    rw [media.reg]
    rfl
  have sectors : d₁.sectors = sectorsOf c := sectors_eq (holds.of_file same_file)
  simp only [seekSector, BlockDev.seek, Mem.seek, bind_ok, loaded]
  refine ⟨_, rfl, ?_⟩
  apply IdeUnit.serves_of_loaded
  · rfl
  · rfl
  · exact data₁
  · exact pos₁.trans (by simp only; omega)
  · rw [Nat.mul_comm]
    exact buf₁
  · exact sectors_pos d₁
  · exact congrArg (512 * ·) sectors.symm
  · simp only
    omega
  · exact media.cfg ▸ wide
  · exact same_file

end IdeDrive

namespace IdeController

theorem readData_serves (n : Nat) {s : IdeController Mem} {d : IdeDrive Mem} {t : Stream}
    {file : IdeRegs} (active : s.Active d) (reading : d.Reading t file) (enough : 2 * n ≤ t.left) :
    ∃ s' d' ws, s.readData n = .ok s' ws ∧ s'.Active d' ∧
      halves ws = t.image.slice t.pos (2 * n) ∧ d'.Reading (t.skip (2 * n)) file := by
  induction n generalizing s d t with
  | zero => exact ⟨s, d, [], rfl, active, by simp, reading⟩
  | succ n ih =>
    obtain ⟨d₁, w, read, bytes, reading₁⟩ := IdeDrive.dataRead16_serves reading (by omega)
    have first : s.read16 .data = .ok (s.putSelected d₁) w := by
      rw [read16, active.onSelected, read]
      rfl
    obtain ⟨s', d', ws, rest, active', more, reading'⟩ :=
      ih (active_putSelected s d₁) reading₁ (by simp only [Stream.skip]; omega)
    refine ⟨s', d', w :: ws, ?_, active', ?_, ?_⟩
    · simp only [readData, first, bind_ok, rest, map_ok]
    · rw [halves_cons, more, ← bytes]
      have split : 2 * (n + 1) = 2 + 2 * n := by omega
      rw [split, ← List.slice_append_slice]
      rfl
    · rw [Stream.skip_skip] at reading'
      have split : 2 * (n + 1) = 2 + 2 * n := by omega
      rw [split]
      exact reading'

theorem readSectors_run {s : IdeController Mem} {d : IdeDrive Mem} {lba : Nat} {c : U8}
    (active : s.Active d) (quiet : d.reg.status.getBit Status.BSY = false)
    (wide : d.cfg.eightbit = false) (holds : d.reg.Holds lba c)
    (onDisk : (lba + sectorsOf c) * 512 ≤ d.blockdev.data.length) :
    ∃ s₁ s₂ d₂ ws, s.write8 .command 0x20 = .ok s₁ () ∧
      s₁.readData (256 * sectorsOf c) = .ok s₂ ws ∧
      halves ws = d.blockdev.data.slice (512 * lba) (512 * sectorsOf c) ∧
      s₂.Active d₂ ∧ d₂.Rests d.blockdev.data d.reg.file := by
  obtain ⟨d₁, started, serves⟩ := IdeDrive.execCmd_readSectors quiet wide holds onDisk
  have command : s.write8 .command 0x20 = .ok (s.putSelected d₁) () := by
    show s.onSelected (fun d => d.execCmd 0x20) = _
    rw [active.onSelected, started]
    rfl
  have halfwords : 2 * (256 * sectorsOf c) = 512 * sectorsOf c := by omega
  obtain ⟨s₂, d₂, ws, read, active₂, bytes, reading⟩ :=
    readData_serves (256 * sectorsOf c) (active_putSelected s d₁) serves.reading
      (by simp only; omega)
  rw [halfwords] at bytes reading
  have rests := reading.rests (by simp only [Stream.skip]; omega)
  exact ⟨_, s₂, d₂, ws, command, read, bytes, active₂, rests⟩

/-- READ SECTORS gives the sectors, in order, and leaves the drive idle and the disk as it was.
The read after that is refused. -/
theorem read_sectors_transfers (s : IdeController Mem) (d : IdeDrive Mem) (lba : Nat) (c : U8)
    (active : s.Active d) (quiet : d.reg.status.getBit Status.BSY = false)
    (wide : d.cfg.eightbit = false) (holds : d.reg.Holds lba c)
    (onDisk : (lba + sectorsOf c) * 512 ≤ d.blockdev.data.length) :
    ∃ s₁ s₂ d₂ ws, s.write8 .command 0x20 = .ok s₁ () ∧
      s₁.readData (256 * sectorsOf c) = .ok s₂ ws ∧
      halves ws = d.blockdev.data.slice (512 * lba) (512 * sectorsOf c) ∧
      s₂.Active d₂ ∧ d₂.Rests d.blockdev.data d.reg.file ∧
      ∃ e, s₂.read16 .data = .raise (s₂.putSelected d₂) e := by
  obtain ⟨s₁, s₂, d₂, ws, command, read, bytes, active₂, rests⟩ :=
    readSectors_run active quiet wide holds onDisk
  refine ⟨s₁, s₂, d₂, ws, command, read, bytes, active₂, rests, ?_⟩
  rw [read16, active₂.onSelected, IdeDrive.dataRead16, IdeDrive.dataRead8_refused rests.state]
  exact ⟨_, rfl⟩

theorem second_sector_reads :
    let u : IdeUnit Mem := { blockdev := Mem.new (List.replicate 1024 0x5a), reg := {
      sectorCount := 1, lba0SectorNo := 1, lba3DevHead := 0xe0, status := 0x50 } }
    let s : IdeController Mem :=
      { commonIrqLine := Line.new .hi, dmarq := Line.new .hi, ide0 := some u }
    ∃ s₁ s₂ d₂ ws, s.write8 .command 0x20 = .ok s₁ () ∧ s₁.readData (256 * sectorsOf 1) = .ok s₂ ws ∧
      halves ws = u.blockdev.data.slice (512 * 1) (512 * sectorsOf 1) ∧
      s₂.Active d₂ ∧ d₂.Rests u.blockdev.data u.reg.file ∧
      ∃ e, s₂.read16 .data = .raise (s₂.putSelected d₂) e := by
  intro u s
  apply read_sectors_transfers s (s.lend u) 1 1
  · exact ⟨rfl, rfl⟩
  · decide
  · rfl
  · constructor <;> decide
  · simp only [s, lend, u, Mem.new, List.length_replicate]
    decide

end IdeController
end Clicky
