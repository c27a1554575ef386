import Clicky.Ide.WriteSectors
import Clicky.Ide.Request
import Clicky.Ide.Interrupt

/-! The two signals of a DMA transfer: the request, which is up as long as there is something to
move, and the interrupt. -/
namespace Clicky
open Outcome Runs

inductive Direction where
  | read | write
  deriving DecidableEq, Repr

/-- `ReadDMA` and `WriteDMA`, each with its twin without retry. -/
def Direction.StartedBy (cmd : U8) : Direction → Prop
  | .read => cmd = 0xc8 ∨ cmd = 0xc9
  | .write => cmd = 0xca ∨ cmd = 0xcb

/-- The commands these go on as. -/
def Direction.pio : Direction → U8
  | .read => 0x20
  | .write => 0x30

namespace IdeAccess

/-- A halfword goes through the data register. -/
def moves : Direction → IdeAccess → Bool
  | .read, .read16 .data => true
  | .write, .write16 .data _ => true
  | _, _ => false

/-- Another register, and no command. -/
def aside : IdeAccess → Bool
  | .read8 reg | .read16 reg => reg ≠ .data
  | .write8 reg _ | .write16 reg _ => reg ≠ .data && !reg.isCommand

theorem moves_read {a : IdeAccess} : a.moves .read = true ↔ a = .read16 .data := by
  rcases a with reg | reg | ⟨reg, val⟩ | ⟨reg, val⟩ <;> cases reg <;> simp [moves]

theorem moves_write {a : IdeAccess} : a.moves .write = true ↔ ∃ w, a = .write16 .data w := by
  rcases a with reg | reg | ⟨reg, val⟩ | ⟨reg, val⟩ <;> cases reg <;> simp [moves]

theorem aside_write {reg : IdeReg} :
    (decide (reg ≠ .data) && !reg.isCommand) = true ↔ reg ≠ .data ∧ reg.isCommand = false := by
  simp

end IdeAccess

/-- The accesses that move what is left of a transfer, `n` halfwords, and that end with the last of
them. In between the guest may use the other registers, and those of the other drive. -/
inductive Moves (dir : Direction) (drive : IdeIdx) : IdeIdx → Nat → List IdeAccess → Prop where
  | done : Moves dir drive drive 0 []
  | halfword {n : Nat} {a : IdeAccess} {as : List IdeAccess} (moves : a.moves dir = true)
      (rest : Moves dir drive drive n as) : Moves dir drive drive (n + 1) (a :: as)
  | aside {sel : IdeIdx} {n : Nat} {a : IdeAccess} {as : List IdeAccess} (more : 0 < n)
      (aside : a.aside = true) (rest : Moves dir drive (a.selects sel) n as) :
      Moves dir drive sel n (a :: as)

theorem Moves.nil_iff {dir : Direction} {drive sel : IdeIdx} {n : Nat} {as : List IdeAccess}
    (moves : Moves dir drive sel n as) : as = [] ↔ n = 0 := by
  cases moves with
  | done => simp
  | halfword _ _ => simp
  | aside more _ _ => simpa using Nat.ne_of_gt more

theorem moves_replicate {dir : Direction} {drive : IdeIdx} {a : IdeAccess}
    (moves : a.moves dir = true) (n : Nat) : Moves dir drive drive n (List.replicate n a) := by
  induction n with
  | zero => exact .done
  | succ n ih => exact .halfword moves ih

namespace IdeDrive

variable {β : Type} {d : IdeDrive β}

/-- In DMA mode, with the request up exactly as long as the drive has something to do. -/
structure Dma (d : IdeDrive β) : Prop where
  mode : d.cfg.transferMode.isDma = true
  request : d.dmarq.ownSignal = true ↔ d.state ≠ .idle

theorem Dma.step {d' : IdeDrive β} (dma : d.Dma) (step : d.Requests d') : d'.Dma := by
  have mode : d'.cfg.transferMode.isDma = true := by
    rw [step.setUp.cfg]
    exact dma.mode
  cases step with
  | kept _ dmarq idle =>
    refine ⟨mode, ?_⟩
    rw [dmarq, ne_eq, idle]
    exact dma.request
  | ended _ dmarq state =>
    refine ⟨mode, ?_⟩
    rw [dmarq, Line.clear_ownSignal]
    exact iff_of_false Bool.false_ne_true (not_not_intro state)

theorem Dma.sectorInterrupts (dma : d.Dma) : d.SectorInterrupts ↔ d.remainingSectors = 1 := by
  simp [SectorInterrupts, dma.mode]

end IdeDrive

/-- The stream of either direction. -/
def IdeUnit.Streams (u : IdeUnit Mem) (t : Stream) (file : IdeRegs) : Direction → Prop
  | .read => u.Reading t file
  | .write => u.Writing t file

/-- A DMA transfer with `left` bytes to go. -/
structure IdeDrive.Carries (d : IdeDrive Mem) (dir : Direction) (left : Nat) : Prop where
  streams : ∃ t file, d.Streams t file dir ∧ t.left = left
  dma : d.Dma

namespace IdeDrive

variable {d : IdeDrive Mem} {dir : Direction} {left : Nat}

theorem Carries.idle_iff (carries : d.Carries dir left) : d.state = .idle ↔ left = 0 := by
  obtain ⟨⟨t, file, streams, rfl⟩, _⟩ := carries
  cases dir with
  | read =>
    by_cases ended : t.left = 0
    · exact iff_of_true (IdeUnit.Reading.rests streams ended).state ended
    · have serves := IdeUnit.Reading.serves streams (by omega)
      exact iff_of_false (by simp [serves.state]) ended
  | write =>
    by_cases ended : t.left = 0
    · exact iff_of_true (IdeUnit.Writing.rests streams ended).state ended
    · have accepts := IdeUnit.Writing.accepts streams (by omega)
      exact iff_of_false (by simp [accepts.state]) ended

theorem Carries.request (carries : d.Carries dir left) : d.dmarq.ownSignal = true ↔ left ≠ 0 :=
  carries.dma.request.trans (not_congr carries.idle_iff)

theorem dataRead16_carries (carries : d.Carries .read left) (two : 2 ≤ left) :
    (d.EndsRead d.width ↔ left = 2) ∧
      ∃ d' w, d.dataRead16 = .ok d' w ∧ d'.Carries .read (left - 2) := by
  obtain ⟨⟨t, file, streams, rfl⟩, dma⟩ := carries
  have serves := IdeUnit.Reading.serves streams (by omega)
  have counted := serves.counted
  have bytes := serves.left
  obtain ⟨d', w, read, _, reading⟩ := dataRead16_serves streams two
  refine ⟨⟨fun can => ?_, fun last => ?_⟩, d', w, read, ⟨_, _, reading, rfl⟩, ?_⟩
  · have one := dma.sectorInterrupts.mp can.interrupts
    have ends := can.ends
    rw [width, if_neg (by simp [serves.wide])] at ends
    omega
  · have one : d.remainingSectors = 1 := by omega
    refine ⟨serves.state, serves.inside, ?_, dma.sectorInterrupts.mpr one, fun more => by omega⟩
    rw [width, if_neg (by simp [serves.wide])]
    omega
  · have after := dataRead16_leaves (fun _ _ dma step => Dma.step dma step) dma
    rwa [read, leaves_done] at after

theorem dataWrite16_carries (carries : d.Carries .write left) (two : 2 ≤ left) (w : U16) :
    (d.EndsWrite16 w ↔ left = 2) ∧
      ∃ d', d.dataWrite16 w = .ok d' () ∧ d'.Carries .write (left - 2) := by
  obtain ⟨⟨t, file, streams, rfl⟩, dma⟩ := carries
  have accepts := IdeUnit.Writing.accepts streams (by omega)
  have counted := accepts.counted
  have bytes := accepts.left
  have pair : d.halfwordBytes w = [w.setWidth 8, (w >>> 8).setWidth 8] :=
    if_neg (by simp [accepts.wide])
  obtain ⟨d', written, writing⟩ := dataWrite16_accepts streams two w
  refine ⟨⟨fun can => ?_, fun last => ?_⟩, d', written, ⟨_, _, writing, ?_⟩, ?_⟩
  · have one := dma.sectorInterrupts.mp can.2.interrupts
    have ends := can.2.ends
    rw [pair, List.length_cons, List.length_singleton] at ends
    omega
  · have one : d.remainingSectors = 1 := by omega
    have writable := ((dataWrite16_ok_iff d w).mp ⟨d', (), written⟩).2
    have room := writable.room
    have ends : 512 ≤ d.iobuf.idx + (d.halfwordBytes w).length := by
      rw [pair, List.length_cons, List.length_singleton]
      omega
    have flush : d.Flushes (d.halfwordBytes w) := by
      rcases room with short | ⟨_, flush⟩
      · omega
      · exact flush
    exact ⟨by simp [accepts.wide], accepts.state, accepts.inside, ends,
      dma.sectorInterrupts.mpr one, flush⟩
  · rw [Stream.put, length_le16]
  · have after := dataWrite16_leaves (fun _ _ dma step => Dma.step dma step) dma w
    rwa [written, leaves_done] at after

/-- The drive as a DMA command hands it on to the one it goes on as. -/
def requested (d : IdeDrive Mem) : IdeDrive Mem :=
  ({ d with
    dmarq := d.dmarq.assert
    reg.status := (d.reg.status.setBit Status.BSY true).setBit Status.ERR false
    reg.error := 0 } : IdeDrive Mem).ready

theorem execCmd_redirects {cmd : U8} (starts : dir.StartedBy cmd)
    (quiet : d.reg.status.getBit Status.BSY = false) (mode : d.cfg.transferMode.isDma = true) :
    d.execCmd cmd = d.requested.execCmd dir.pio := by
  unfold execCmd
  rw [begin, if_neg (by simp [quiet])]
  cases dir with
  | read =>
    rcases starts with rfl | rfl
    · show readDMA _ = _
      rw [readDMA, dma, if_neg (by simp [mode])]
      rfl
    · show readDMA _ = _
      rw [readDMA, dma, if_neg (by simp [mode])]
      rfl
  | write =>
    rcases starts with rfl | rfl
    · show writeDMA _ = _
      rw [writeDMA, dma, if_neg (by simp [mode])]
      rfl
    · show writeDMA _ = _
      rw [writeDMA, dma, if_neg (by simp [mode])]
      rfl

theorem requested_starts (d : IdeDrive Mem) (dir : Direction) :
    (d.requested.execCmd dir.pio).Leaves d.requested.Starts := by
  refine begin_leaves ⟨⟨rfl, rfl⟩, rfl⟩ ?_
  cases dir with
  | read =>
    show (readSectors _).Leaves _
    exact (readSectors_starts _).mono fun _ h => ⟨⟨h.1.cfg, h.1.nein⟩, h.2⟩
  | write =>
    show (writeSectors _).Leaves _
    exact (writeSectors_starts _).mono fun _ h => ⟨⟨h.1.cfg, h.1.nein⟩, h.2⟩

theorem execCmd_carries {cmd : U8} {lba : Nat} {c : U8} (starts : dir.StartedBy cmd)
    (quiet : d.reg.status.getBit Status.BSY = false) (wide : d.cfg.eightbit = false)
    (mode : d.cfg.transferMode.isDma = true) (holds : d.reg.Holds lba c)
    (onDisk : (lba + sectorsOf c) * 512 ≤ d.blockdev.data.length) :
    ∃ d', d.execCmd cmd = .ok d' () ∧ d'.Carries dir (512 * sectorsOf c) := by
  have frame := requested_starts d dir
  have idle : d.requested.reg.status.getBit Status.BSY = false := by simp [requested, ready]
  have same : d.requested.reg.Holds lba c := holds.of_file rfl
  rw [execCmd_redirects starts quiet mode]
  cases dir with
  | read =>
    obtain ⟨d', started, serves⟩ := execCmd_readSectors (d := d.requested) idle wide same onDisk
    rw [Direction.pio, started, leaves_done] at frame
    refine ⟨d', started, ⟨_, _, serves.reading, rfl⟩, by rw [frame.1.cfg]; exact mode, ?_⟩
    rw [frame.2]
    exact iff_of_true (Line.assert_ownSignal _) (by simp [serves.state])
  | write =>
    obtain ⟨d', started, accepts⟩ := execCmd_writeSectors (d := d.requested) idle wide same onDisk
    rw [Direction.pio, started, leaves_done] at frame
    refine ⟨d', started, ⟨_, _, accepts.writing, rfl⟩, by rw [frame.1.cfg]; exact mode, ?_⟩
    rw [frame.2]
    exact iff_of_true (Line.assert_ownSignal _) (by simp [accepts.state])

theorem seeks_mem {lba : Nat} {c : U8} (holds : d.reg.Holds lba c) : d.Seeks :=
  ⟨lba, _, getSectorOffset_lba holds, rfl⟩

theorem seeksSector_mem {lba : Nat} {c : U8} (holds : d.reg.Holds lba c)
    (onDisk : (lba + sectorsOf c) * 512 ≤ d.blockdev.data.length) : d.SeeksSector := by
  refine ⟨lba, _, getSectorOffset_lba holds, rfl, ?_⟩
  have one := sectors_pos d
  rw [sectors_eq holds] at one
  rw [Nat.add_mul] at onDisk
  have inside : lba * 512 + 512 ≤ d.blockdev.data.length := by omega
  exact congrArg (fun ended => ended.2.2)
    (Mem.readExact_eq (m := { d.blockdev with pos := lba * 512 }) inside)

/-- The commands interrupt at once: that is how the ones they go on as begin. -/
theorem commandInterrupts_dma {cmd : U8} {lba : Nat} {c : U8} (starts : dir.StartedBy cmd)
    (quiet : d.reg.status.getBit Status.BSY = false) (mode : d.cfg.transferMode.isDma = true)
    (holds : d.reg.Holds lba c) (onDisk : (lba + sectorsOf c) * 512 ≤ d.blockdev.data.length) :
    d.CommandInterrupts cmd := by
  refine ⟨quiet, ?_⟩
  cases dir with
  | read => rcases starts with rfl | rfl <;> exact ⟨mode, seeksSector_mem holds onDisk⟩
  | write => rcases starts with rfl | rfl <;> exact ⟨mode, seeks_mem holds⟩

end IdeDrive

/-- Only the interrupt line changes and the registers, and of those not the status. -/
def IdeDrive.Aside {β : Type} (d d' : IdeDrive β) : Prop :=
  ∃ reg irq, d' = { d with reg, irq } ∧ reg.status = d.reg.status

namespace IdeDrive

variable {d : IdeDrive Mem} {dir : Direction} {left : Nat}

theorem read8_aside {β : Type} [BlockDev β] (d : IdeDrive β) {reg : IdeReg} (other : reg ≠ .data) :
    (d.read8 reg).Ensures fun d' _ => d.Aside d' := by
  cases reg with
  | data => exact absurd rfl other
  | _ => exact ⟨_, _, rfl, rfl⟩

theorem write8_aside {β : Type} [BlockDev β] (d : IdeDrive β) {reg : IdeReg} (other : reg ≠ .data)
    (plain : reg.isCommand = false) (val : U8) :
    (d.write8 val reg).Ensures fun d' _ => d.Aside d' := by
  cases reg with
  | data => exact absurd rfl other
  | command => cases plain
  | status => cases plain
  | _ => exact ⟨_, _, rfl, rfl⟩

theorem Carries.aside {d' : IdeDrive Mem} (carries : d.Carries dir left) (more : 0 < left)
    (aside : d.Aside d') : d'.Carries dir left := by
  obtain ⟨reg, irq, rfl, _⟩ := aside
  obtain ⟨⟨t, file, streams, rfl⟩, dma⟩ := carries
  refine ⟨⟨t, reg.file, ?_, rfl⟩, dma.mode, dma.request⟩
  cases dir with
  | read =>
    have serves := IdeUnit.Reading.serves streams more
    exact IdeUnit.Serves.reading ⟨serves.state, serves.data, serves.ahead, serves.inside,
      serves.counted, serves.left, serves.fits, serves.buffered, serves.wide, rfl⟩
  | write =>
    have accepts := IdeUnit.Writing.accepts streams more
    exact IdeUnit.Accepts.writing ⟨accepts.state, accepts.image, accepts.pos, accepts.inside,
      accepts.counted, accepts.left, accepts.fits, accepts.wide, rfl⟩

theorem interrupts_aside {β : Type} [BlockDev β] {d : IdeDrive β} {a : IdeAccess}
    (aside : a.aside = true) : ¬ d.Interrupts a := by
  rcases a with reg | reg | ⟨reg, val⟩ | ⟨reg, val⟩ <;> cases reg <;>
    first | exact id | cases aside

end IdeDrive

namespace IdeController

variable {s : IdeController Mem} {drive : IdeIdx} {dir : Direction} {left : Nat} {a : IdeAccess}

def Carries (s : IdeController Mem) (drive : IdeIdx) (dir : Direction) (left : Nat) : Prop :=
  ∃ u, s.unit? drive = some u ∧ (s.lend u).Carries dir left

theorem Carries.request (carries : s.Carries drive dir left) :
    s.dmarq.asserted = true ↔ left ≠ 0 := by
  obtain ⟨u, _, unit⟩ := carries
  rw [Line.asserted_eq]
  exact IdeDrive.Carries.request unit

theorem putSelected_carries {d : IdeDrive Mem} (carries : d.Carries dir left) :
    (s.putSelected d).Carries s.selectedDevice dir left := by
  have active := active_putSelected s d
  rw [Active, putSelected_selected] at active
  refine ⟨d.toIdeUnit, active.1, ?_⟩
  rw [active.2]
  exact carries

theorem interrupts_selected {u : IdeUnit Mem} (here : s.unit? s.selectedDevice = some u) :
    s.Interrupts a ↔ (s.lend u).Interrupts a := by
  simp [Interrupts, here]

theorem onSelected_step {α : Type} {u : IdeUnit Mem} {f : IdeDrive Mem → Access (IdeDrive Mem) α}
    {d' : IdeDrive Mem} {v : α} (here : s.unit? s.selectedDevice = some u)
    (done : f (s.lend u) = .ok d' v) : (s.onSelected f).state? = some (s.putSelected d') := by
  have active : s.Active (s.lend u) := ⟨here, rfl⟩
  rw [active.onSelected, done]
  rfl

/-- A halfword of the transfer interrupts if it is the last one. -/
theorem halfword_step (moves : a.moves dir = true) (carries : s.Carries s.selectedDevice dir left)
    (two : 2 ≤ left) :
    (s.Asserts a ↔ left = 2) ∧ ∃ s', s.accessStep a = some s' ∧
      s'.selectedDevice = s.selectedDevice ∧ s'.Carries s.selectedDevice dir (left - 2) := by
  obtain ⟨u, here, unit⟩ := carries
  rw [asserts_iff, interrupts_selected here]
  cases dir with
  | read =>
    obtain rfl := IdeAccess.moves_read.mp moves
    obtain ⟨interrupts, d', w, read, rest⟩ := IdeDrive.dataRead16_carries unit two
    refine ⟨interrupts, s.putSelected d', ?_, putSelected_selected .., putSelected_carries rest⟩
    exact (state?_map ..).trans (onSelected_step here read)
  | write =>
    obtain ⟨w, rfl⟩ := IdeAccess.moves_write.mp moves
    obtain ⟨interrupts, d', written, rest⟩ := IdeDrive.dataWrite16_carries unit two w
    refine ⟨interrupts, s.putSelected d', ?_, putSelected_selected .., putSelected_carries rest⟩
    have step := onSelected_step (f := fun d => d.dataWrite16 w) here written
    exact (state?_map ..).trans step

theorem onSelected_aside {α : Type} {f : IdeDrive Mem → Access (IdeDrive Mem) α}
    (aside : ∀ d, (f d).Ensures fun d' _ => d.Aside d') (carries : s.Carries drive dir left)
    (more : 0 < left) :
    ∃ s', (s.onSelected f).state? = some s' ∧ s'.selectedDevice = s.selectedDevice ∧
      s'.Carries drive dir left := by
  unfold onSelected
  cases here : s.unit? s.selectedDevice with
  | none => exact ⟨s, rfl, rfl, carries⟩
  | some u =>
    obtain ⟨d', r, done, untouched⟩ := (aside (s.lend u)).exists_done
    dsimp only
    rw [done]
    refine ⟨s.putSelected d', rfl, putSelected_selected .., ?_⟩
    obtain ⟨v, there, unit⟩ := carries
    by_cases same : s.selectedDevice = drive
    · subst same
      obtain rfl : u = v := Option.some.inj (here.symm.trans there)
      exact putSelected_carries (unit.aside more untouched)
    · obtain ⟨reg, irq, rfl, _⟩ := untouched
      refine ⟨v, ?_, unit.streams, unit.dma.mode, ?_⟩
      · rw [putSelected, unit?_setUnit, if_neg same]
        exact there
      · show (s.putSelected _).dmarq.ownSignal = true ↔ _
        rw [putSelected_dmarq]
        exact unit.dma.request

theorem select_selects (s : IdeController Mem) (reg : IdeReg) (val : U8) :
    (s.select reg val).selectedDevice = (IdeAccess.write8 reg val).selects s.selectedDevice := by
  cases reg <;> rfl

theorem read16_other (s : IdeController Mem) {reg : IdeReg} (other : reg ≠ .data) :
    s.read16 reg = (s.read8 reg).map (·.setWidth 16) := by
  cases reg with
  | data => exact absurd rfl other
  | _ => rfl

theorem write16_other (s : IdeController Mem) {reg : IdeReg} (other : reg ≠ .data) (val : U16) :
    s.write16 reg val = s.write8 reg (val.setWidth 8) := by
  cases reg with
  | data => exact absurd rfl other
  | _ => rfl

/-- An access aside does not interrupt, and the transfer stays where it is. -/
theorem aside_step (aside : a.aside = true) (carries : s.Carries drive dir left) (more : 0 < left) :
    ¬ s.Asserts a ∧ ∃ s', s.accessStep a = some s' ∧
      s'.selectedDevice = a.selects s.selectedDevice ∧ s'.Carries drive dir left := by
  refine ⟨fun asserts => ?_, ?_⟩
  · obtain ⟨u, _, interrupts⟩ := (asserts_iff s a).mp asserts
    exact IdeDrive.interrupts_aside aside interrupts
  · have reads : ∀ reg, reg ≠ IdeReg.data → ∃ s', (s.read8 reg).state? = some s' ∧
        s'.selectedDevice = s.selectedDevice ∧ s'.Carries drive dir left := fun reg other =>
      onSelected_aside (fun d => d.read8_aside other) carries more
    have writes : ∀ reg val, reg ≠ IdeReg.data → reg.isCommand = false →
        ∃ s', (s.write8 reg val).state? = some s' ∧
          s'.selectedDevice = (IdeAccess.write8 reg val).selects s.selectedDevice ∧
          s'.Carries drive dir left := by
      intro reg val other plain
      have there : (s.select reg val).Carries drive dir left := by
        cases reg <;> exact carries
      rw [← select_selects]
      exact onSelected_aside (fun d => d.write8_aside other plain val) there more
    rcases a with reg | reg | ⟨reg, val⟩ | ⟨reg, val⟩
    · rw [accessStep, access, state?_map]
      exact reads reg (of_decide_eq_true aside)
    · have other := of_decide_eq_true aside
      rw [accessStep, access, state?_map, read16_other s other, state?_map]
      exact reads reg other
    · obtain ⟨other, plain⟩ := IdeAccess.aside_write.mp aside
      rw [accessStep, access, state?_map]
      exact writes reg val other plain
    · obtain ⟨other, plain⟩ := IdeAccess.aside_write.mp aside
      rw [accessStep, access, state?_map, write16_other s other]
      have there := writes reg (val.setWidth 8) other plain
      cases reg <;> exact there

/-- The accesses interrupt with the last one only, and request DMA up to it. -/
def SignalsOnce {β : Type} [BlockDev β] : IdeController β → List IdeAccess → Prop
  | _, [] => True
  | s, a :: as => (s.Asserts a ↔ as = []) ∧ ∃ s', s.accessStep a = some s' ∧
      (s'.dmarq.asserted = true ↔ as ≠ []) ∧ s'.SignalsOnce as

theorem signalsOnce_of_moves {sel : IdeIdx} {n : Nat} {as : List IdeAccess}
    (moves : Moves dir drive sel n as) (selected : s.selectedDevice = sel)
    (carries : s.Carries drive dir (2 * n)) : s.SignalsOnce as := by
  induction moves generalizing s with
  | done => trivial
  | @halfword n a as moves rest ih =>
    subst selected
    obtain ⟨interrupts, s', step, kept, left⟩ := halfword_step moves carries (by omega)
    have fewer : 2 * (n + 1) - 2 = 2 * n := by omega
    rw [fewer] at left
    refine ⟨interrupts.trans ?_, s', step, left.request.trans ?_, ih kept left⟩
    · rw [rest.nil_iff]
      omega
    · rw [ne_eq, ne_eq, rest.nil_iff]
      omega
  | @aside sel n a as more aside rest ih =>
    obtain ⟨quiet, s', step, there, left⟩ := aside_step aside carries (by omega)
    rw [selected] at there
    have going : as ≠ [] := fun wrong => Nat.ne_of_gt more (rest.nil_iff.mp wrong)
    refine ⟨iff_of_false quiet going, s', step, ?_, ih there left⟩
    exact iff_of_true (left.request.mpr (by omega)) going

/-- What the guest has to do to move sectors by DMA: with the drive in DMA mode, at rest, and
holding an address on the disk, give the command and then make the accesses `as`. -/
structure DmaTransfer (s : IdeController Mem) (d : IdeDrive Mem) (dir : Direction) (cmd : U8)
    (lba : Nat) (c : U8) (as : List IdeAccess) : Prop where
  active : s.Active d
  quiet : d.reg.status.getBit Status.BSY = false
  wide : d.cfg.eightbit = false
  mode : d.cfg.transferMode.isDma = true
  holds : d.reg.Holds lba c
  onDisk : (lba + sectorsOf c) * 512 ≤ d.blockdev.data.length
  starts : dir.StartedBy cmd
  moves : Moves dir s.selectedDevice s.selectedDevice (256 * sectorsOf c) as

variable {d : IdeDrive Mem} {cmd : U8} {lba : Nat} {c : U8} {as : List IdeAccess}

theorem DmaTransfer.interrupts (transfer : s.DmaTransfer d dir cmd lba c as) :
    s.Asserts (.write8 .command cmd) := by
  refine (asserts_iff ..).mpr ⟨d.toIdeUnit, transfer.active.1, ?_⟩
  rw [transfer.active.2]
  exact IdeDrive.commandInterrupts_dma transfer.starts transfer.quiet transfer.mode transfer.holds
    transfer.onDisk

theorem DmaTransfer.counted (transfer : s.DmaTransfer d dir cmd lba c as) : sectorsOf c ≠ 0 := by
  have one := IdeDrive.sectors_pos d
  rw [IdeDrive.sectors_eq transfer.holds] at one
  omega

theorem DmaTransfer.not_once (transfer : s.DmaTransfer d dir cmd lba c as) :
    ¬ s.SignalsOnce (.write8 .command cmd :: as) := by
  intro once
  have ended := transfer.moves.nil_iff.mp (once.1.mp transfer.interrupts)
  have some := transfer.counted
  omega

/-- The command itself interrupts, so that a DMA transfer interrupts twice. What comes after the
command does it as it should: one interrupt, with the last halfword, and the request up to it. -/
theorem dma_interrupts_twice (s : IdeController Mem) (d : IdeDrive Mem) (dir : Direction) (cmd : U8)
    (lba : Nat) (c : U8) (as : List IdeAccess) (transfer : s.DmaTransfer d dir cmd lba c as) :
    ¬ s.SignalsOnce (.write8 .command cmd :: as) ∧ s.Asserts (.write8 .command cmd) ∧
      ∃ s₁, s.accessStep (.write8 .command cmd) = some s₁ ∧ s₁.dmarq.asserted = true ∧
        s₁.SignalsOnce as := by
  obtain ⟨d₁, started, carries⟩ := IdeDrive.execCmd_carries transfer.starts transfer.quiet
    transfer.wide transfer.mode transfer.holds transfer.onDisk
  have bytes : 512 * sectorsOf c = 2 * (256 * sectorsOf c) := by omega
  rw [bytes] at carries
  have carries₁ : (s.putSelected d₁).Carries s.selectedDevice dir (2 * (256 * sectorsOf c)) :=
    putSelected_carries carries
  have some := transfer.counted
  refine ⟨transfer.not_once, transfer.interrupts, s.putSelected d₁, ?_, ?_, ?_⟩
  · show ((s.onSelected fun d => d.execCmd cmd).map _).state? = _
    rw [state?_map, transfer.active.onSelected, started]
    rfl
  · exact carries₁.request.mpr (by omega)
  · exact signalsOnce_of_moves transfer.moves (putSelected_selected ..) carries₁

/-- A disk of one sector, in a drive in DMA mode. -/
def oneSectorDrive : IdeUnit Mem where
  blockdev := Mem.new (List.replicate 512 0x5a)
  reg := { sectorCount := 1, lba3DevHead := 0xe0, status := 0x50 }
  cfg := { transferMode := .dmaMultiWord 0 }

def oneSectorDisk : IdeController Mem :=
  { commonIrqLine := Line.new .hi, dmarq := Line.new .hi, ide0 := some oneSectorDrive }

theorem oneSectorDisk_transfer :
    oneSectorDisk.DmaTransfer (oneSectorDisk.lend oneSectorDrive) .read 0xc8 0 1
      (List.replicate 256 (.read16 .data)) where
  active := ⟨rfl, rfl⟩
  quiet := by decide
  wide := rfl
  mode := rfl
  holds := by constructor <;> decide
  onDisk := by
    simp only [oneSectorDisk, lend, oneSectorDrive, Mem.new, List.length_replicate]
    decide
  starts := .inl rfl
  moves := by
    have count : 256 * sectorsOf 1 = 256 := by decide
    rw [count]
    exact moves_replicate rfl 256

theorem one_sector_interrupts_twice :
    let as := List.replicate 256 (IdeAccess.read16 .data)
    ¬ oneSectorDisk.SignalsOnce (.write8 .command 0xc8 :: as) ∧
      oneSectorDisk.Asserts (.write8 .command 0xc8) ∧
      ∃ s₁, oneSectorDisk.accessStep (.write8 .command 0xc8) = some s₁ ∧
        s₁.dmarq.asserted = true ∧ s₁.SignalsOnce as :=
  dma_interrupts_twice _ _ _ _ _ _ _ oneSectorDisk_transfer

/-- Reading that sector interrupts with the command. -/
theorem read_dma_interrupts_at_once :
    let as := List.replicate 256 (IdeAccess.read16 .data)
    oneSectorDisk.DmaTransfer (oneSectorDisk.lend oneSectorDrive) .read 0xc8 0 1 as ∧
      ¬ oneSectorDisk.SignalsOnce (.write8 .command 0xc8 :: as) :=
  ⟨oneSectorDisk_transfer, oneSectorDisk_transfer.not_once⟩

end IdeController
end Clicky
