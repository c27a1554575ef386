import Clicky.Ide.Halfword
import Clicky.Ide.Stream
import Clicky.Ide.DataPhase

/-! When a drive interrupts. Nothing in a drive reads its interrupt line, so an access interrupts
if it leaves the line up after it has found it down. -/
namespace Clicky
open Outcome

namespace IdeDrive

variable {β α : Type} {d : IdeDrive β}

def Raised (o : Access (IdeDrive β) α) : Prop := ∃ d, o.state? = some d ∧ d.irq.ownSignal = true

@[simp] theorem raised_done (d : IdeDrive β) (r : Except MemException α) :
    Raised (.done d r) ↔ d.irq.ownSignal = true := by
  simp [Raised]

@[simp] theorem raised_panic (m : String) : ¬ Raised (.panic m : Access (IdeDrive β) α) := by
  rintro ⟨_, impossible, _⟩
  cases impossible

@[simp] theorem raised_map {γ : Type} (f : α → γ) (o : Access (IdeDrive β) α) :
    Raised (o.map f) ↔ Raised o := by
  simp [Raised]

theorem raised_bind {γ : Type} {o : Access (IdeDrive β) α}
    {next : IdeDrive β → α → Access (IdeDrive β) γ} (quiet : ¬ Raised o) (stops : ¬ o.Returns) :
    ¬ Raised (o.bind next) := by
  rcases o with ⟨d, e | a⟩ | m
  · simpa using quiet
  · exact absurd (returns_ok d a) stops
  · exact raised_panic m

theorem sectorIrq_level (low : d.irq.ownSignal = false) :
    d.sectorIrq.ownSignal = !d.cfg.transferMode.isDma := by
  unfold sectorIrq
  cases d.cfg.transferMode.isDma with
  | true => exact low
  | false => exact Line.assert_ownSignal _

/-- The end of a sector interrupts after the last one, and without DMA after the others too. -/
def SectorInterrupts (d : IdeDrive β) : Prop :=
  d.remainingSectors = 1 ∨ 2 ≤ d.remainingSectors ∧ d.cfg.transferMode.isDma = false

theorem finishSector_raised (low : d.irq.ownSignal = false) :
    Raised d.finishSector ↔ d.SectorInterrupts := by
  unfold finishSector SectorInterrupts
  dsimp only
  rw [pulseIrqUnlessDma_irq]
  dsimp only
  split
  · rename_i none
    simp [none]
  · rename_i one
    simp [one, pulseIrq]
  · rename_i left more
    have level := sectorIrq_level (d := { d with
      iobuf := d.iobuf.newTransfer
      state := .writeReady
      reg.status := (d.reg.status.setBit Status.DRQ true).setBit Status.BSY false }) low
    rw [raised_done]
    dsimp only
    rw [level]
    simp [more]

/-- A byte does not end a sector here, whatever the drive is doing. -/
def BetweenSectors (d : IdeDrive β) (busy : IdeDriveState) : Prop :=
  d.state = .idle ∨ d.state = busy ∧ d.iobuf.idx = 0

theorem finishSector_between (some : d.remainingSectors ≠ 0) :
    ∃ d', d.finishSector = .ok d' () ∧ d'.BetweenSectors .writeReady := by
  by_cases one : d.remainingSectors = 1
  · obtain ⟨irq, finished⟩ := finishSector_last one
    exact ⟨_, finished, .inl rfl⟩
  · obtain ⟨irq, finished⟩ := finishSector_more (d := d) (by omega)
    exact ⟨_, finished, .inr ⟨rfl, rfl⟩⟩

variable [BlockDev β]

/-- These bytes end a sector that is read, and the drive interrupts for it. -/
structure EndsRead (d : IdeDrive β) (count : Nat) : Prop where
  ready : d.state = .readReady
  inside : d.iobuf.idx < 512
  ends : 512 ≤ d.iobuf.idx + count
  interrupts : d.SectorInterrupts
  next : 2 ≤ d.remainingSectors → d.NextSector

theorem loadNext_irq (low : d.irq.ownSignal = false) :
    (d.NextSector ∧ ∃ d', d.loadNext = .ok d' () ∧ d'.state = .readReady ∧ d'.iobuf.idx = 0 ∧
      d'.cfg = d.cfg ∧ d'.irq.ownSignal = !d.cfg.transferMode.isDma) ∨
    (¬ d.NextSector ∧ ∃ d' e, d.loadNext = .raise d' e ∧ d'.irq.ownSignal = false) := by
  unfold loadNext loadSector NextSector
  dsimp only
  rcases BlockDev.readExact d.blockdev 512 with ⟨b, bytes, e | _⟩
  · exact .inr ⟨by simp, _, _, rfl, low⟩
  · refine .inl ⟨rfl, _, rfl, ?_⟩
    rw [pulseIrqUnlessDma_irq]
    exact ⟨rfl, rfl, rfl, sectorIrq_level (d := { d with .. }) low⟩

/-- What becomes of the line with a byte: nothing inside a sector, and nothing if the read fails. -/
inductive ReadIrq (d : IdeDrive β) : Prop where
  | inside (ready : d.state = .readReady) (room : d.iobuf.idx + 1 < 512) (v : U8)
      (read : d.dataRead8 = .ok { d with iobuf.idx := d.iobuf.idx + 1 } v)
  | ended (last : d.iobuf.idx = 511) (d' : IdeDrive β) (v : U8) (read : d.dataRead8 = .ok d' v)
      (cfg : d'.cfg = d.cfg) (between : d'.BetweenSectors .readReady)
      (line : d'.irq.ownSignal = true ↔ d.EndsRead 1)
  | refused (quiet : ¬ Raised d.dataRead8) (stops : ¬ d.dataRead8.Returns)
      (never : ∀ count, ¬ d.EndsRead count)

theorem ReadIrq.raise {d' : IdeDrive β} {e : MemException} (read : d.dataRead8 = .raise d' e)
    (low : d'.irq.ownSignal = false) (never : ∀ count, ¬ d.EndsRead count) : d.ReadIrq := by
  refine .refused ?_ ?_ never
  · rw [read]
    simp [low]
  · rw [read]
    exact returns_raise _ _

theorem readIrq (low : d.irq.ownSignal = false) : d.ReadIrq := by
  by_cases ready : d.state = .readReady
  · by_cases inside : d.iobuf.idx < 512
    · by_cases room : d.iobuf.idx + 1 < 512
      · obtain ⟨v, _, read⟩ := dataRead8_inside ready room
        exact .inside ready room v read
      · have last : d.iobuf.idx = 511 := by omega
        have ends : 512 ≤ d.iobuf.idx + 1 := by omega
        obtain ⟨v, _, read⟩ := dataRead8_end ready last
        split at read
        · rename_i none
          refine .refused ?_ ?_ fun count can => ?_
          · rw [read]
            exact raised_panic _
          · rw [read]
            exact returns_panic _
          · rcases can.interrupts with one | ⟨two, _⟩
            · omega
            · omega
        · rename_i one
          refine .ended last _ v read rfl (.inl rfl) (iff_of_true ?_ ?_)
          · exact Line.assert_ownSignal _
          · exact ⟨ready, inside, ends, .inl one, fun two => by omega⟩
        · rename_i left more
          rcases loadNext_irq (d := { d with iobuf.idx := 512, remainingSectors := left + 1 }) low
            with ⟨next, d', loaded, state, start, cfg, line⟩ | ⟨stuck, d', e, failed, line⟩
          · rw [loaded] at read
            refine .ended last d' v read cfg (.inr ⟨state, start⟩) ?_
            rw [line]
            constructor
            · intro pio
              exact ⟨ready, inside, ends, .inr ⟨by omega, by simpa using pio⟩, fun _ => next⟩
            · intro can
              rcases can.interrupts with one | ⟨_, pio⟩
              · omega
              · simpa using pio
          · rw [failed] at read
            exact .raise read line fun count can => stuck (can.next (by omega))
    · have past : d.dataRead8 = .raise d pastRead := by
        rw [dataRead8, if_neg (not_not_intro ready), IdeIoBuf.read8_past (Nat.le_of_not_lt inside)]
      exact .raise past low fun _ can => inside can.inside
  · exact .raise (if_pos ready) low fun _ can => ready can.ready

theorem dataRead8_raised (low : d.irq.ownSignal = false) : Raised d.dataRead8 ↔ d.EndsRead 1 := by
  cases readIrq low with
  | inside ready room v read =>
    rw [read, raised_done]
    refine iff_of_false (by simp [low]) fun can => ?_
    have := can.ends
    omega
  | ended last d' v read cfg between line =>
    rw [read, raised_done]
    exact line
  | refused quiet stops never => exact iff_of_false quiet (never 1)

/-- The byte after a sector leaves the line as it is. -/
theorem dataRead8_between (between : d.BetweenSectors .readReady) :
    Raised d.dataRead8 ↔ d.irq.ownSignal = true := by
  rcases between with idle | ⟨ready, start⟩
  · rw [dataRead8_refused idle]
    simp
  · obtain ⟨v, _, read⟩ := dataRead8_inside ready (by omega)
    rw [read]
    simp

theorem dataRead16_raised (low : d.irq.ownSignal = false) :
    Raised d.dataRead16 ↔ d.EndsRead d.width := by
  unfold dataRead16 width
  cases readIrq low with
  | inside ready room v read =>
    rw [read, bind_ok]
    dsimp only
    split
    · rw [raised_done]
      refine iff_of_false (by simp [low]) fun can => ?_
      have := can.ends
      omega
    · have second := dataRead8_raised (d := { d with iobuf.idx := d.iobuf.idx + 1 }) low
      refine (raised_map ..).trans (second.trans ⟨fun can => ?_, fun can => ?_⟩)
      · have ends : 512 ≤ d.iobuf.idx + 1 + 1 := can.ends
        exact ⟨ready, by omega, ends, can.interrupts, can.next⟩
      · exact ⟨ready, room, can.ends, can.interrupts, can.next⟩
  | ended last d' v read cfg between line =>
    rw [read, bind_ok, cfg]
    split
    · rw [raised_done]
      exact line
    · refine (raised_map ..).trans ((dataRead8_between between).trans (line.trans ?_))
      exact ⟨fun can => ⟨can.ready, can.inside, by omega, can.interrupts, can.next⟩,
        fun can => ⟨can.ready, can.inside, by omega, can.interrupts, can.next⟩⟩
  | refused quiet stops never => exact iff_of_false (raised_bind quiet stops) (never _)

/-- These bytes fill a sector, and the drive interrupts once it is on the disk. -/
structure EndsWrite (d : IdeDrive β) (data : List U8) : Prop where
  ready : d.state = .writeReady
  inside : d.iobuf.idx < 512
  ends : 512 ≤ d.iobuf.idx + data.length
  interrupts : d.SectorInterrupts
  flush : d.Flushes data

inductive WriteIrq (d : IdeDrive β) (val : U8) : Prop where
  | inside (ready : d.state = .writeReady) (room : d.iobuf.idx + 1 < 512)
  | ended (last : d.iobuf.idx = 511) (d' : IdeDrive β) (written : d.dataWrite8 val = .ok d' ())
      (between : d'.BetweenSectors .writeReady) (line : d'.irq.ownSignal = true ↔ d.EndsWrite [val])
  | refused (quiet : ¬ Raised (d.dataWrite8 val)) (stops : ¬ (d.dataWrite8 val).Returns)
      (never : ∀ more, ¬ d.EndsWrite (val :: more))

theorem WriteIrq.raise {val : U8} {d' : IdeDrive β} {e : MemException}
    (written : d.dataWrite8 val = .raise d' e) (low : d'.irq.ownSignal = false)
    (never : ∀ more, ¬ d.EndsWrite (val :: more)) : d.WriteIrq val := by
  refine .refused ?_ ?_ never
  · rw [written]
    simp [low]
  · rw [written]
    exact returns_raise _ _

theorem flushes_put (last : d.iobuf.idx = 511) (val : U8) (more : List U8) :
    d.Flushes (val :: more) ↔ (BlockDev.writeAll d.blockdev (d.iobuf.put val).buf).2 = .ok () := by
  have fits : d.iobuf.buf.overwrite d.iobuf.idx (val :: more) = (d.iobuf.put val).buf := by
    rw [IdeIoBuf.put_buf, List.overwrite, List.overwrite, d.iobuf.sized, last]
    simp [d.iobuf.sized]
    omega
  rw [Flushes, fits]

theorem writeIrq (low : d.irq.ownSignal = false) (val : U8) : d.WriteIrq val := by
  by_cases ready : d.state = .writeReady
  · by_cases inside : d.iobuf.idx < 512
    · by_cases room : d.iobuf.idx + 1 < 512
      · exact .inside ready room
      · have last : d.iobuf.idx = 511 := by omega
        have written := dataWrite8_end ready last val
        split at written
        · rename_i none
          refine .refused ?_ ?_ fun more can => ?_
          · rw [written]
            exact raised_panic _
          · rw [written]
            exact returns_panic _
          · rcases can.interrupts with one | ⟨two, _⟩
            · omega
            · omega
        · rename_i some
          rcases storeSector_cases { d with
              iobuf := d.iobuf.put val
              reg.status := (d.reg.status.setBit Status.DRQ false).setBit Status.BSY true
              state := .writeAsyncFlush } with
            ⟨stored, d₁, done, media⟩ | ⟨stuck, d₁, e, failed⟩
          · rw [done, bind_ok] at written
            have low₁ : d₁.irq.ownSignal = false := by
              rw [media.irq]
              exact low
            have raises := finishSector_raised low₁
            obtain ⟨d', finished, between⟩ := finishSector_between (d := d₁) (by
              rw [media.remainingSectors]
              exact some)
            rw [finished] at raises written
            refine .ended last d' written between ((raised_done d' _).symm.trans (raises.trans ?_))
            unfold SectorInterrupts
            rw [media.remainingSectors, media.cfg]
            have ends : 512 ≤ d.iobuf.idx + 1 := by omega
            exact ⟨fun can => ⟨ready, inside, ends, can, (flushes_put last val []).mpr stored⟩,
              fun can => can.interrupts⟩
          · rw [failed] at written
            obtain ⟨b, rfl⟩ := storeSector_blockdev failed
            exact .raise written low fun more can => stuck ((flushes_put last val more).mp can.flush)
    · have past : d.dataWrite8 val = .raise d pastWrite := by
        rw [dataWrite8, if_neg (not_not_intro ready), IdeIoBuf.write8, if_neg inside]
      exact .raise past low fun _ can => inside can.inside
  · exact .raise (if_pos ready) low fun _ can => ready can.ready

theorem dataWrite8_raised (low : d.irq.ownSignal = false) (val : U8) :
    Raised (d.dataWrite8 val) ↔ d.EndsWrite [val] := by
  cases writeIrq low val with
  | inside ready room =>
    rw [dataWrite8_inside ready room, raised_done]
    refine iff_of_false (by simp [low]) fun can => ?_
    have ends : 512 ≤ d.iobuf.idx + 1 := can.ends
    omega
  | ended last d' written between line =>
    rw [written, raised_done]
    exact line
  | refused quiet stops never => exact iff_of_false quiet (never [])

theorem dataWrite8_between (between : d.BetweenSectors .writeReady) (val : U8) :
    Raised (d.dataWrite8 val) ↔ d.irq.ownSignal = true := by
  rcases between with idle | ⟨ready, start⟩
  · rw [dataWrite8, if_pos (by rw [idle]; decide)]
    simp
  · rw [dataWrite8_inside ready (by omega)]
    simp

/-- In 8 bit mode a halfword that does not fit into a byte is refused. -/
def EndsWrite16 (d : IdeDrive β) (val : U16) : Prop :=
  (d.cfg.eightbit = true → val ≤ 0xff) ∧ d.EndsWrite (d.halfwordBytes val)

theorem dataWrite16_raised (low : d.irq.ownSignal = false) (val : U16) :
    Raised (d.dataWrite16 val) ↔ d.EndsWrite16 val := by
  unfold dataWrite16 EndsWrite16 halfwordBytes
  by_cases eightbit : d.cfg.eightbit = true
  · rw [if_pos eightbit, if_pos eightbit, truncToU8]
    by_cases wide : val > 0xff
    · rw [if_pos wide]
      refine iff_of_false (by simp [low]) fun can => ?_
      exact absurd (can.1 eightbit) (BitVec.not_le.mpr wide)
    · rw [if_neg wide]
      refine (dataWrite8_raised low _).trans ?_
      exact ⟨fun can => ⟨fun _ => BitVec.not_lt.mp wide, can⟩, fun h => h.2⟩
  · rw [if_neg eightbit, if_neg eightbit]
    refine Iff.trans ?_ (and_iff_right fun wrong => absurd wrong eightbit).symm
    cases writeIrq low (val.setWidth 8) with
    | inside ready room =>
      rw [dataWrite8_inside ready room, bind_ok]
      have second := dataWrite8_raised (d := { d with iobuf := d.iobuf.put (val.setWidth 8) }) low
        ((val >>> 8).setWidth 8)
      have flushes : Flushes { d with iobuf := d.iobuf.put (val.setWidth 8) }
          [(val >>> 8).setWidth 8] ↔ d.Flushes [val.setWidth 8, (val >>> 8).setWidth 8] := by
        have both := List.overwrite_overwrite d.iobuf.buf [val.setWidth 8] [(val >>> 8).setWidth 8]
          d.iobuf.idx
        rw [List.length_singleton, ← IdeIoBuf.put_buf] at both
        unfold Flushes
        exact (congrArg (fun data => (BlockDev.writeAll d.blockdev data).2 = .ok ()) both).to_iff
      refine second.trans ⟨fun can => ?_, fun can => ?_⟩
      · have ends : 512 ≤ d.iobuf.idx + 1 + 1 := can.ends
        exact ⟨ready, by omega, ends, can.interrupts, flushes.mp can.flush⟩
      · exact ⟨ready, room, can.ends, can.interrupts, flushes.mpr can.flush⟩
    | ended last d' written between line =>
      rw [written, bind_ok]
      refine (dataWrite8_between between _).trans (line.trans ⟨fun can => ?_, fun can => ?_⟩)
      · have ends : 512 ≤ d.iobuf.idx + 2 := by omega
        exact ⟨can.ready, can.inside, ends, can.interrupts, (flushes_last last).mpr can.flush⟩
      · have ends : 512 ≤ d.iobuf.idx + 1 := by omega
        exact ⟨can.ready, can.inside, ends, can.interrupts, (flushes_last last).mp can.flush⟩
    | refused quiet stops never => exact iff_of_false (raised_bind quiet stops) (never _)

/-- The address in the registers is in range for the medium. -/
def Seeks (d : IdeDrive β) : Prop :=
  ∃ offset n, d.getSectorOffset = some offset ∧
    (BlockDev.seek d.blockdev (offset * 512)).2 = .ok n

/-- The medium also gives the sector at the address. -/
def SeeksSector (d : IdeDrive β) : Prop :=
  ∃ offset n, d.getSectorOffset = some offset ∧
    (BlockDev.seek d.blockdev (offset * 512)).2 = .ok n ∧
    (BlockDev.readExact (BlockDev.seek d.blockdev (offset * 512)).1 512).2.2 = .ok ()

theorem readSectors_raised (low : d.irq.ownSignal = false) :
    Raised d.readSectors ↔ d.SeeksSector := by
  unfold readSectors SeeksSector
  cases found : d.getSectorOffset with
  | none => simp [low]
  | some offset =>
    simp only [seekSector, loadSector, Option.some.injEq, exists_and_left, exists_eq_left']
    rcases BlockDev.seek d.blockdev (offset * 512) with ⟨b, e | n⟩
    · simp [low]
    · simp only [bind_ok]
      rcases BlockDev.readExact b 512 with ⟨b', bytes, e | _⟩
      · simp [low]
      · simp [pulseIrq]

theorem writeSectors_raised (low : d.irq.ownSignal = false) :
    Raised d.writeSectors ↔ d.Seeks := by
  unfold writeSectors Seeks
  cases found : d.getSectorOffset with
  | none => simp [low]
  | some offset =>
    simp only [seekSector, Option.some.injEq, exists_and_left, exists_eq_left']
    rcases BlockDev.seek d.blockdev (offset * 512) with ⟨b, e | n⟩
    · simp [low]
    · simp [pulseIrq]

/-- The commands that interrupt, and what each of them needs to get that far. -/
def Interrupting (cmd : U8) (d : IdeDrive β) : Prop :=
  match IdeCmd.tryFrom cmd with
  | some .identifyDevice | some .sleep | some .sleepAlt | some .recalibrate
  | some .readNativeMaxAddress | some .setMaxAddress | some .initializeDriveParameters => True
  | some .readSectors | some .readSectorsNoRetry => d.SeeksSector
  | some .readMultiple => d.cfg.multiSect = 1 ∧ d.SeeksSector
  | some .readDMA | some .readDMANoRetry => d.cfg.transferMode.isDma = true ∧ d.SeeksSector
  | some .writeSectors | some .writeSectorsNoRetry => d.Seeks
  | some .writeMultiple => d.cfg.multiSect = 1 ∧ d.Seeks
  | some .writeDMA | some .writeDMANoRetry => d.cfg.transferMode.isDma = true ∧ d.Seeks
  | some .standbyImmediate | some .standbyImmediateAlt | some .setMultipleMode | some .setFeatures
  | some .flushCache | none => False

def CommandInterrupts (d : IdeDrive β) (cmd : U8) : Prop := d.busy = false ∧ Interrupting cmd d

omit [BlockDev β] in
theorem begin_raised {body : IdeDrive β → Access (IdeDrive β) Unit} {P : Prop}
    (low : d.irq.ownSignal = false) (command : Raised (body { d with
      reg.status := (d.reg.status.setBit Status.BSY true).setBit Status.ERR false
      reg.error := 0 }) ↔ P) : Raised (d.begin body) ↔ d.busy = false ∧ P := by
  unfold begin IdeUnit.busy
  cases d.reg.status.getBit Status.BSY with
  | true => simp [low]
  | false => simpa using command

omit [BlockDev β] in
theorem restart_raised {body : IdeDrive β → Access (IdeDrive β) Unit} {P : Prop}
    (low : d.irq.ownSignal = false) (command : Raised (body { d.ready with
      reg.status := (d.ready.reg.status.setBit Status.BSY true).setBit Status.ERR false
      reg.error := 0 }) ↔ P) : Raised (d.ready.begin body) ↔ P :=
  (begin_raised (d := d.ready) low command).trans (and_iff_right (ready_busy d))

omit [BlockDev β] in
theorem multiple_raised {body : IdeDrive β → Access (IdeDrive β) Unit} {P : Prop}
    (low : d.irq.ownSignal = false) (unset stubbed : String)
    (command : Raised (d.ready.begin body) ↔ P) :
    Raised (d.multiple unset stubbed body) ↔ d.cfg.multiSect = 1 ∧ P := by
  unfold multiple
  split
  · rename_i zero
    simp [low, zero]
  · split
    · rename_i more
      exact iff_of_false (by simp [low]) fun can => more can.1
    · rename_i one
      rw [not_not.mp one]
      simpa using command

omit [BlockDev β] in
theorem dma_raised {body : IdeDrive β → Access (IdeDrive β) Unit} {P : Prop}
    (low : d.irq.ownSignal = false) (unset : String)
    (command : Raised (({ d with dmarq := d.dmarq.assert } : IdeDrive β).ready.begin body) ↔ P) :
    Raised (d.dma unset body) ↔ d.cfg.transferMode.isDma = true ∧ P := by
  unfold dma
  cases mode : d.cfg.transferMode.isDma with
  | false => simp [low]
  | true => simpa using command

omit [BlockDev β] in
theorem setMultipleMode_raised (low : d.irq.ownSignal = false) : ¬ Raised d.setMultipleMode := by
  simp only [setMultipleMode]
  split <;> simp [ready, low]

omit [BlockDev β] in
theorem setFeatures_raised (low : d.irq.ownSignal = false) : ¬ Raised d.setFeatures := by
  unfold setFeatures
  split <;> simp [ready, low]

theorem dispatch_raised (low : d.irq.ownSignal = false) (cmd : U8) :
    Raised (dispatch cmd d) ↔ Interrupting cmd d := by
  unfold dispatch Interrupting
  cases IdeCmd.tryFrom cmd with
  | none => simp [unknownCmd, low]
  | some known =>
    cases known with
    | identifyDevice => simp [identifyDevice, pulseIrq]
    | readMultiple => exact multiple_raised low _ _ (restart_raised low (readSectors_raised low))
    | writeMultiple => exact multiple_raised low _ _ (restart_raised low (writeSectors_raised low))
    | readSectors => exact readSectors_raised low
    | readSectorsNoRetry => exact readSectors_raised low
    | writeSectors => exact writeSectors_raised low
    | writeSectorsNoRetry => exact writeSectors_raised low
    | readDMA => exact dma_raised low _ (restart_raised low (readSectors_raised low))
    | readDMANoRetry => exact dma_raised low _ (restart_raised low (readSectors_raised low))
    | writeDMA => exact dma_raised low _ (restart_raised low (writeSectors_raised low))
    | writeDMANoRetry => exact dma_raised low _ (restart_raised low (writeSectors_raised low))
    | setMultipleMode => exact iff_of_false (setMultipleMode_raised low) id
    | setFeatures => exact iff_of_false (setFeatures_raised low) id
    | standbyImmediate => simp [ready, low]
    | standbyImmediateAlt => simp [ready, low]
    | flushCache => simp [flushCache, low]
    | sleep => simp [pulseIrq]
    | sleepAlt => simp [pulseIrq]
    | recalibrate => simp [recalibrate, pulseIrq]
    | readNativeMaxAddress => simp [readNativeMaxAddress, recalibrate, pulseIrq]
    | setMaxAddress => simp [recalibrate, pulseIrq]
    | initializeDriveParameters => simp [recalibrate, pulseIrq]

/-- The status and the error register are the drive's own. -/
theorem interrupting_regs (d : IdeDrive β) (status error : U8) (cmd : U8) :
    Interrupting cmd { d with reg.status := status, reg.error := error } ↔ Interrupting cmd d := by
  unfold Interrupting
  cases IdeCmd.tryFrom cmd with
  | none => exact Iff.rfl
  | some known => cases known <;> exact Iff.rfl

theorem execCmd_raised (low : d.irq.ownSignal = false) (cmd : U8) :
    Raised (d.execCmd cmd) ↔ d.CommandInterrupts cmd :=
  begin_raised low ((dispatch_raised (d := { d with
    reg.status := (d.reg.status.setBit Status.BSY true).setBit Status.ERR false
    reg.error := 0 }) low cmd).trans (interrupting_regs ..))

/-- The accesses of a drive that interrupt. -/
def Interrupts (d : IdeDrive β) : IdeAccess → Prop
  | .read8 .data => d.EndsRead 1
  | .read16 .data => d.EndsRead d.width
  | .write8 .data val => d.EndsWrite [val]
  | .write16 .data val => d.EndsWrite16 val
  | .write8 .command val | .write8 .status val => d.CommandInterrupts val
  | .write16 .command val | .write16 .status val => d.CommandInterrupts (val.setWidth 8)
  | _ => False

theorem read8_raised (low : d.irq.ownSignal = false) (reg : IdeReg) :
    Raised (d.read8 reg) ↔ d.Interrupts (.read8 reg) := by
  cases reg with
  | data => exact dataRead8_raised low
  | status => simp [read8, Interrupts]
  | command => simp [read8, Interrupts]
  | _ => simp [read8, Interrupts, low]

theorem write8_raised (low : d.irq.ownSignal = false) (val : U8) (reg : IdeReg) :
    Raised (d.write8 val reg) ↔ d.Interrupts (.write8 reg val) := by
  cases reg with
  | data => exact dataWrite8_raised low val
  | status => exact execCmd_raised low val
  | command => exact execCmd_raised low val
  | _ => simp [write8, Interrupts, low]

/-- Whether an access interrupts does not depend on the line. -/
theorem interrupts_irq (d : IdeDrive β) (line : Line) (a : IdeAccess) :
    ({ d with irq := line } : IdeDrive β).Interrupts a ↔ d.Interrupts a := by
  have reads : ∀ {d₁ d₂ : IdeDrive β} {count : Nat}, d₁.toIdeUnit = d₂.toIdeUnit →
      d₁.EndsRead count → d₂.EndsRead count := by
    rintro ⟨u₁, _, _⟩ ⟨u₂, _, _⟩ count rfl can
    exact ⟨can.ready, can.inside, can.ends, can.interrupts, can.next⟩
  have writes : ∀ {d₁ d₂ : IdeDrive β} {data : List U8}, d₁.toIdeUnit = d₂.toIdeUnit →
      d₁.EndsWrite data → d₂.EndsWrite data := by
    rintro ⟨u₁, _, _⟩ ⟨u₂, _, _⟩ data rfl can
    exact ⟨can.ready, can.inside, can.ends, can.interrupts, can.flush⟩
  have commands : ∀ cmd, ({ d with irq := line } : IdeDrive β).CommandInterrupts cmd ↔
      d.CommandInterrupts cmd := by
    intro cmd
    refine and_congr Iff.rfl ?_
    unfold Interrupting
    cases IdeCmd.tryFrom cmd with
    | none => exact Iff.rfl
    | some known => cases known <;> exact Iff.rfl
  cases a with
  | read8 reg =>
    cases reg with
    | data => exact ⟨reads rfl, reads rfl⟩
    | _ => exact Iff.rfl
  | read16 reg =>
    cases reg with
    | data => exact ⟨reads rfl, reads rfl⟩
    | _ => exact Iff.rfl
  | write8 reg val =>
    cases reg with
    | data => exact ⟨writes rfl, writes rfl⟩
    | command => exact commands val
    | status => exact commands val
    | _ => exact Iff.rfl
  | write16 reg val =>
    cases reg with
    | data => exact and_congr Iff.rfl ⟨writes rfl, writes rfl⟩
    | command => exact commands _
    | status => exact commands _
    | _ => exact Iff.rfl

end IdeDrive

/-- The drive that is selected once the access has been made. -/
def IdeAccess.selects (sel : IdeIdx) : IdeAccess → IdeIdx
  | .write8 .deviceHead val | .write8 .lba3 val => .ofBool (val.getBit DevHead.DEV)
  | .write16 .deviceHead val | .write16 .lba3 val =>
    .ofBool ((val.setWidth 8 : U8).getBit DevHead.DEV)
  | _ => sel

namespace IdeController

variable {β α : Type} {s : IdeController β}

def lower (s : IdeController β) : IdeController β :=
  { s with commonIrqLine := s.commonIrqLine.clear }

@[simp] theorem lower_low (s : IdeController β) : s.lower.commonIrqLine.ownSignal = false :=
  Line.clear_ownSignal _

@[simp] theorem putSelected_irq (s : IdeController β) (d : IdeDrive β) :
    (s.putSelected d).commonIrqLine = d.irq := by
  unfold putSelected
  cases s.selectedDevice <;> rfl

@[simp] theorem putSelected_dmarq (s : IdeController β) (d : IdeDrive β) :
    (s.putSelected d).dmarq = d.dmarq := by
  unfold putSelected
  cases s.selectedDevice <;> rfl

@[simp] theorem putSelected_selected (s : IdeController β) (d : IdeDrive β) :
    (s.putSelected d).selectedDevice = s.selectedDevice := by
  unfold putSelected
  cases s.selectedDevice <;> rfl

def Raised (o : Access (IdeController β) α) : Prop :=
  ∃ s, o.state? = some s ∧ s.commonIrqLine.asserted = true

@[simp] theorem raised_map {γ : Type} (f : α → γ) (o : Access (IdeController β) α) :
    Raised (o.map f) ↔ Raised o := by
  simp [Raised]

theorem raised_onSelected (low : s.commonIrqLine.ownSignal = false)
    (f : IdeDrive β → Access (IdeDrive β) α) :
    Raised (s.onSelected f) ↔
      ∃ u, s.unit? s.selectedDevice = some u ∧ IdeDrive.Raised (f (s.lend u)) := by
  unfold onSelected
  cases s.unit? s.selectedDevice with
  | none => simp [Raised, low]
  | some u =>
    rcases drive : f (s.lend u) with ⟨d, r⟩ | m
    · simp [Raised, drive]
    · simp [Raised, drive, zoom, state?]

variable [BlockDev β]

/-- With the line down before it, the access leaves it up. -/
def Asserts (s : IdeController β) (a : IdeAccess) : Prop := Raised (s.lower.access a)

/-- The accesses that interrupt: those that the drive they go to interrupts for. -/
def Interrupts (s : IdeController β) (a : IdeAccess) : Prop :=
  ∃ u, s.unit? s.selectedDevice = some u ∧ (s.lend u).Interrupts a

theorem raised_write8 (low : s.commonIrqLine.ownSignal = false) (reg : IdeReg) (val : U8) :
    Raised (s.write8 reg val) ↔ s.Interrupts (.write8 reg val) := by
  have selected : (s.select reg val).commonIrqLine.ownSignal = false := by
    cases reg <;> exact low
  refine (raised_onSelected selected _).trans ?_
  have drive : ∀ u, IdeDrive.Raised (((s.select reg val).lend u).write8 val reg) ↔
      ((s.select reg val).lend u).Interrupts (.write8 reg val) := fun u =>
    IdeDrive.write8_raised selected val reg
  cases reg with
  | deviceHead => simp [drive, Interrupts, IdeDrive.Interrupts]
  | lba3 => simp [drive, Interrupts, IdeDrive.Interrupts]
  | _ => exact exists_congr fun u => and_congr Iff.rfl (drive u)

theorem asserts_iff (s : IdeController β) (a : IdeAccess) : s.Asserts a ↔ s.Interrupts a := by
  have reads : ∀ reg, Raised (s.lower.read8 reg) ↔ s.lower.Interrupts (.read8 reg) := fun reg =>
    (raised_onSelected (lower_low s) _).trans
      (exists_congr fun u => and_congr Iff.rfl (IdeDrive.read8_raised (lower_low s) reg))
  have lowered : s.lower.Interrupts a ↔ s.Interrupts a :=
    exists_congr fun u => and_congr Iff.rfl (IdeDrive.interrupts_irq (s.lend u) _ a)
  rw [← lowered]
  cases a with
  | read8 reg => exact (raised_map ..).trans (reads reg)
  | read16 reg =>
    refine (raised_map ..).trans ?_
    cases reg with
    | data =>
      have drive : ∀ u, IdeDrive.Raised (s.lower.lend u).dataRead16 ↔
          (s.lower.lend u).EndsRead (s.lower.lend u).width := fun u =>
        IdeDrive.dataRead16_raised (lower_low s)
      exact (raised_onSelected (lower_low s) _).trans
        (exists_congr fun u => and_congr Iff.rfl (drive u))
    | _ => exact (raised_map ..).trans (reads _)
  | write8 reg val => exact (raised_map ..).trans (raised_write8 (lower_low s) reg val)
  | write16 reg val =>
    refine (raised_map ..).trans ?_
    cases reg with
    | data =>
      have drive : ∀ u, IdeDrive.Raised ((s.lower.lend u).dataWrite16 val) ↔
          (s.lower.lend u).EndsWrite16 val := fun u => IdeDrive.dataWrite16_raised (lower_low s) val
      exact (raised_onSelected (lower_low s) fun d => d.dataWrite16 val).trans
        (exists_congr fun u => and_congr Iff.rfl (drive u))
    | _ => exact raised_write8 (lower_low s) _ _

end IdeController
end Clicky
