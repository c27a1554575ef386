import Clicky.Ide.Controller

/-! What an access of the data register does, case by case: inside a sector, at the end of the
last one, and at the end of one that others follow. -/
namespace Clicky
open Outcome

theorem IdeIoBuf.read8_of_inside {b : IdeIoBuf} (inside : b.idx < 512) :
    ∃ ret, b.buf[b.idx]? = some ret ∧ b.read8 = some (ret, { b with idx := b.idx + 1 }) := by
  have get := List.getElem?_eq_getElem (l := b.buf) (i := b.idx) (by rw [b.sized]; exact inside)
  exact ⟨_, get, by rw [IdeIoBuf.read8, get]; rfl⟩

theorem IdeIoBuf.read8_past {b : IdeIoBuf} (past : 512 ≤ b.idx) : b.read8 = none := by
  have get : b.buf[b.idx]? = none := List.getElem?_eq_none (by rw [b.sized]; exact past)
  rw [IdeIoBuf.read8, get]
  rfl

theorem IdeIoBuf.sized_set (b : IdeIoBuf) (val : U8) : (b.buf.set b.idx val).length = 512 := by
  rw [List.length_set, b.sized]

/-- The buffer with one more byte in it. -/
def IdeIoBuf.put (b : IdeIoBuf) (val : U8) : IdeIoBuf :=
  { buf := b.buf.set b.idx val, idx := b.idx + 1, sized := b.sized_set val }

theorem IdeIoBuf.put_buf (b : IdeIoBuf) (val : U8) :
    (b.put val).buf = b.buf.overwrite b.idx [val] := List.set_eq_overwrite ..

theorem IdeIoBuf.write8_of_inside {b : IdeIoBuf} (inside : b.idx < 512) (val : U8) :
    b.write8 val = some (b.put val) := if_pos inside

namespace IdeDrive

variable {β : Type} {d : IdeDrive β}

/-- The line after the interrupt DMA does without. -/
def sectorIrq (d : IdeDrive β) : Line :=
  if d.cfg.transferMode.isDma then d.irq else d.irq.clear.assert

theorem pulseIrqUnlessDma_irq (d : IdeDrive β) :
    d.pulseIrqUnlessDma = { d with irq := d.sectorIrq } := by
  unfold pulseIrqUnlessDma sectorIrq
  split <;> rfl

theorem pulseIrqUnlessDma_eq (d : IdeDrive β) : ∃ irq, d.pulseIrqUnlessDma = { d with irq } :=
  ⟨_, pulseIrqUnlessDma_irq d⟩

theorem pulseIrqUnlessDma_unit (d : IdeDrive β) : d.pulseIrqUnlessDma.toIdeUnit = d.toIdeUnit := by
  obtain ⟨irq, pulsed⟩ := pulseIrqUnlessDma_eq d
  rw [pulsed]

/-- The status while a sector can be moved, and after the last one. -/
def requesting (d : IdeDrive β) : U8 := (d.reg.status.setBit Status.DRQ true).setBit Status.BSY false

theorem finishSector_last (one : d.remainingSectors = 1) :
    ∃ irq, d.finishSector = .ok { d with
      iobuf := d.iobuf.newTransfer
      state := .idle
      remainingSectors := 0
      reg.status := (d.requesting.setBit Status.DRDY true).setBit Status.DRQ false
      irq
      dmarq := d.dmarq.clear } () := by
  obtain ⟨irq, pulsed⟩ := pulseIrqUnlessDma_eq { d with
    iobuf := d.iobuf.newTransfer, state := .writeReady, reg.status := d.requesting }
  unfold requesting at pulsed
  exact ⟨irq.clear.assert, by rw [finishSector, pulsed, one]; rfl⟩

theorem finishSector_more (two : 2 ≤ d.remainingSectors) :
    ∃ irq, d.finishSector = .ok { d with
      iobuf := d.iobuf.newTransfer
      state := .writeReady
      remainingSectors := d.remainingSectors - 1
      reg.status := d.requesting
      irq } () := by
  obtain ⟨irq, pulsed⟩ := pulseIrqUnlessDma_eq { d with
    iobuf := d.iobuf.newTransfer, state := .writeReady, reg.status := d.requesting }
  obtain ⟨left, sectors⟩ := Nat.exists_eq_add_of_le' two
  unfold requesting at pulsed
  refine ⟨irq, ?_⟩
  rw [finishSector, pulsed, sectors]
  rfl

variable [BlockDev β]

theorem dataRead8_inside (ready : d.state = .readReady) (room : d.iobuf.idx + 1 < 512) :
    ∃ ret, d.iobuf.buf[d.iobuf.idx]? = some ret ∧
      d.dataRead8 = .ok { d with iobuf.idx := d.iobuf.idx + 1 } ret := by
  obtain ⟨ret, get, read⟩ := IdeIoBuf.read8_of_inside (b := d.iobuf) (by omega)
  refine ⟨ret, get, ?_⟩
  unfold dataRead8
  rw [if_neg (not_not_intro ready), read]
  simp only [IdeIoBuf.isDoneTransfer, decide_eq_true_eq]
  rw [if_neg (Nat.not_le_of_lt room)]

theorem dataRead8_end (ready : d.state = .readReady) (last : d.iobuf.idx = 511) :
    ∃ ret, d.iobuf.buf[d.iobuf.idx]? = some ret ∧ d.dataRead8 = match d.remainingSectors with
      | 0 => .panic "attempt to subtract with overflow"
      | 1 => .ok { d with iobuf.idx := 512, remainingSectors := 0 }.finishRead ret
      | left + 2 =>
        { d with iobuf.idx := 512, remainingSectors := left + 1 }.loadNext.map fun _ => ret := by
  obtain ⟨ret, get, read⟩ := IdeIoBuf.read8_of_inside (b := d.iobuf) (by omega)
  refine ⟨ret, get, ?_⟩
  unfold dataRead8
  rw [if_neg (not_not_intro ready), read, last]
  rfl

theorem dataRead8_past (past : 512 ≤ d.iobuf.idx) : ¬ d.dataRead8.Returns := by
  unfold dataRead8
  rw [IdeIoBuf.read8_past past]
  split
  · exact returns_raise _ _
  · exact returns_raise _ _

theorem dataWrite8_inside (ready : d.state = .writeReady) (room : d.iobuf.idx + 1 < 512) (val : U8) :
    d.dataWrite8 val = .ok { d with iobuf := d.iobuf.put val } () := by
  unfold dataWrite8
  rw [if_neg (not_not_intro ready), IdeIoBuf.write8_of_inside (by omega)]
  simp only [IdeIoBuf.isDoneTransfer, decide_eq_true_eq]
  exact if_neg (Nat.not_le_of_lt room)

theorem dataWrite8_end (ready : d.state = .writeReady) (last : d.iobuf.idx = 511) (val : U8) :
    d.dataWrite8 val =
      if d.remainingSectors = 0 then .panic "assertion failed: self.remaining_sectors != 0"
      else { d with
        iobuf := d.iobuf.put val
        reg.status := (d.reg.status.setBit Status.DRQ false).setBit Status.BSY true
        state := .writeAsyncFlush }.storeSector.bind fun d _ => d.finishSector := by
  unfold dataWrite8
  rw [if_neg (not_not_intro ready), IdeIoBuf.write8_of_inside (by omega)]
  simp only [IdeIoBuf.isDoneTransfer, decide_eq_true_eq]
  rw [if_pos]
  exact Nat.le_of_eq (congrArg (· + 1) last).symm

end IdeDrive
end Clicky
