import Clicky.Accesses
import Clicky.Ide.Halfword

/-! When the DMA section of a step gets through: what the registers of the controller, the drive
and the memory map have to be like for none of its panics to be met. -/
namespace Clicky
open Runs Outcome

theorem IdeController.onSelected_returns {β α : Type} (s : IdeController β)
    (f : IdeDrive β → Access (IdeDrive β) α) :
    (s.onSelected f).Returns ↔
      ∃ u, s.unit? s.selectedDevice = some u ∧ (f (s.lend u)).Returns := by
  unfold onSelected
  cases s.unit? s.selectedDevice <;> simp

variable {β ρ : Type} [BlockDev β] [Peripherals ρ]

namespace IdeController

def ReadsHalfword (s : IdeController β) : Prop :=
  ∃ u, s.unit? s.selectedDevice = some u ∧ (s.lend u).Readable (s.lend u).width

def WritesHalfword (s : IdeController β) (val : U16) : Prop :=
  ∃ u, s.unit? s.selectedDevice = some u ∧ (u.cfg.eightbit = true → val ≤ 0xff) ∧
    (s.lend u).Writable ((s.lend u).halfwordBytes val)

theorem readData_ok_iff (s : IdeController β) : (s.read16 .data).Returns ↔ s.ReadsHalfword :=
  calc (s.read16 .data).Returns
    _ ↔ ∃ u, s.unit? s.selectedDevice = some u ∧ (s.lend u).dataRead16.Returns :=
      s.onSelected_returns fun d => d.dataRead16
    _ ↔ s.ReadsHalfword :=
      exists_congr fun u => and_congr_right fun _ => (s.lend u).dataRead16_ok_iff

theorem writeData_ok_iff (s : IdeController β) (val : U16) :
    (s.write16 .data val).Returns ↔ s.WritesHalfword val :=
  calc (s.write16 .data val).Returns
    _ ↔ ∃ u, s.unit? s.selectedDevice = some u ∧ ((s.lend u).dataWrite16 val).Returns :=
      s.onSelected_returns fun d => d.dataWrite16 val
    _ ↔ s.WritesHalfword val :=
      exists_congr fun u => and_congr_right fun _ => (s.lend u).dataWrite16_ok_iff val

end IdeController

/-- The address and the value of a write, as a device with 32 bit registers sees them. -/
def GuestAccess.written : GuestAccess → Option (U32 × U32)
  | .w8 addr val => some (addr, val.setWidth 32)
  | .w16 addr val => some (addr, val.setWidth 32)
  | .w32 addr val => some (addr, val)
  | _ => none

namespace Ipod4gBus

/-- Memory at this address takes the halfword: the second byte is still in the same RAM, or a
device has a register there that can be written. The memory controller has none. -/
def TakesHalfword (s : Ipod4gBus β ρ) (addr : U32) (val : U16) : Prop :=
  ∃ phys, s.writePhys addr = .ok phys ∧
    let region := Region.ofPhys phys
    let offset := phys - region.start
    match region with
    | .sdram => offset.toNat + 2 ≤ s.sdram.size
    | .fastram => offset.toNat + 2 ≤ s.fastram.size
    | .eidecon => (Memory.w16 s.eidecon offset val).Returns
    | .memcon => False
    | .rest => (Memory.w16 s.rest offset val).Returns

/-- There is a halfword to be read at this address: in RAM both bytes have been written before,
and a device has a register there that can be read. -/
def GivesHalfword (s : Ipod4gBus β ρ) (addr : U32) : Prop :=
  ∃ phys, s.readPhys addr = .ok phys ∧
    let region := Region.ofPhys phys
    let offset := phys - region.start
    match region with
    | .sdram => s.sdram.Written offset.toNat
    | .fastram => s.fastram.Written offset.toNat
    | .eidecon => (Memory.r16 s.eidecon offset).Returns
    | .memcon => (Memory.r16 s.memcon offset).Returns
    | .rest => (Memory.r16 s.rest offset).Returns

theorem w16_ok_iff (s : Ipod4gBus β ρ) (addr : U32) (val : U16) :
    (s.w16 addr val).Returns ↔ s.TakesHalfword addr val := by
  unfold w16 routeTo TakesHalfword
  cases s.writePhys addr with
  | error e => simp
  | ok phys =>
    rw [bind_ok]
    unfold route
    simp only [Except.ok.injEq, exists_eq_left']
    cases Region.ofPhys phys with
    | sdram => exact returns_zoom.trans (s.sdram.w16_ok_iff _ val)
    | fastram => exact returns_zoom.trans (s.fastram.w16_ok_iff _ val)
    | eidecon | rest => exact returns_zoom
    | memcon =>
      refine iff_of_false (fun done => ?_) id
      obtain ⟨m, e, raised⟩ := s.memcon.w16_raises (phys - Region.memcon.start) val
      have done' := returns_zoom.mp done
      rw [raised] at done'
      exact returns_raise m e done'

theorem r16_ok_iff (s : Ipod4gBus β ρ) (addr : U32) :
    (s.r16 addr).Returns ↔ s.GivesHalfword addr := by
  unfold r16 routeTo GivesHalfword
  cases s.readPhys addr with
  | error e => simp
  | ok phys =>
    rw [bind_ok]
    unfold route
    simp only [Except.ok.injEq, exists_eq_left']
    cases Region.ofPhys phys with
    | sdram => exact returns_zoom.trans (s.sdram.r16_ok_iff _)
    | fastram => exact returns_zoom.trans (s.fastram.r16_ok_iff _)
    | eidecon | memcon | rest => exact returns_zoom

def MovesHalfword (s : Ipod4gBus β ρ) (addr : U32) : MemAccessKind → Prop
  | .read => s.eidecon.ide.ReadsHalfword ∧
    ∀ ide val, s.eidecon.ide.read16 .data = .ok ide val → (s.putIde ide).TakesHalfword addr val
  | .write => s.GivesHalfword addr ∧
    ∀ s' val, s.r16 addr = .ok s' val → s'.eidecon.ide.WritesHalfword val
  | .execute => False

theorem moveHalfword_ok_iff (s : Ipod4gBus β ρ) (kind : MemAccessKind) (addr : U32) :
    (s.moveHalfword kind addr).Returns ↔ s.MovesHalfword addr kind := by
  cases kind with
  | read =>
    unfold moveHalfword MovesHalfword
    rw [returns_bind, returns_orPanic, returns_zoom, IdeController.readData_ok_iff]
    refine and_congr_right fun _ => ⟨fun h ide val read => ?_, fun h s' val moved => ?_⟩
    · rw [← w16_ok_iff]
      exact returns_orPanic.mp (h _ val (orPanic_eq_ok.mpr (by rw [read]; rfl)))
    · obtain ⟨ide, read, rfl⟩ := zoom_eq_done.mp (orPanic_eq_ok.mp moved)
      rw [returns_orPanic, w16_ok_iff]
      exact h ide val read
  | write =>
    unfold moveHalfword MovesHalfword
    rw [returns_bind, returns_orPanic, r16_ok_iff]
    refine and_congr_right fun _ => ⟨fun h s' val read => ?_, fun h s' val moved => ?_⟩
    · rw [← IdeController.writeData_ok_iff, ← returns_zoom, ← returns_orPanic]
      exact h s' val (orPanic_eq_ok.mpr read)
    · rw [returns_orPanic, returns_zoom, IdeController.writeData_ok_iff]
      exact h s' val (orPanic_eq_ok.mp moved)
  | execute => exact iff_of_false (returns_panic _) id

/-- A pending request finds the registers programmed, and drive and memory ready. -/
def Calm (s : Ipod4gBus β ρ) : Prop :=
  s.eidecon.ide.dmarq.trigger = true → s.eidecon.ide.dmarq.ownSignal = true →
    DmaRegisters s.eidecon ∧ s.asked.MovesHalfword s.eidecon.dmaAddr s.eidecon.dmaKind

theorem ideDma_ok_iff (s : Ipod4gBus β ρ) : s.ideDma.Returns ↔ s.Calm := by
  unfold Calm
  rcases s.ideDma_cases with
    ⟨quiet, same⟩ | ⟨_, low, same⟩ | ⟨pending, high, ⟨regs, moved⟩ | ⟨wrong, m, stopped⟩⟩
  · rw [same, quiet]
    simp
  · rw [same, low]
    simp
  · rw [moved, pending, high, moveHalfword_ok_iff]
    simp [regs]
  · rw [stopped, pending, high]
    simp [wrong]

def WritesLength (s : Ipod4gBus β ρ) (a : GuestAccess) (val : U32) : Prop :=
  ∃ addr, a.written = some (addr, val) ∧ s.writePhys addr = .ok 0xc3000408

/-- A write to the DMA length register comes to an end: its `val + 4` does not overflow. -/
def LengthSafe (s : Ipod4gBus β ρ) (a : GuestAccess) : Prop :=
  ∀ val, s.WritesLength a val → (({ mem := s } : MemoryAdapter (Ipod4gBus β ρ)).perform a).Returns

def LengthFits (s : Ipod4gBus β ρ) (a : GuestAccess) : Prop :=
  ∀ val, s.WritesLength a val → val ≤ 0xfffffffb

theorem perform_length {s : Ipod4gBus β ρ} {a : GuestAccess} {val : U32}
    (writes : s.WritesLength a val) :
    (({ mem := s } : MemoryAdapter (Ipod4gBus β ρ)).perform a).Returns ↔ val ≤ 0xfffffffb := by
  obtain ⟨addr, written, reached⟩ := writes
  have register : (s.eidecon.w32 0x408 val).state?.isSome ↔ val ≤ 0xfffffffb := by
    change (if val.toNat + 4 ≥ 2 ^ 32 then Outcome.panic overflow
      else Outcome.ok { s.eidecon with dmaLength := val + 4 } ()).state?.isSome ↔ _
    split
    · rename_i high
      refine iff_of_false (fun impossible => by cases impossible) fun low => ?_
      have := BitVec.le_def.mp low
      simp at this
      omega
    · rename_i low
      refine iff_of_true rfl (BitVec.le_def.mpr ?_)
      simp
      omega
  rw [← register]
  have route (op : ∀ (M : Type) [Memory M], M → U32 → Access M Unit) :
      routeTo (.done s (s.writePhys addr)) op =
        (op (EIDECon β) s.eidecon 0x408).zoom fun eidecon => { s with eidecon } := by
    rw [reached]
    rfl
  cases a with
  | w8 addr' v | w16 addr' v | w32 addr' v =>
    cases written
    refine (MemoryAdapter.write_returns ..).trans ?_
    change (routeTo (.done s (s.writePhys _)) _).state?.isSome = true ↔ _
    rw [route, isSome_state?_zoom]
    exact Iff.rfl
  | r8 | r16 | r32 | x16 | x32 => cases written

theorem lengthSafe_iff (s : Ipod4gBus β ρ) (a : GuestAccess) : s.LengthSafe a ↔ s.LengthFits a :=
  forall_congr' fun _ => forall_congr' fun writes => perform_length writes

end Ipod4gBus

namespace Ipod4g

/-- No write of the cores to the length register overflows, and the DMA section, if the step gets
to it, comes to its end. -/
def DmaSafe (s : Ipod4g β ρ) (input : StepInput ρ) : Prop :=
  s.EachAccess Ipod4gBus.LengthSafe input ∧
    ∀ s', s.runCores input = .ok s' true → (s'.runTasks input).devices.ideDma.Returns

def DmaCalm (s : Ipod4g β ρ) (input : StepInput ρ) : Prop :=
  s.EachAccess Ipod4gBus.LengthFits input ∧
    ∀ s', s.runCores input = .ok s' true → (s'.runTasks input).devices.Calm

theorem dmaSafe_iff (s : Ipod4g β ρ) (input : StepInput ρ) : s.DmaSafe input ↔ s.DmaCalm input := by
  have lengths : (Ipod4gBus.LengthSafe : Ipod4gBus β ρ → GuestAccess → Prop) =
      Ipod4gBus.LengthFits :=
    funext₂ fun m a => propext (m.lengthSafe_iff a)
  unfold DmaSafe DmaCalm
  rw [lengths]
  exact and_congr_right fun _ => forall_congr' fun s' => forall_congr' fun _ =>
    (s'.runTasks input).devices.ideDma_ok_iff

/-- The steps of a run get through their DMA sections exactly when each of them finds its
registers, its drive and its memory in order. -/
theorem dma_sections_safe_iff (s : Ipod4g β ρ) (inputs : List (StepInput ρ)) :
    BeforeEach stepState DmaSafe s inputs ↔ BeforeEach stepState DmaCalm s inputs :=
  beforeEach_iff (I := fun _ => True) (fun _ _ _ _ _ => trivial)
    (fun s input _ => s.dmaSafe_iff input) inputs trivial

def poweredUp : Ipod4g Mem Stub :=
  let bus : Ipod4gBus Mem Stub := .new (Line.new .hi) (Line.new .hi) {}
  { devices := bus.putIde (bus.eidecon.ide.attach .ide0 (Mem.new (zeroBytes 512))).1 }

def guestWrites (addr val : U32) : StepInput Stub :=
  { accesses := fun id => if id = .cpu then [.w32 addr val] else [] }

set_option maxRecDepth 20000 in
/-- A transfer mode with DMA is set, then a sector read, with the DMA registers never written. -/
theorem dma_without_length_panics :
    ¬ BeforeEach stepState DmaSafe poweredUp
      [guestWrites 0xc30001e4 0x3, guestWrites 0xc30001e8 0x22, guestWrites 0xc30001fc 0xef,
        guestWrites 0xc30001f8 0x40, guestWrites 0xc30001fc 0xc8] := by
  rintro ⟨_, h⟩
  obtain ⟨_, h⟩ := h _ rfl
  obtain ⟨_, h⟩ := h _ rfl
  obtain ⟨_, h⟩ := h _ rfl
  obtain ⟨safe, _⟩ := h _ rfl
  obtain ⟨s, a, returned⟩ := safe.2 _ rfl
  cases returned

end Ipod4g

end Clicky
