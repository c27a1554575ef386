import Clicky.Accesses
import Clicky.Ide.Request

/-! IDE DMA over whole runs. The DMA section of a step answers a rising edge of the request
line, and forgets the edge before it moves one halfword. The line then stays high, so no second
halfword is moved. -/
namespace Clicky
open Runs Outcome

/-- More is left to transfer than the edges seen so far will move. -/
def EIDECon.Short {β : Type} (s : EIDECon β) : Prop :=
  s.ide.dmarq.kind = .hi ∧ (if s.ide.dmarq.trigger then 2 else 0) < s.dmaLength.toNat

theorem EIDECon.updateIrqLatch_short {β : Type} {s : EIDECon β} (short : s.Short) :
    s.updateIrqLatch.Short := by
  unfold Short
  rwa [updateIrqLatch_ide, updateIrqLatch_dmaLength]

namespace Ipod4gBus

variable {β ρ : Type} [Peripherals ρ]

/-- A transfer from the drive writes memory, one to the drive reads it. -/
def dmaPhys (s : Ipod4gBus β ρ) (kind : MemAccessKind) (addr : U32) : Except MemException U32 :=
  if kind = .read then s.writePhys addr else s.readPhys addr

def ramAt (s : Ipod4gBus β ρ) (phys : U32) : Option U8 :=
  let region := Region.ofPhys phys
  let offset := (phys - region.start).toNat
  match region with
  | .sdram => some (s.sdram.mem offset)
  | .fastram => some (s.fastram.mem offset)
  | _ => none

def dmaByte (s : Ipod4gBus β ρ) (kind : MemAccessKind) (addr : U32) : Option U8 :=
  match s.dmaPhys kind addr with
  | .ok phys => s.ramAt phys
  | .error _ => none

def DmaElsewhere (s : Ipod4gBus β ρ) (kind : MemAccessKind) (addr : U32) : Prop :=
  ∀ phys, s.dmaPhys kind addr = .ok phys → Region.ofPhys phys ≠ .eidecon

theorem elsewhere_of_dmaByte {s : Ipod4gBus β ρ} {kind : MemAccessKind} {addr : U32}
    (mapped : (s.dmaByte kind addr).isSome) : s.DmaElsewhere kind addr := by
  intro phys reached there
  rw [dmaByte, reached] at mapped
  simp [ramAt, there] at mapped

variable [BlockDev β]

theorem w16_eidecon {s : Ipod4gBus β ρ} {addr : U32} (elsewhere : s.DmaElsewhere .read addr)
    (val : U16) : (s.w16 addr val).Leaves fun s' => s'.eidecon = s.eidecon := by
  apply routeTo_eidecon (a := .w16 addr val)
  rintro ⟨s', phys, reached, there⟩
  exact elsewhere phys (done.inj reached).2 there

theorem r16_eidecon {s : Ipod4gBus β ρ} {addr : U32} (elsewhere : s.DmaElsewhere .write addr) :
    (s.r16 addr).Leaves fun s' => s'.eidecon = s.eidecon := by
  apply routeTo_eidecon (a := .r16 addr)
  rintro ⟨s', phys, reached, there⟩
  exact elsewhere phys (done.inj reached).2 there

theorem moveHalfword_spent {s : Ipod4gBus β ρ} {kind : MemAccessKind} {addr : U32}
    (spent : s.eidecon.ide.dmarq.Spent) (elsewhere : s.DmaElsewhere kind addr) :
    (s.moveHalfword kind addr).Leaves fun s' =>
      s'.eidecon.ide.dmarq.Spent ∧ s'.eidecon.dmaLength = s.eidecon.dmaLength := by
  cases kind with
  | read =>
    have drive : ((s.eidecon.ide.read16 .data).zoom s.putIde).Leaves fun s' =>
        s'.eidecon.ide.dmarq.Spent ∧ s'.eidecon.dmaLength = s.eidecon.dmaLength ∧
          s'.DmaElsewhere .read addr := by
      rw [leaves_zoom]
      exact (IdeController.readData_spent spent).mono fun _ kept => ⟨kept, rfl, elsewhere⟩
    refine (drive.orPanic _).bind (fun _ h => ⟨h.1, h.2.1⟩) fun s' val _ kept => ?_
    refine ((w16_eidecon kept.2.2 val).mono fun s'' same => ?_).orPanic _
    rw [same]
    exact ⟨kept.1, kept.2.1⟩
  | write =>
    refine ((r16_eidecon elsewhere).orPanic _).bind ?_ fun s' val _ kept => ?_
    · intro s' kept
      rw [kept]
      exact ⟨spent, rfl⟩
    · apply Leaves.orPanic
      rw [leaves_zoom]
      have spent' : s'.eidecon.ide.dmarq.Spent := kept ▸ spent
      have length : s'.eidecon.dmaLength = s.eidecon.dmaLength := by rw [kept]
      exact (IdeController.writeData_spent spent' val).mono fun _ h => ⟨h, length⟩
  | execute => exact leaves_panic _ _

theorem ideDma_short {s : Ipod4gBus β ρ} (short : s.eidecon.Short)
    (elsewhere : s.DmaElsewhere s.eidecon.dmaKind s.eidecon.dmaAddr) :
    s.ideDma.Leaves fun s' => s'.eidecon.Short := by
  obtain ⟨hi, left⟩ := short
  rcases s.ideDma_cases with ⟨_, same⟩ | ⟨_, _, same⟩ | ⟨pending, _, ⟨_, moved⟩ | ⟨_, m, stopped⟩⟩
  · rw [same, leaves_done]
    exact ⟨hi, left⟩
  · rw [same, leaves_done]
    exact ⟨hi, Nat.lt_of_le_of_lt (Nat.zero_le _) left⟩
  · rw [moved]
    rw [if_pos pending] at left
    have spent : s.asked.eidecon.ide.dmarq.Spent := ⟨hi, rfl⟩
    refine (moveHalfword_spent spent elsewhere).mono fun s' kept => ⟨kept.1.kind, ?_⟩
    rw [kept.1.trigger, kept.2]
    change 0 < (s.eidecon.dmaLength - 2).toNat
    bv_omega
  · rw [stopped]
    exact leaves_panic _ _

end Ipod4gBus

namespace Ipod4g

section
variable {β ρ : Type} [BlockDev β] [Peripherals ρ]

/-- In this step no core touches the EIDE controller, and the DMA address is one of RAM. -/
def Quiet (s : Ipod4g β ρ) (input : StepInput ρ) : Prop :=
  s.EachAccess (fun m a => ¬ m.TouchesIde a) input ∧
    ∀ s', s.runCores input = .ok s' true →
      let bus := (s'.runTasks input).devices
      (bus.dmaByte bus.eidecon.dmaKind bus.eidecon.dmaAddr).isSome

theorem step_short {s s' : Ipod4g β ρ} {input : StepInput ρ} (short : s.devices.eidecon.Short)
    (quiet : s.Quiet input) (taken : s.stepState input = some s') : s'.devices.eidecon.Short := by
  suffices left : (s.step input).Leaves fun s' => s'.devices.eidecon.Short from left s' taken
  unfold step
  refine (runCores_eidecon quiet.1).bind (fun _ kept => kept ▸ short) fun s₁ on ran kept => ?_
  have short₁ : s₁.devices.eidecon.Short := kept ▸ short
  cases on with
  | false => exact (leaves_done ..).mpr short₁
  | true =>
    have elsewhere := Ipod4gBus.elsewhere_of_dmaByte (quiet.2 s₁ ran)
    have moved := Ipod4gBus.ideDma_short (s := (s₁.runTasks input).devices) short₁ elsewhere
    rw [if_pos rfl]
    refine Leaves.bind (P := fun s : Ipod4g β ρ => s.devices.eidecon.Short)
      (leaves_zoom.mpr moved) (fun _ h => h) fun s₂ _ _ short₂ => ?_
    exact (leaves_done ..).mpr (EIDECon.updateIrqLatch_short short₂)

end

variable {ρ : Type} [Peripherals ρ]

def drive? (s : Ipod4g Mem ρ) : Option (IdeDrive Mem) :=
  let ide := s.devices.eidecon.ide
  (ide.unit? ide.selectedDevice).map ide.lend

/-- Everything is set up to move `n` sectors, from sector `lba` on, to or from memory at `addr`.
The registers of the DMA engine itself are stubs. -/
structure Programmed (s : Ipod4g Mem ρ) (kind : MemAccessKind) (n lba : Nat) (addr : U32) : Prop where
  awake : s.frozen = false ∧ s.skipIrqCheck = false
  count : 1 ≤ n ∧ n ≤ 256
  even : addr.toNat % 2 = 0
  drive : ∃ d, s.drive? = some d ∧ d.state = .idle ∧ d.reg.status.getBit Status.BSY = false ∧
    d.cfg.transferMode.isDma = true ∧ d.sectors = n ∧ d.getSectorOffset = some lba ∧
    512 * (lba + n) ≤ d.blockdev.data.length
  unrequested : s.devices.eidecon.ide.dmarq = Line.new .hi
  direction : s.devices.eidecon.dmaKind = kind
  length : s.devices.eidecon.dmaLength.toNat = 512 * n
  address : s.devices.eidecon.dmaAddr = addr
  mapped : ∀ i < 512 * n, (s.devices.dmaByte kind (addr + BitVec.ofNat 32 i)).isSome

structure Completed (s : Ipod4g Mem ρ) (kind : MemAccessKind) (n lba : Nat) (addr : U32) : Prop where
  moved : ∃ d, s.drive? = some d ∧ ∀ i < 512 * n, ∃ b,
    s.devices.dmaByte kind (addr + BitVec.ofNat 32 i) = some b ∧
      d.blockdev.data[512 * lba + i]? = some b
  length : s.devices.eidecon.dmaLength = 0
  request : s.devices.eidecon.ide.dmarq.asserted = false

/-- After the command, some run in which the cores keep away completes the transfer. -/
def DmaCompletes (s : Ipod4g Mem ρ) (kind : MemAccessKind) (n lba : Nat) (addr : U32) : Prop :=
  ∃ eidecon inputs s',
    s.devices.eidecon.w32 0x1fc ((IdeDrive.dmaCmd kind).setWidth 32) = .ok eidecon () ∧
      EveryStep stepState Quiet { s with devices.eidecon := eidecon } inputs ∧
      run stepState { s with devices.eidecon := eidecon } inputs = some s' ∧
      s'.Completed kind n lba addr

theorem command_short {eidecon eidecon' : EIDECon Mem} {kind : MemAccessKind}
    (hi : eidecon.ide.dmarq.kind = .hi) (length : 2 < eidecon.dmaLength.toNat)
    (issued : eidecon.w32 0x1fc ((IdeDrive.dmaCmd kind).setWidth 32) = .ok eidecon' ()) :
    eidecon'.Short := by
  have command : eidecon.w32 0x1fc ((IdeDrive.dmaCmd kind).setWidth 32) =
      (eidecon.ide.write8 .command (IdeDrive.dmaCmd kind)).zoom eidecon.putIde := by
    cases kind <;> rfl
  have kept : (eidecon.ide.write8 .command (IdeDrive.dmaCmd kind)).Leaves fun ide =>
      ide.dmarq.kind = .hi :=
    IdeController.onSelected_leaves (P := fun l => l.kind = .hi) hi fun _ here =>
      IdeDrive.execCmd_dmaCmd here kind
  rw [command] at issued
  obtain ⟨ide, done, rfl⟩ := zoom_eq_done.mp issued
  refine ⟨kept ide (by rw [done]; rfl), ?_⟩
  change (if ide.dmarq.trigger then 2 else 0) < eidecon.dmaLength.toNat
  split <;> omega

theorem quiet_run_short {s s' : Ipod4g Mem ρ} {inputs : List (StepInput ρ)}
    (short : s.devices.eidecon.Short) (quiet : EveryStep stepState Quiet s inputs)
    (reached : run stepState s inputs = some s') : s'.devices.eidecon.Short :=
  run_of_everyStep (I := fun s : Ipod4g Mem ρ => s.devices.eidecon.Short)
    (fun _ _ _ short quiet taken => step_short short quiet taken) short quiet reached

/-- One edge of the request line moves two bytes, and there is no second one. -/
theorem quiet_run_incomplete {s : Ipod4g Mem ρ} (hi : s.devices.eidecon.ide.dmarq.kind = .hi)
    (long : 2 < s.devices.eidecon.dmaLength.toNat) (kind : MemAccessKind) (n lba : Nat)
    (addr : U32) : ¬ s.DmaCompletes kind n lba addr := by
  rintro ⟨eidecon, inputs, s', issued, quiet, reached, completed⟩
  have left := (quiet_run_short (command_short hi long issued) quiet reached).2
  rw [completed.length] at left
  simp at left

theorem dma_never_completes {s : Ipod4g Mem ρ} {kind : MemAccessKind} {n lba : Nat} {addr : U32}
    (programmed : s.Programmed kind n lba addr) : ¬ s.DmaCompletes kind n lba addr := by
  have hi : s.devices.eidecon.ide.dmarq.kind = .hi := by rw [programmed.unrequested]; rfl
  have long : 2 < s.devices.eidecon.dmaLength.toNat := by
    have some := programmed.count.1
    rw [programmed.length]
    omega
  exact quiet_run_incomplete hi long kind n lba addr

def armed : Ipod4g Mem Stub :=
  let drive : IdeUnit Mem :=
    { blockdev := Mem.new (zeroBytes 512)
      reg := { sectorCount := 1, lba3DevHead := 0x40 }
      cfg := { transferMode := .dmaMultiWord 2 } }
  let bus : Ipod4gBus Mem Stub := .new (Line.new .hi) (Line.new .hi) {}
  { devices := { bus with
      eidecon.ide.ide0 := some drive
      eidecon.dmaControl := 0x8
      eidecon.dmaLength := 512
      eidecon.dmaAddr := 0x10000000 } }

theorem armed_programmed : armed.Programmed .read 1 0 0x10000000 where
  awake := ⟨rfl, rfl⟩
  count := by omega
  even := rfl
  drive := ⟨_, rfl, rfl, rfl, rfl, rfl, rfl, (length_zeroBytes 512).ge⟩
  unrequested := rfl
  direction := rfl
  length := rfl
  address := rfl
  mapped := by
    intro i small
    have ram : Region.ofPhys (0x10000000 + BitVec.ofNat 32 i) = .sdram := by
      unfold Region.ofPhys
      rw [if_pos (by bv_omega)]
    have phys : armed.devices.dmaPhys .read (0x10000000 + BitVec.ofNat 32 i) =
        .ok (0x10000000 + BitVec.ofNat 32 i) := by
      have identity : armed.devices.memcon.virtToPhys (0x10000000 + BitVec.ofNat 32 i) .write = _ :=
        MemConImpl.virtToPhys_of_none (s := {}) (fun _ => rfl) _ _
      unfold Ipod4gBus.dmaPhys Ipod4gBus.writePhys
      rw [if_pos rfl, identity]
      rfl
    unfold Ipod4gBus.dmaByte Ipod4gBus.ramAt
    rw [phys]
    dsimp only
    rw [ram]
    rfl

theorem armed_never_completes : ¬ armed.DmaCompletes .read 1 0 0x10000000 :=
  dma_never_completes armed_programmed

set_option maxRecDepth 20000 in
theorem armed_read_incomplete :
    armed.Programmed .read 1 0 0x10000000 ∧
      (∃ eidecon, armed.devices.eidecon.w32 0x1fc 0xc8 = .ok eidecon ()) ∧
      ¬ armed.DmaCompletes .read 1 0 0x10000000 :=
  ⟨armed_programmed, ⟨_, rfl⟩, quiet_run_incomplete rfl (by decide) .read 1 0 0x10000000⟩

end Ipod4g
end Clicky
