import Clicky.Ide.Request
import Clicky.Ide.Interrupt

/-! The interrupt disable bit of Device Control. A drive keeps it in its registers, and no path to
the interrupt line looks at it. -/
namespace Clicky
open Outcome Runs

/-- What a write to Device Control says of the interrupts of the drive. -/
def IdeAccess.disables : IdeAccess → Option Bool
  | .write8 .devControl val | .write8 .altStatus val => some (val.getBit 1)
  | .write16 .devControl val | .write16 .altStatus val => some ((val.setWidth 8 : U8).getBit 1)
  | _ => none

namespace IdeDrive

variable {β : Type} {d : IdeDrive β} {body : IdeDrive β → Access (IdeDrive β) Unit}

theorem multiple_nein (unset stubbed : String)
    (command : ∀ d₁ : IdeDrive β, (body d₁).Leaves fun d' => d'.reg.nein = d₁.reg.nein) :
    (d.multiple unset stubbed body).Leaves fun d' => d'.reg.nein = d.reg.nein := by
  unfold multiple
  split
  · exact (leaves_done ..).mpr rfl
  · split
    · exact (leaves_done ..).mpr rfl
    · exact begin_leaves rfl (command _)

theorem dma_nein (unset : String)
    (command : ∀ d₁ : IdeDrive β, (body d₁).Leaves fun d' => d'.reg.nein = d₁.reg.nein) :
    (d.dma unset body).Leaves fun d' => d'.reg.nein = d.reg.nein := by
  unfold dma
  split
  · exact (leaves_done ..).mpr rfl
  · exact begin_leaves rfl (command _)

theorem setMultipleMode_nein (d : IdeDrive β) :
    d.setMultipleMode.Leaves fun d' => d'.reg.nein = d.reg.nein := by
  simp only [setMultipleMode]
  split <;> exact (leaves_done ..).mpr rfl

theorem setFeatures_nein (d : IdeDrive β) :
    d.setFeatures.Leaves fun d' => d'.reg.nein = d.reg.nein := by
  unfold setFeatures
  split <;> exact (leaves_done ..).mpr rfl

variable [BlockDev β]

theorem dispatch_nein (cmd : U8) (d : IdeDrive β) :
    (dispatch cmd d).Leaves fun d' => d'.reg.nein = d.reg.nein := by
  have reads : ∀ d₁ : IdeDrive β, d₁.readSectors.Leaves fun d' => d'.reg.nein = d₁.reg.nein :=
    fun d₁ => (readSectors_starts d₁).mono fun _ h => h.1.nein
  have writes : ∀ d₁ : IdeDrive β, d₁.writeSectors.Leaves fun d' => d'.reg.nein = d₁.reg.nein :=
    fun d₁ => (writeSectors_starts d₁).mono fun _ h => h.1.nein
  unfold dispatch
  cases IdeCmd.tryFrom cmd with
  | none => exact (leaves_done ..).mpr rfl
  | some known =>
    cases known with
    | readMultiple => exact multiple_nein _ _ reads
    | writeMultiple => exact multiple_nein _ _ writes
    | readSectors => exact reads d
    | readSectorsNoRetry => exact reads d
    | writeSectors => exact writes d
    | writeSectorsNoRetry => exact writes d
    | readDMA => exact dma_nein _ reads
    | readDMANoRetry => exact dma_nein _ reads
    | writeDMA => exact dma_nein _ writes
    | writeDMANoRetry => exact dma_nein _ writes
    | setMultipleMode => exact setMultipleMode_nein d
    | setFeatures => exact setFeatures_nein d
    | _ => exact (leaves_done ..).mpr rfl

theorem read8_nein (d : IdeDrive β) (reg : IdeReg) :
    (d.read8 reg).Leaves fun d' => d'.reg.nein = d.reg.nein := by
  cases reg with
  | data => exact (dataRead8_requests d).mono fun _ step => step.setUp.nein
  | _ => exact (leaves_done ..).mpr rfl

theorem write8_nein (d : IdeDrive β) (val : U8) (reg : IdeReg) :
    (d.write8 val reg).Leaves fun d' =>
      d'.reg.nein = (IdeAccess.write8 reg val).disables.getD d.reg.nein := by
  have command : (d.execCmd val).Leaves fun d' => d'.reg.nein = d.reg.nein :=
    begin_leaves rfl (dispatch_nein val _)
  cases reg with
  | data => exact (dataWrite8_requests d val).mono fun _ step => step.setUp.nein
  | command => exact command
  | status => exact command
  | _ => exact (leaves_done ..).mpr rfl

theorem dataRead16_nein (d : IdeDrive β) : d.dataRead16.Leaves fun d' => d'.reg.nein = d.reg.nein :=
  dataRead16_leaves (fun _ _ here step => step.setUp.nein.trans here) rfl

theorem dataWrite16_nein (d : IdeDrive β) (val : U16) :
    (d.dataWrite16 val).Leaves fun d' => d'.reg.nein = d.reg.nein :=
  dataWrite16_leaves (fun _ _ here step => step.setUp.nein.trans here) rfl val

end IdeDrive

/-- The controller, and beside it the drives the guest has disabled the interrupts of. -/
structure IdeGuest (β : Type) where
  ide : IdeController β
  disabled : IdeIdx → Bool := fun _ => false

namespace IdeGuest

variable {β : Type} [BlockDev β]

def tell (said : Option Bool) (drive : IdeIdx) (disabled : IdeIdx → Bool) (idx : IdeIdx) : Bool :=
  if idx = drive then said.getD (disabled idx) else disabled idx

theorem tell_none (drive : IdeIdx) (disabled : IdeIdx → Bool) : tell none drive disabled = disabled := by
  funext idx
  unfold tell
  split <;> rfl

def step (g : IdeGuest β) (a : IdeAccess) : Option (IdeGuest β) :=
  (g.ide.accessStep a).map fun ide =>
    { ide, disabled := tell a.disables g.ide.selectedDevice g.disabled }

/-- Every drive holds in `nein` what the guest last told it. -/
def Recorded (s : IdeController β) (disabled : IdeIdx → Bool) : Prop :=
  ∀ idx u, s.unit? idx = some u → u.reg.nein = disabled idx

omit [BlockDev β] in
theorem onSelected_recorded {α : Type} {s : IdeController β} {disabled : IdeIdx → Bool}
    {f : IdeDrive β → Access (IdeDrive β) α} {said : Option Bool} (recorded : Recorded s disabled)
    (drive : ∀ d, (f d).Leaves fun d' => d'.reg.nein = said.getD d.reg.nein) :
    (s.onSelected f).Leaves fun s' => Recorded s' (tell said s.selectedDevice disabled) := by
  unfold IdeController.onSelected
  cases here : s.unit? s.selectedDevice with
  | none =>
    refine (leaves_done ..).mpr fun idx u there => ?_
    have other : idx ≠ s.selectedDevice := by
      rintro rfl
      rw [here] at there
      cases there
    rw [tell, if_neg other]
    exact recorded idx u there
  | some u₀ =>
    rw [leaves_zoom]
    refine (drive (s.lend u₀)).mono fun d' told idx u there => ?_
    rw [IdeController.putSelected, IdeController.unit?_setUnit] at there
    split at there
    · rename_i same
      subst same
      obtain rfl := Option.some.inj there
      rw [tell, if_pos rfl, told, ← recorded _ u₀ here]
      rfl
    · rename_i other
      rw [tell, if_neg (Ne.symm other)]
      exact recorded idx u there

theorem access_recorded {g : IdeGuest β} (recorded : Recorded g.ide g.disabled) (a : IdeAccess) :
    (g.ide.access a).Leaves fun s' =>
      Recorded s' (tell a.disables g.ide.selectedDevice g.disabled) := by
  have reads : ∀ reg, (g.ide.read8 reg).Leaves fun s' =>
      Recorded s' (tell none g.ide.selectedDevice g.disabled) := fun reg =>
    onSelected_recorded recorded fun d => d.read8_nein reg
  have writes : ∀ reg val, (g.ide.write8 reg val).Leaves fun s' => Recorded s'
      (tell (IdeAccess.write8 reg val).disables g.ide.selectedDevice g.disabled) := by
    intro reg val
    have there : Recorded (g.ide.select reg val) g.disabled := by
      intro idx u there
      rw [IdeController.select_unit?] at there
      exact recorded idx u there
    have drive := onSelected_recorded there fun d => d.write8_nein val reg
    cases reg with
    | deviceHead =>
      simp only [IdeAccess.disables, tell_none] at drive ⊢
      exact drive
    | lba3 =>
      simp only [IdeAccess.disables, tell_none] at drive ⊢
      exact drive
    | _ => exact drive
  cases a with
  | read8 reg => exact leaves_map.mpr (reads reg)
  | write8 reg val => exact leaves_map.mpr (writes reg val)
  | read16 reg =>
    refine leaves_map.mpr ?_
    cases reg with
    | data => exact onSelected_recorded recorded fun d => d.dataRead16_nein
    | _ => exact leaves_map.mpr (reads _)
  | write16 reg val =>
    refine leaves_map.mpr ?_
    cases reg with
    | data =>
      exact onSelected_recorded (f := fun d => d.dataWrite16 val) recorded fun d =>
        d.dataWrite16_nein val
    | _ => exact writes _ _

/-- The drives know: in every run from power-up, `nein` is what the guest wrote. -/
theorem nein_recorded {irq dmarq : Line} {disks : List (IdeIdx × β)} {as : List IdeAccess}
    {g : IdeGuest β} (reached : run step { ide := .powerUp irq dmarq disks } as = some g) :
    Recorded g.ide g.disabled := by
  have fresh : Recorded (.powerUp irq dmarq disks) fun _ => false :=
    IdeController.powerUp_units irq dmarq disks fun _ => rfl
  have preserved : ∀ (g : IdeGuest β) a g', Recorded g.ide g.disabled → g.step a = some g' →
      Recorded g'.ide g'.disabled := by
    intro g a g' recorded taken
    obtain ⟨ide, after, rfl⟩ := Option.map_eq_some_iff.mp taken
    exact access_recorded recorded a ide after
  have always : Always step (fun g : IdeGuest β => Recorded g.ide g.disabled)
      { ide := .powerUp irq dmarq disks } as :=
    always_of_invariant preserved (fun _ here => here) fresh as
  exact always.run reached

/-- Two drives: the guest disables the interrupts of the second one, and has the first one identify
itself. -/
theorem nein_recorded_second : ∃ g : IdeGuest Mem,
    run step
      { ide := .powerUp (Line.new .hi) (Line.new .hi) [(.ide0, Mem.new []), (.ide1, Mem.new [])] }
      [.write8 .deviceHead 0x10, .write8 .devControl 0x02, .write8 .deviceHead 0x00,
        .write8 .command 0xec] = some g ∧ Recorded g.ide g.disabled := by
  obtain ⟨g, reached⟩ : ∃ g, run step
      { ide := .powerUp (Line.new .hi) (Line.new .hi) [(.ide0, Mem.new []), (.ide1, Mem.new [])] }
      [.write8 .deviceHead 0x10, .write8 .devControl 0x02, .write8 .deviceHead 0x00,
        .write8 .command 0xec] = some g := ⟨_, rfl⟩
  exact ⟨g, reached, nein_recorded reached⟩

def disables (g : IdeGuest β) (a : IdeAccess) : Bool := g.disabled (a.selects g.ide.selectedDevice)

/-- The drive the access goes to does not interrupt for it if the guest has disabled that. -/
def Respects (g : IdeGuest β) (a : IdeAccess) : Prop := g.disables a = true → ¬ g.ide.Asserts a

/-- The guest has no access in which a drive would interrupt while that is disabled. -/
def Polls (g : IdeGuest β) (a : IdeAccess) : Prop := g.disables a = true → ¬ g.ide.Interrupts a

theorem respects_iff (g : IdeGuest β) (a : IdeAccess) : g.Respects a ↔ g.Polls a := by
  unfold Respects Polls
  rw [IdeController.asserts_iff]

/-- The bit holds no interrupt back: only a guest that makes no interrupting access while it is set
gets none. -/
theorem disabled_interrupts_iff (s : IdeController β) (as : List IdeAccess) :
    EveryStep step Respects { ide := s } as ↔ EveryStep step Polls { ide := s } as :=
  everyStep_iff (fun g a _ _ => g.respects_iff a) _ as

/-- After power-up the guest disables the interrupts of the drive and has it identify itself. -/
theorem identify_interrupts_while_disabled :
    ¬ EveryStep (step (β := Mem)) Respects
      { ide := IdeController.powerUp (Line.new .hi) (Line.new .hi) [(.ide0, Mem.new [])] }
      [.write8 .devControl 0x02, .write8 .command 0xec] := by
  intro good
  have second := (good _ rfl).2 _ rfl
  refine second.1 rfl ((IdeController.asserts_iff _ _).mpr ⟨_, rfl, rfl, ?_⟩)
  exact trivial

end IdeGuest
end Clicky
