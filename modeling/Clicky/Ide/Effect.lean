import Clicky.Ide.Sector

/-! What one access can do to a drive, as far as its data phase and its status bits go. Both
invariants of the drive follow from this alone. -/
namespace Clicky
open Outcome

def IdeUnit.Mid {β : Type} (u : IdeUnit β) : Prop := u.state = .readReady ∨ u.state = .writeReady

instance {β : Type} (u : IdeUnit β) : Decidable u.Mid :=
  inferInstanceAs (Decidable (u.state = .readReady ∨ u.state = .writeReady))

def IdeUnit.busy {β : Type} (u : IdeUnit β) : Bool := u.reg.status.getBit Status.BSY
def IdeUnit.drq {β : Type} (u : IdeUnit β) : Bool := u.reg.status.getBit Status.DRQ

/-- In the data phase something is left to move, and the buffer has room for it. -/
def IdeUnit.Counted {β : Type} (u : IdeUnit β) : Prop :=
  u.Mid → 1 ≤ u.remainingSectors ∧ u.iobuf.idx < 512

/-- The commands that take DRQ down and leave the state of the drive alone. -/
def dropsRequest (cmd : U8) : Bool :=
  match IdeCmd.tryFrom cmd with
  | some .flushCache | some .recalibrate | some .readNativeMaxAddress | some .setMaxAddress
  | some .initializeDriveParameters => true
  | _ => false

def IdeReg.isCommand : IdeReg → Bool
  | .command | .status => true
  | _ => false

def Passes {α : Type} (r : Except MemException α) : Prop := ∀ e, r = .error e → e.harmless = true

/-- A fatal exception, other than the two about the buffer that should not happen. -/
def Fails {α : Type} (r : Except MemException α) : Prop :=
  ∃ e, r = .error e ∧ e.harmless = false ∧ e ≠ IdeDrive.pastRead ∧ e ≠ IdeDrive.pastWrite

def IdeUnit.SamePhase {β : Type} (u u' : IdeUnit β) : Prop :=
  u'.state = u.state ∧ u'.remainingSectors = u.remainingSectors ∧ u'.iobuf.idx = u.iobuf.idx

/-- `drops` is set for the commands that take DRQ down on their own. -/
inductive Effect {β α : Type} (drops : Bool) (u u' : IdeUnit β) (r : Except MemException α) :
    Prop where
  | opened (stays : drops = false) (mid : u'.Mid) (counted : u'.Counted) (busy : u'.busy = false)
      (drq : u'.drq = true) (passes : Passes r)
  | advanced (stays : drops = false) (state : u'.state = u.state) (counted : u'.Counted)
      (status : u'.reg.status = u.reg.status) (passes : Passes r)
  | closed (stays : drops = false) (state : u'.state = .idle) (busy : u'.busy = false)
      (drq : u'.drq = false) (passes : Passes r)
  | kept (stays : drops = false) (phase : u.SamePhase u') (busy : u'.busy = false)
      (drq : u'.drq = u.drq) (passes : Passes r)
  | dropped (takes : drops = true) (phase : u.SamePhase u') (busy : u'.busy = false)
      (drq : u'.drq = false) (passes : Passes r)
  | failed (phase : u.SamePhase u' ∨ ¬ u'.Mid) (fails : Fails r)

theorem IdeUnit.SamePhase.refl {β : Type} (u : IdeUnit β) : u.SamePhase u := ⟨rfl, rfl, rfl⟩

theorem IdeUnit.SamePhase.mid_iff {β : Type} {u u' : IdeUnit β} (phase : u.SamePhase u') :
    u'.Mid ↔ u.Mid := by
  rw [IdeUnit.Mid, IdeUnit.Mid, phase.1]

theorem IdeUnit.SamePhase.counted {β : Type} {u u' : IdeUnit β} (phase : u.SamePhase u')
    (counted : u.Counted) : u'.Counted := by
  intro mid
  rw [phase.2.1, phase.2.2]
  exact counted (phase.mid_iff.mp mid)

theorem passes_ok {α : Type} (a : α) : Passes (.ok a) := by
  intro e wrong
  cases wrong

theorem passes_error {α : Type} {e : MemException} (harmless : e.harmless = true) :
    Passes (.error e : Except MemException α) := by
  intro e' same
  cases same
  exact harmless

/-- Both messages about the buffer start with an `a`, no other message does. -/
theorem fails_fatal {α : Type} {msg : String} (first : msg.toList.head? ≠ some 'a') :
    Fails (.error (.fatal msg) : Except MemException α) := by
  refine ⟨_, rfl, rfl, fun same => ?_, fun same => ?_⟩
  · rw [MemException.fatal.inj same] at first
    exact first (by decide)
  · rw [MemException.fatal.inj same] at first
    exact first (by decide)

theorem fails_ofIo {α : Type} (io : IoError) : Fails (.error (.ofIo io) : Except MemException α) :=
  fails_fatal (by simp)

theorem fails_contractViolation {α : Type} (msg : String) :
    Fails (.error (contractViolation msg .error) : Except MemException α) :=
  ⟨_, rfl, rfl, fun same => (by cases same), fun same => (by cases same)⟩

theorem fails_unimplemented {α : Type} : Fails (.error .unimplemented : Except MemException α) :=
  ⟨_, rfl, rfl, fun same => (by cases same), fun same => (by cases same)⟩

theorem Effect.map {β α γ : Type} {drops : Bool} {u u' : IdeUnit β} {r : Except MemException α}
    (effect : Effect drops u u' r) (f : α → γ) : Effect drops u u' (r.map f) := by
  have passes : Passes r → Passes (r.map f) := by
    intro h e same
    cases r with
    | ok a => cases same
    | error e' => exact h e (by cases same; rfl)
  cases effect with
  | opened stays mid counted busy drq h => exact .opened stays mid counted busy drq (passes h)
  | advanced stays state counted status h => exact .advanced stays state counted status (passes h)
  | closed stays state busy drq h => exact .closed stays state busy drq (passes h)
  | kept stays phase busy drq h => exact .kept stays phase busy drq (passes h)
  | dropped takes phase busy drq h => exact .dropped takes phase busy drq (passes h)
  | failed phase h =>
    obtain ⟨e, rfl, rest⟩ := h
    exact .failed phase ⟨e, rfl, rest⟩

namespace IdeDrive

variable {β : Type} {drops : Bool} {u : IdeUnit β} {d : IdeDrive β}

structure MediaOnly (d d' : IdeDrive β) : Prop where
  state : d'.state = d.state
  remainingSectors : d'.remainingSectors = d.remainingSectors
  idx : d'.iobuf.idx = d.iobuf.idx
  reg : d'.reg = d.reg
  cfg : d'.cfg = d.cfg
  irq : d'.irq = d.irq
  dmarq : d'.dmarq = d.dmarq

theorem ensures_media_bind {o : Access (IdeDrive β) Unit}
    {next : IdeDrive β → Unit → Access (IdeDrive β) Unit}
    {Q : IdeDrive β → Except MemException Unit → Prop}
    (media : o.Ensures fun d' r => d.MediaOnly d' ∧ (r = .ok () ∨ Fails r))
    (succeeds : ∀ d', d.MediaOnly d' → (next d' ()).Ensures Q)
    (fails : ∀ d' r, d.MediaOnly d' → Fails r → Q d' r) : (o.bind next).Ensures Q := by
  rw [ensures_bind]
  apply media.mono
  rintro d' r ⟨same, rfl | failed⟩
  · exact succeeds d' same
  · obtain ⟨e, rfl, rest⟩ := failed
    exact fails d' _ same ⟨e, rfl, rest⟩

theorem sectors_pos (d : IdeDrive β) : 1 ≤ d.sectors := by
  unfold sectors
  split
  · decide
  · rename_i nonzero
    have : d.reg.sectorCount.toNat ≠ 0 := fun zero => nonzero (BitVec.eq_of_toNat_eq zero)
    omega

theorem begin_effect {body : IdeDrive β → Access (IdeDrive β) Unit}
    (idle : d.busy = false) (phase : u.SamePhase d.toIdeUnit) (drq : d.drq = u.drq)
    (effect : ∀ d₁ : IdeDrive β, u.SamePhase d₁.toIdeUnit → d₁.drq = u.drq →
      (body d₁).Ensures fun d' r => Effect drops u d'.toIdeUnit r) :
    (d.begin body).Ensures fun d' r => Effect drops u d'.toIdeUnit r := by
  unfold begin
  rw [if_neg (by simpa [IdeUnit.busy] using idle)]
  apply effect
  · exact phase
  · rw [← drq]
    simp [IdeUnit.drq]

theorem ready_busy (d : IdeDrive β) : d.ready.busy = false := by simp [ready, IdeUnit.busy]

theorem ready_drq (d : IdeDrive β) : d.ready.drq = d.drq := by simp [ready, IdeUnit.drq]

theorem unknownCmd_effect (phase : u.SamePhase d.toIdeUnit) (drq : d.drq = u.drq) (cmd : U8) :
    (d.unknownCmd cmd).Ensures fun d' r => Effect false u d'.toIdeUnit r := by
  refine .kept rfl phase (by simp [IdeUnit.busy]) ?_ (passes_error rfl)
  rw [← drq]
  simp [IdeUnit.drq]

theorem multiple_effect {body : IdeDrive β → Access (IdeDrive β) Unit} {unset stubbed : String}
    (message : stubbed.toList.head? ≠ some 'a')
    (phase : u.SamePhase d.toIdeUnit) (drq : d.drq = u.drq)
    (effect : ∀ d₁ : IdeDrive β, u.SamePhase d₁.toIdeUnit →
      (body d₁).Ensures fun d' r => Effect false u d'.toIdeUnit r) :
    (d.multiple unset stubbed body).Ensures fun d' r => Effect false u d'.toIdeUnit r := by
  unfold multiple
  split
  · exact .failed (.inl phase) (fails_contractViolation _)
  · split
    · exact .failed (.inl phase) (fails_fatal message)
    · exact begin_effect (ready_busy d) phase ((ready_drq d).trans drq) fun d₁ same _ =>
        effect d₁ same

theorem dma_effect {body : IdeDrive β → Access (IdeDrive β) Unit} {unset : String}
    (phase : u.SamePhase d.toIdeUnit) (drq : d.drq = u.drq)
    (effect : ∀ d₁ : IdeDrive β, u.SamePhase d₁.toIdeUnit →
      (body d₁).Ensures fun d' r => Effect false u d'.toIdeUnit r) :
    (d.dma unset body).Ensures fun d' r => Effect false u d'.toIdeUnit r := by
  unfold dma
  split
  · exact .failed (.inl phase) (fails_contractViolation _)
  · exact begin_effect (ready_busy _) phase ((ready_drq _).trans drq) fun d₁ same _ =>
      effect d₁ same

theorem ready_effect (phase : u.SamePhase d.toIdeUnit) (drq : d.drq = u.drq) :
    Effect false u d.ready.toIdeUnit (.ok () : Except MemException Unit) :=
  .kept rfl phase (ready_busy d) ((ready_drq d).trans drq) (passes_ok _)

theorem setMultipleMode_effect (phase : u.SamePhase d.toIdeUnit) (drq : d.drq = u.drq) :
    d.setMultipleMode.Ensures fun d' r => Effect false u d'.toIdeUnit r := by
  simp only [setMultipleMode]
  split
  · exact .failed (.inl phase) (fails_fatal (by decide))
  · exact ready_effect (d := { d with cfg.multiSect := _ }) phase drq

theorem setFeatures_effect (phase : u.SamePhase d.toIdeUnit) (drq : d.drq = u.drq) :
    d.setFeatures.Ensures fun d' r => Effect false u d'.toIdeUnit r := by
  unfold setFeatures
  split
  · exact ready_effect (d := { d with cfg.eightbit := _ }) phase drq
  · exact ready_effect (d := { d with cfg.transferMode := _ }) phase drq
  · exact ready_effect (d := { d with cfg.eightbit := _ }) phase drq
  · exact .failed (.inl phase) (fails_fatal (by simp))

theorem recalibrate_effect (phase : u.SamePhase d.toIdeUnit) :
    Effect true u d.recalibrate.toIdeUnit (.ok () : Except MemException Unit) :=
  .dropped rfl phase (by simp [IdeUnit.busy, recalibrate, pulseIrq])
    (by simp [IdeUnit.drq, recalibrate, pulseIrq]) (passes_ok _)

theorem finishSector_effect (left : 1 ≤ d.remainingSectors) :
    d.finishSector.Ensures fun d' r => Effect false u d'.toIdeUnit r := by
  by_cases one : d.remainingSectors = 1
  · obtain ⟨irq, finished⟩ := finishSector_last one
    rw [finished]
    exact .closed rfl rfl (by simp [IdeUnit.busy, requesting]) (by simp [IdeUnit.drq]) (passes_ok _)
  · obtain ⟨irq, finished⟩ := finishSector_more (d := d) (by omega)
    rw [finished]
    refine .opened rfl (.inr rfl) (fun _ => ⟨?_, (by decide : 0 < 512)⟩) ?_ ?_ (passes_ok _)
    · simp only
      omega
    · simp [IdeUnit.busy, requesting]
    · simp [IdeUnit.drq, requesting]

variable [BlockDev β]

theorem loadSector_media (d : IdeDrive β) :
    d.loadSector.Ensures fun d' r => d.MediaOnly d' ∧ (r = .ok () ∨ Fails r) := by
  unfold loadSector
  rcases BlockDev.readExact d.blockdev 512 with ⟨b, bytes, e | _⟩
  · exact ⟨⟨rfl, rfl, rfl, rfl, rfl, rfl, rfl⟩, .inr (fails_ofIo e)⟩
  · exact ⟨⟨rfl, rfl, rfl, rfl, rfl, rfl, rfl⟩, .inl rfl⟩

theorem storeSector_media (d : IdeDrive β) :
    d.storeSector.Ensures fun d' r => d.MediaOnly d' ∧ (r = .ok () ∨ Fails r) := by
  unfold storeSector
  rcases BlockDev.writeAll d.blockdev d.iobuf.buf with ⟨b, e | _⟩
  · exact ⟨⟨rfl, rfl, rfl, rfl, rfl, rfl, rfl⟩, .inr (fails_ofIo e)⟩
  · exact ⟨⟨rfl, rfl, rfl, rfl, rfl, rfl, rfl⟩, .inl rfl⟩

theorem seekSector_media (d : IdeDrive β) (offset : Nat) :
    (d.seekSector offset).Ensures fun d' r => d.MediaOnly d' ∧ (r = .ok () ∨ Fails r) := by
  unfold seekSector
  rcases BlockDev.seek d.blockdev (offset * 512) with ⟨b, e | _⟩
  · exact ⟨⟨rfl, rfl, rfl, rfl, rfl, rfl, rfl⟩, .inr (fails_ofIo e)⟩
  · exact ⟨⟨rfl, rfl, rfl, rfl, rfl, rfl, rfl⟩, .inl rfl⟩

variable (u d)

theorem loadNext_effect (left : 1 ≤ d.remainingSectors) :
    d.loadNext.Ensures fun d' r => Effect false u d'.toIdeUnit r := by
  unfold loadNext
  refine ensures_media_bind (loadSector_media _) (fun d' same => ?_) (fun d' r same failed => ?_)
  · simp only [ensures_done, pulseIrqUnlessDma_unit]
    refine .opened rfl (.inl rfl) (fun _ => ⟨?_, (by decide : 0 < 512)⟩) ?_ ?_ (passes_ok _)
    · rw [same.remainingSectors]
      exact left
    · simp [IdeUnit.busy]
    · simp [IdeUnit.drq]
  · refine .failed (.inr ?_) failed
    simp [IdeUnit.Mid, same.state]

theorem identifyDevice_effect : d.identifyDevice.Ensures fun d' r => Effect false u d'.toIdeUnit r :=
  .opened rfl (.inl rfl) (fun _ => ⟨Nat.le_refl 1, (by decide : 0 < 512)⟩) (by simp [IdeUnit.busy, pulseIrq])
    (by simp [IdeUnit.drq, pulseIrq]) (passes_ok _)

theorem readSectors_effect (phase : u.SamePhase d.toIdeUnit) :
    d.readSectors.Ensures fun d' r => Effect false u d'.toIdeUnit r := by
  unfold readSectors
  split
  · exact .failed (.inl phase) (fails_fatal (by decide))
  · refine ensures_media_bind (seekSector_media _ _) (fun d₁ sought => ?_)
      (fun d' r same failed => .failed (.inr (by simp [IdeUnit.Mid, same.state])) failed)
    refine ensures_media_bind (loadSector_media _) (fun d₂ loaded => ?_)
      (fun d' r same failed => .failed (.inr (by simp [IdeUnit.Mid, same.state, sought.state])) failed)
    exact .opened rfl (.inl rfl) (fun _ => ⟨sectors_pos d₂, (by decide : 0 < 512)⟩)
      (by simp [IdeUnit.busy, pulseIrq])
      (by simp [IdeUnit.drq, pulseIrq]) (passes_ok _)

theorem writeSectors_effect (phase : u.SamePhase d.toIdeUnit) :
    d.writeSectors.Ensures fun d' r => Effect false u d'.toIdeUnit r := by
  unfold writeSectors
  split
  · exact .failed (.inl phase) (fails_fatal (by decide))
  · refine ensures_media_bind (seekSector_media _ _) (fun d₁ sought => ?_)
      (fun d' r same failed => .failed (.inr (by simp [IdeUnit.Mid, same.state])) failed)
    exact .opened rfl (.inr rfl) (fun _ => ⟨sectors_pos d₁, (by decide : 0 < 512)⟩)
      (by simp [IdeUnit.busy, pulseIrq])
      (by simp [IdeUnit.drq, pulseIrq]) (passes_ok _)

variable {u d}

theorem dispatch_effect (phase : u.SamePhase d.toIdeUnit) (drq : d.drq = u.drq) (cmd : U8) :
    (dispatch cmd d).Ensures fun d' r => Effect (dropsRequest cmd) u d'.toIdeUnit r := by
  unfold dispatch dropsRequest
  cases IdeCmd.tryFrom cmd with
  | none => exact unknownCmd_effect phase drq cmd
  | some known =>
    cases known with
    | identifyDevice => exact identifyDevice_effect u d
    | readMultiple => exact multiple_effect (by decide) phase drq fun d₁ => readSectors_effect u d₁
    | readDMA => exact dma_effect phase drq fun d₁ => readSectors_effect u d₁
    | readDMANoRetry => exact dma_effect phase drq fun d₁ => readSectors_effect u d₁
    | readSectors => exact readSectors_effect u d phase
    | readSectorsNoRetry => exact readSectors_effect u d phase
    | standbyImmediate => exact ready_effect phase drq
    | standbyImmediateAlt => exact ready_effect phase drq
    | writeMultiple => exact multiple_effect (by decide) phase drq fun d₁ => writeSectors_effect u d₁
    | writeDMA => exact dma_effect phase drq fun d₁ => writeSectors_effect u d₁
    | writeDMANoRetry => exact dma_effect phase drq fun d₁ => writeSectors_effect u d₁
    | writeSectors => exact writeSectors_effect u d phase
    | writeSectorsNoRetry => exact writeSectors_effect u d phase
    | setMultipleMode => exact setMultipleMode_effect phase drq
    | setFeatures => exact setFeatures_effect phase drq
    | flushCache =>
      exact .dropped rfl phase (by simp [IdeUnit.busy, flushCache])
        (by simp [IdeUnit.drq, flushCache]) (passes_ok _)
    | sleep => exact ready_effect (d := d) phase drq
    | sleepAlt => exact ready_effect (d := d) phase drq
    | recalibrate => exact recalibrate_effect phase
    | readNativeMaxAddress =>
      exact .dropped rfl phase (by simp [IdeUnit.busy, readNativeMaxAddress, recalibrate, pulseIrq])
        (by simp [IdeUnit.drq, readNativeMaxAddress, recalibrate, pulseIrq]) (passes_ok _)
    | setMaxAddress => exact recalibrate_effect phase
    | initializeDriveParameters => exact recalibrate_effect phase

theorem dataRead8_effect (counted : d.Counted) :
    d.dataRead8.Ensures fun d' r => Effect false d.toIdeUnit d'.toIdeUnit r := by
  by_cases state : d.state = .readReady
  · obtain ⟨left, inside⟩ := counted (.inl state)
    by_cases room : d.iobuf.idx + 1 < 512
    · obtain ⟨ret, _, read⟩ := dataRead8_inside state room
      rw [read]
      exact .advanced rfl rfl (fun _ => ⟨left, room⟩) rfl (passes_ok _)
    · obtain ⟨ret, _, read⟩ := dataRead8_end state (by omega)
      rw [read]
      split
      · omega
      · exact .closed rfl rfl (by simp [IdeUnit.busy, finishRead, pulseIrq])
          (by simp [IdeUnit.drq, finishRead, pulseIrq]) (passes_ok _)
      · rw [ensures_map]
        exact (loadNext_effect d.toIdeUnit _ (Nat.le_add_left ..)).mono fun _ _ effect => effect.map _
  · rw [dataRead8, if_pos state]
    exact .failed (.inl (.refl _)) (fails_fatal (by simp))

theorem dataWrite8_effect (counted : d.Counted) (val : U8) :
    (d.dataWrite8 val).Ensures fun d' r => Effect false d.toIdeUnit d'.toIdeUnit r := by
  by_cases state : d.state = .writeReady
  · obtain ⟨left, inside⟩ := counted (.inr state)
    by_cases room : d.iobuf.idx + 1 < 512
    · rw [dataWrite8_inside state room]
      exact .advanced rfl rfl (fun _ => ⟨left, room⟩) rfl (passes_ok _)
    · rw [dataWrite8_end state (by omega), if_neg (by omega)]
      refine ensures_media_bind (storeSector_media _) (fun d₁ same => ?_)
        (fun d' r same failed => .failed (.inr (by simp [IdeUnit.Mid, same.state])) failed)
      apply finishSector_effect
      rw [same.remainingSectors]
      exact left
  · rw [dataWrite8, if_pos state]
    exact .failed (.inl (.refl _)) (fails_fatal (by simp))

theorem execCmd_effect (counted : d.Counted) (cmd : U8) :
    (d.execCmd cmd).Ensures fun d' r =>
      Effect (dropsRequest cmd && !d.busy) d.toIdeUnit d'.toIdeUnit r := by
  unfold execCmd
  cases busy : d.busy with
  | true =>
    unfold begin
    rw [if_pos (by simpa only [IdeUnit.busy] using busy)]
    exact .advanced (Bool.and_false _) rfl counted rfl (passes_error rfl)
  | false =>
    simp only [Bool.not_false, Bool.and_true]
    exact begin_effect busy (.refl _) rfl fun d₁ phase drq => dispatch_effect phase drq cmd

theorem read8_effect (counted : d.Counted) (reg : IdeReg) :
    (d.read8 reg).Ensures fun d' r => Effect false d.toIdeUnit d'.toIdeUnit r := by
  cases reg with
  | data => exact dataRead8_effect counted
  | dataLatch => exact .failed (.inl (.refl _)) fails_unimplemented
  | _ => exact .advanced rfl rfl counted rfl (passes_ok _)

theorem write8_effect (counted : d.Counted) (val : U8) (reg : IdeReg) :
    (d.write8 val reg).Ensures fun d' r =>
      Effect (reg.isCommand && (dropsRequest val && !d.busy)) d.toIdeUnit d'.toIdeUnit r := by
  cases reg with
  | data => exact dataWrite8_effect counted val
  | command => exact execCmd_effect counted val
  | status => exact execCmd_effect counted val
  | dataLatch => exact .failed (.inl (.refl _)) fails_unimplemented
  | _ => exact .advanced rfl rfl counted rfl (passes_ok _)

end IdeDrive
end Clicky
