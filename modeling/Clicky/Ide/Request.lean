import Clicky.Ide.Effect

/-! The DMA request line of the drives. Its rising edges come from the DMA commands alone. -/
namespace Clicky
open Outcome

structure Line.Spent (l : Line) : Prop where
  kind : l.kind = .hi
  trigger : l.trigger = false

theorem Line.Spent.clear {l : Line} (spent : l.Spent) : l.clear.Spent :=
  ⟨by rw [Line.clear_kind, spent.kind], by rw [Line.clear_trigger_hi l spent.kind, spent.trigger]⟩

namespace IdeDrive

variable {β : Type}

/-- What stays as it is while the drive moves data, or starts to. -/
structure SetUp (d d' : IdeDrive β) : Prop where
  cfg : d'.cfg = d.cfg
  nein : d'.reg.nein = d.reg.nein

/-- What moving data does to the request: it stays as it is, or goes down with the last byte. -/
inductive Requests (d d' : IdeDrive β) : Prop where
  | kept (setUp : d.SetUp d') (dmarq : d'.dmarq = d.dmarq) (idle : d'.state = .idle ↔ d.state = .idle)
  | ended (setUp : d.SetUp d') (dmarq : d'.dmarq = d.dmarq.clear) (state : d'.state = .idle)

theorem Requests.setUp {d d' : IdeDrive β} (step : d.Requests d') : d.SetUp d' := by
  cases step with
  | kept setUp _ _ => exact setUp
  | ended setUp _ _ => exact setUp

theorem Requests.busy {d d' : IdeDrive β} (before : d.state ≠ .idle) (setUp : d.SetUp d')
    (dmarq : d'.dmarq = d.dmarq) (after : d'.state ≠ .idle) : d.Requests d' :=
  .kept setUp dmarq (iff_of_false after before)

theorem Requests.spent {d d' : IdeDrive β} (step : d.Requests d') (spent : d.dmarq.Spent) :
    d'.dmarq.Spent := by
  cases step with
  | kept _ dmarq _ => exact dmarq ▸ spent
  | ended _ dmarq _ => exact dmarq ▸ spent.clear

theorem MediaOnly.setUp {d d' : IdeDrive β} (media : d.MediaOnly d') : d.SetUp d' :=
  ⟨media.cfg, congrArg IdeRegs.nein media.reg⟩

theorem finishSector_requests {d : IdeDrive β} (busy : d.state ≠ .idle) :
    d.finishSector.Leaves d.Requests := by
  unfold finishSector
  dsimp only
  rw [pulseIrqUnlessDma_irq]
  split
  · exact leaves_panic _ _
  · exact (leaves_done ..).mpr (.ended ⟨rfl, rfl⟩ rfl rfl)
  · exact (leaves_done ..).mpr (.busy busy ⟨rfl, rfl⟩ rfl (by simp))

theorem begin_leaves {d : IdeDrive β} {body : IdeDrive β → Access (IdeDrive β) Unit}
    {P : IdeDrive β → Prop} (here : P d) (command : (body { d with
      reg.status := (d.reg.status.setBit Status.BSY true).setBit Status.ERR false
      reg.error := 0 }).Leaves P) : (d.begin body).Leaves P := by
  unfold begin
  split
  · exact (leaves_done ..).mpr here
  · exact command

theorem dma_kind {d : IdeDrive β} (hi : d.dmarq.kind = .hi) (unset : String)
    {body : IdeDrive β → Access (IdeDrive β) Unit}
    (transfer : ∀ d₁ : IdeDrive β, (body d₁).Leaves fun d' => d'.dmarq = d₁.dmarq) :
    (d.dma unset body).Leaves fun d' => d'.dmarq.kind = .hi := by
  unfold dma
  split
  · simpa using hi
  · have raised : d.dmarq.assert.kind = .hi := (Line.assert_kind d.dmarq).trans hi
    refine begin_leaves raised ((transfer _).mono fun d' same => ?_)
    rw [same]
    exact raised

variable [BlockDev β]

/-- Moving data may take the request down, and never raises it. -/
theorem loadNext_requests {d : IdeDrive β} (busy : d.state ≠ .idle) : d.loadNext.Leaves d.Requests := by
  have loaded := (loadSector_media { d with
    reg.status := (d.reg.status.setBit Status.DRQ false).setBit Status.BSY true
    state := .readAsyncLoad }).leaves fun _ _ h => h.1
  refine loaded.bind (fun d₁ media => ?_) fun d₁ _ _ media => ?_
  · exact .busy busy ⟨media.cfg, media.setUp.nein⟩ media.dmarq (by simp [media.state])
  · dsimp only
    rw [pulseIrqUnlessDma_irq, leaves_done]
    exact .busy busy ⟨media.cfg, media.setUp.nein⟩ media.dmarq (by simp)

theorem dataRead8_requests (d : IdeDrive β) : d.dataRead8.Leaves d.Requests := by
  unfold dataRead8
  split
  · exact (leaves_done ..).mpr (.kept ⟨rfl, rfl⟩ rfl Iff.rfl)
  · rename_i ready
    have busy : d.state ≠ .idle := by simp [not_not.mp ready]
    split
    · exact (leaves_done ..).mpr (.kept ⟨rfl, rfl⟩ rfl Iff.rfl)
    · dsimp only
      split
      · split
        · exact leaves_panic _ _
        · exact (leaves_done ..).mpr (.ended ⟨rfl, rfl⟩ rfl rfl)
        · rw [leaves_map]
          refine Leaves.mono (loadNext_requests ?_) fun d' step => ?_
          · exact busy
          · cases step with
            | kept setUp dmarq idle => exact .kept ⟨setUp.cfg, setUp.nein⟩ dmarq idle
            | ended setUp dmarq state => exact .ended ⟨setUp.cfg, setUp.nein⟩ dmarq state
      · exact (leaves_done ..).mpr (.kept ⟨rfl, rfl⟩ rfl Iff.rfl)

theorem dataWrite8_requests (d : IdeDrive β) (val : U8) : (d.dataWrite8 val).Leaves d.Requests := by
  unfold dataWrite8
  split
  · exact (leaves_done ..).mpr (.kept ⟨rfl, rfl⟩ rfl Iff.rfl)
  · rename_i ready
    have busy : d.state ≠ .idle := by simp [not_not.mp ready]
    split
    · exact (leaves_done ..).mpr (.kept ⟨rfl, rfl⟩ rfl Iff.rfl)
    · dsimp only
      split
      · split
        · exact leaves_panic _ _
        · refine ((storeSector_media _).leaves fun _ _ h => h.1).bind (fun d₁ media => ?_)
            fun d₁ _ _ media => ?_
          · exact .busy busy ⟨media.cfg, media.setUp.nein⟩ media.dmarq (by simp [media.state])
          · refine (finishSector_requests (by simp [media.state])).mono fun d' step => ?_
            have setUp : d.SetUp d' :=
              ⟨step.setUp.cfg.trans media.cfg, step.setUp.nein.trans media.setUp.nein⟩
            cases step with
            | kept _ dmarq idle =>
              refine .busy busy setUp (dmarq.trans media.dmarq) fun wrong => ?_
              simpa [media.state] using idle.mp wrong
            | ended _ dmarq state =>
              exact .ended setUp (dmarq.trans (congrArg _ media.dmarq)) state
      · exact (leaves_done ..).mpr (.kept ⟨rfl, rfl⟩ rfl Iff.rfl)

section Halfword

variable {P : IdeDrive β → Prop} (keeps : ∀ d d' : IdeDrive β, P d → d.Requests d' → P d')
include keeps

theorem dataRead16_leaves {d : IdeDrive β} (here : P d) : d.dataRead16.Leaves P := by
  have byte : ∀ d : IdeDrive β, P d → d.dataRead8.Leaves P := fun d here =>
    (dataRead8_requests d).mono fun d' => keeps d d' here
  refine (byte d here).bind (fun _ h => h) fun d₁ val _ first => ?_
  split
  · exact (leaves_done ..).mpr first
  · exact (byte d₁ first).bind (fun _ h => h) fun _ _ _ second => (leaves_done ..).mpr second

theorem dataWrite16_leaves {d : IdeDrive β} (here : P d) (val : U16) :
    (d.dataWrite16 val).Leaves P := by
  have byte : ∀ d : IdeDrive β, P d → ∀ val, (d.dataWrite8 val).Leaves P := fun d here val =>
    (dataWrite8_requests d val).mono fun d' => keeps d d' here
  unfold dataWrite16
  split
  · split
    · exact (leaves_done ..).mpr here
    · exact byte d here _
  · exact (byte d here _).bind (fun _ h => h) fun d₁ _ _ first => byte d₁ first _

end Halfword

/-- What the start of a transfer leaves alone. -/
def Starts (d d' : IdeDrive β) : Prop := d.SetUp d' ∧ d'.dmarq = d.dmarq

theorem readSectors_starts (d : IdeDrive β) : d.readSectors.Leaves d.Starts := by
  unfold readSectors
  split
  · exact (leaves_done ..).mpr ⟨⟨rfl, rfl⟩, rfl⟩
  · have moved : ∀ offset, ({ d with state := .readAsyncLoad } : IdeDrive β).seekSector offset
        |>.Leaves d.Starts := fun offset =>
      (seekSector_media _ offset).leaves fun _ _ h => ⟨⟨h.1.cfg, h.1.setUp.nein⟩, h.1.dmarq⟩
    refine (moved _).bind (fun _ h => h) fun d₁ _ _ first => ?_
    have loaded : d₁.loadSector.Leaves d.Starts := (loadSector_media d₁).leaves fun _ _ h =>
      ⟨⟨h.1.cfg.trans first.1.cfg, h.1.setUp.nein.trans first.1.nein⟩, h.1.dmarq.trans first.2⟩
    exact loaded.bind (fun _ h => h) fun d₂ _ _ second =>
      (leaves_done ..).mpr ⟨⟨second.1.cfg, second.1.nein⟩, second.2⟩

theorem writeSectors_starts (d : IdeDrive β) : d.writeSectors.Leaves d.Starts := by
  unfold writeSectors
  split
  · exact (leaves_done ..).mpr ⟨⟨rfl, rfl⟩, rfl⟩
  · have moved : ∀ offset, ({ d with state := .writeAsyncFlush } : IdeDrive β).seekSector offset
        |>.Leaves d.Starts := fun offset =>
      (seekSector_media _ offset).leaves fun _ _ h => ⟨⟨h.1.cfg, h.1.setUp.nein⟩, h.1.dmarq⟩
    exact (moved _).bind (fun _ h => h) fun d₁ _ _ first =>
      (leaves_done ..).mpr ⟨⟨first.1.cfg, first.1.nein⟩, first.2⟩

def dmaCmd (kind : MemAccessKind) : U8 := if kind = .read then 0xc8 else 0xca

theorem execCmd_dmaCmd {d : IdeDrive β} (hi : d.dmarq.kind = .hi) (kind : MemAccessKind) :
    (d.execCmd (dmaCmd kind)).Leaves fun d' => d'.dmarq.kind = .hi := by
  have started : ∀ d₁ : IdeDrive β, d₁.dmarq.kind = .hi →
      (dispatch (dmaCmd kind) d₁).Leaves fun d' => d'.dmarq.kind = .hi := by
    intro d₁ hi
    unfold dmaCmd
    split
    · exact dma_kind hi _ fun d₁ => (readSectors_starts d₁).mono fun _ h => h.2
    · exact dma_kind hi _ fun d₁ => (writeSectors_starts d₁).mono fun _ h => h.2
  exact begin_leaves hi (started _ hi)

end IdeDrive

namespace IdeController

variable {β α : Type}

theorem onSelected_leaves {s : IdeController β} {f : IdeDrive β → Access (IdeDrive β) α}
    {P : Line → Prop} (here : P s.dmarq)
    (drive : ∀ d : IdeDrive β, P d.dmarq → (f d).Leaves fun d' => P d'.dmarq) :
    (s.onSelected f).Leaves fun s' => P s'.dmarq := by
  unfold onSelected
  split
  · simpa using here
  · rename_i u _
    rw [leaves_zoom]
    refine (drive (s.lend u) here).mono fun d' kept => ?_
    unfold putSelected
    cases s.selectedDevice <;> exact kept

variable [BlockDev β]

theorem readData_spent {s : IdeController β} (spent : s.dmarq.Spent) :
    (s.read16 .data).Leaves fun s' => s'.dmarq.Spent :=
  onSelected_leaves spent fun _ => IdeDrive.dataRead16_leaves fun _ _ here step => step.spent here

theorem writeData_spent {s : IdeController β} (spent : s.dmarq.Spent) (val : U16) :
    (s.write16 .data val).Leaves fun s' => s'.dmarq.Spent :=
  onSelected_leaves spent fun _ spent =>
    IdeDrive.dataWrite16_leaves (fun _ _ here step => step.spent here) spent val

end IdeController

end Clicky
