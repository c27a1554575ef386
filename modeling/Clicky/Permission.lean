import Clicky.MemSniffer
import Clicky.Translation

/-! The permissions of a mapping are tested twice: where it is selected, and on the bus. A
mapping for data alone passes the first test of a read and not the second. -/
namespace Clicky
open Outcome
open MemoryAdapter (busAccess)

/-- No access to the device is an `MmuViolation`. -/
def SparesMmu (M : Type) [Memory M] : Prop :=
  ∀ (m : M) (a : GuestAccess), (busAccess m a).Spares .mmuViolation

theorem narrow_spares {M α : Type} {m : M} {offset : U32} {word : Access M α}
    (spared : word.Spares .mmuViolation) :
    (if offset &&& 0x3 ≠ 0 then Outcome.raise m .misaligned else word).Spares .mmuViolation := by
  split
  · simp
  · exact spared

/-- The rule for devices that have nothing but words. -/
theorem sparesMmu_of_words {M : Type} {r32 : M → U32 → Access M U32}
    {w32 : M → U32 → U32 → Access M Unit}
    (reads : ∀ m offset, (r32 m offset).Spares .mmuViolation)
    (writes : ∀ m offset val, (w32 m offset val).Spares .mmuViolation) :
    @SparesMmu M { r32 := r32, w32 := w32 } := by
  intro m a
  cases a with
  | r8 offset | r16 offset | x16 offset =>
    exact spares_map.mpr (narrow_spares (spares_map.mpr (reads m offset)))
  | r32 offset | x32 offset => exact spares_map.mpr (reads m offset)
  | w8 offset val | w16 offset val => exact narrow_spares (writes m offset _)
  | w32 offset val => exact writes m offset val

namespace AsanRam

theorem read_spares {w : Nat} (s : AsanRam) (offset size : Nat) (val : BitVec w) (excused : Bool) :
    (s.read offset size val excused).Spares .mmuViolation := by
  unfold read
  split
  · simp
  · split <;> simp [uninitRead]

theorem write_spares (s : AsanRam) (offset : Nat) (data : List U8) :
    (s.write offset data).Spares .mmuViolation := by
  unfold write
  split <;> simp

theorem sparesMmu : SparesMmu AsanRam := by
  intro s a
  cases a with
  | r8 offset | r16 offset | r32 offset | x16 offset | x32 offset =>
    exact spares_map.mpr (s.read_spares _ _ _ _)
  | w8 offset val | w16 offset val | w32 offset val => exact s.write_spares _ _

end AsanRam

theorem MemConImpl.r32_spares (s : MemConImpl) (offset : U32) :
    (s.r32 offset).Spares .mmuViolation := by
  unfold r32
  repeat' split
  all_goals simp

theorem MemConImpl.w32_spares (s : MemConImpl) (offset val : U32) :
    (s.w32 offset val).Spares .mmuViolation := by
  unfold w32
  repeat' split
  all_goals simp

theorem MemCon.sparesMmu : SparesMmu MemCon := by
  apply sparesMmu_of_words
  · intro s offset
    unfold r32
    cases s.selected with
    | cpu => exact spares_zoom.mpr (s.cpucon.r32_spares offset)
    | cop => exact spares_zoom.mpr (s.copcon.r32_spares offset)
  · intro s offset val
    unfold w32
    cases s.selected with
    | cpu => exact spares_zoom.mpr (s.cpucon.w32_spares offset val)
    | cop => exact spares_zoom.mpr (s.copcon.w32_spares offset val)

/-! The drives. -/
section Ide

variable {β : Type} [BlockDev β]

namespace IdeDrive

@[simp] theorem loadSector_spares (d : IdeDrive β) : d.loadSector.Spares .mmuViolation := by
  unfold loadSector
  dsimp only
  split <;> simp [MemException.ofIo]

@[simp] theorem storeSector_spares (d : IdeDrive β) : d.storeSector.Spares .mmuViolation := by
  unfold storeSector
  dsimp only
  split <;> simp [MemException.ofIo]

@[simp] theorem seekSector_spares (d : IdeDrive β) (offset : Nat) :
    (d.seekSector offset).Spares .mmuViolation := by
  unfold seekSector
  dsimp only
  split <;> simp [MemException.ofIo]

@[simp] theorem loadNext_spares (d : IdeDrive β) : d.loadNext.Spares .mmuViolation :=
  (loadSector_spares _).bind fun _ _ => spares_ok _ _

@[simp] theorem dataRead8_spares (d : IdeDrive β) : d.dataRead8.Spares .mmuViolation := by
  unfold dataRead8
  split
  · simp
  · split
    · simp [pastRead]
    · dsimp only
      split
      · split <;> simp
      · simp

omit [BlockDev β] in
@[simp] theorem finishSector_spares (d : IdeDrive β) : d.finishSector.Spares .mmuViolation := by
  unfold finishSector
  dsimp only
  split <;> simp

@[simp] theorem dataWrite8_spares (d : IdeDrive β) (val : U8) :
    (d.dataWrite8 val).Spares .mmuViolation := by
  unfold dataWrite8
  split
  · simp
  · split
    · simp [pastWrite]
    · dsimp only
      split
      · split
        · simp
        · exact (storeSector_spares _).bind fun d _ => d.finishSector_spares
      · simp

omit [BlockDev β] in
theorem begin_spares {body : IdeDrive β → Access (IdeDrive β) Unit}
    (spared : ∀ d, (body d).Spares .mmuViolation) (d : IdeDrive β) :
    (d.begin body).Spares .mmuViolation := by
  unfold begin
  split
  · simp [contractViolation]
  · exact spared _

@[simp] theorem readSectors_spares (d : IdeDrive β) : d.readSectors.Spares .mmuViolation := by
  unfold readSectors
  split
  · simp
  · apply (seekSector_spares _ _).bind
    intro d _
    exact d.loadSector_spares.bind fun _ _ => spares_ok _ _

@[simp] theorem writeSectors_spares (d : IdeDrive β) : d.writeSectors.Spares .mmuViolation := by
  unfold writeSectors
  split
  · simp
  · exact (seekSector_spares _ _).bind fun _ _ => spares_ok _ _

omit [BlockDev β] in
theorem multiple_spares {body : IdeDrive β → Access (IdeDrive β) Unit}
    (spared : ∀ d, (body d).Spares .mmuViolation) (d : IdeDrive β) (unset stubbed : String) :
    (d.multiple unset stubbed body).Spares .mmuViolation := by
  unfold multiple
  split
  · simp [contractViolation]
  · split
    · simp
    · exact begin_spares spared _

omit [BlockDev β] in
theorem dma_spares {body : IdeDrive β → Access (IdeDrive β) Unit}
    (spared : ∀ d, (body d).Spares .mmuViolation) (d : IdeDrive β) (unset : String) :
    (d.dma unset body).Spares .mmuViolation := by
  unfold dma
  split
  · simp [contractViolation]
  · exact begin_spares spared _

omit [BlockDev β] in
@[simp] theorem setMultipleMode_spares (d : IdeDrive β) : d.setMultipleMode.Spares .mmuViolation := by
  unfold setMultipleMode
  dsimp only
  split <;> simp

omit [BlockDev β] in
@[simp] theorem setFeatures_spares (d : IdeDrive β) : d.setFeatures.Spares .mmuViolation := by
  unfold setFeatures
  split <;> simp

theorem dispatch_spares (cmd : U8) (d : IdeDrive β) : (dispatch cmd d).Spares .mmuViolation := by
  have readMultiple : d.readMultiple.Spares .mmuViolation := multiple_spares readSectors_spares d _ _
  have writeMultiple : d.writeMultiple.Spares .mmuViolation :=
    multiple_spares writeSectors_spares d _ _
  have readDMA : d.readDMA.Spares .mmuViolation := dma_spares readSectors_spares d _
  have writeDMA : d.writeDMA.Spares .mmuViolation := dma_spares writeSectors_spares d _
  unfold dispatch
  split
  case h_1 => exact spares_ok _ _
  all_goals simp [*, unknownCmd, contractViolation]

theorem read8_spares (d : IdeDrive β) (reg : IdeReg) : (d.read8 reg).Spares .mmuViolation := by
  cases reg <;> simp [read8]

theorem write8_spares (d : IdeDrive β) (val : U8) (reg : IdeReg) :
    (d.write8 val reg).Spares .mmuViolation := by
  cases reg with
  | command | status => exact begin_spares (dispatch_spares val) d
  | _ => simp [write8]

theorem dataRead16_spares (d : IdeDrive β) : d.dataRead16.Spares .mmuViolation := by
  apply d.dataRead8_spares.bind
  intro d val
  split
  · simp
  · exact d.dataRead8_spares.bind fun _ _ => spares_ok _ _

theorem dataWrite16_spares (d : IdeDrive β) (val : U16) :
    (d.dataWrite16 val).Spares .mmuViolation := by
  unfold dataWrite16
  split
  · cases fits : truncToU8 val with
    | error e =>
      unfold truncToU8 at fits
      split at fits
      · cases fits
        simp [contractViolation]
      · cases fits
    | ok val => exact d.dataWrite8_spares val
  · exact (d.dataWrite8_spares _).bind fun d _ => d.dataWrite8_spares _

end IdeDrive

namespace IdeController

omit [BlockDev β] in
theorem onSelected_spares {α : Type} {f : IdeDrive β → Access (IdeDrive β) α}
    (spared : ∀ d, (f d).Spares .mmuViolation) (s : IdeController β) :
    (s.onSelected f).Spares .mmuViolation := by
  unfold onSelected
  split
  · simp [noDrive]
  · exact spares_zoom.mpr (spared _)

theorem read8_spares (s : IdeController β) (reg : IdeReg) : (s.read8 reg).Spares .mmuViolation :=
  onSelected_spares (fun d => d.read8_spares reg) s

theorem write8_spares (s : IdeController β) (reg : IdeReg) (val : U8) :
    (s.write8 reg val).Spares .mmuViolation :=
  onSelected_spares (fun d => d.write8_spares val reg) _

theorem read16_spares (s : IdeController β) : (s.read16 .data).Spares .mmuViolation :=
  onSelected_spares IdeDrive.dataRead16_spares s

theorem write16_spares (s : IdeController β) (val : U16) :
    (s.write16 .data val).Spares .mmuViolation :=
  onSelected_spares (fun d => d.dataWrite16_spares val) s

end IdeController

theorem EIDECon.sparesMmu : SparesMmu (EIDECon β) := by
  apply sparesMmu_of_words
  · intro s offset
    have registers (reg : IdeReg) : (s.ideRead8 reg).Spares .mmuViolation :=
      spares_map.mpr (spares_zoom.mpr (s.ide.read8_spares reg))
    unfold r32
    split <;> simp [registers, IdeController.read16_spares]
  · intro s offset val
    have registers (reg : IdeReg) : (s.ideWrite8 reg val).Spares .mmuViolation :=
      spares_zoom.mpr (s.ide.write8_spares reg _)
    unfold w32
    split
    case h_22 => split <;> simp
    all_goals simp [registers, IdeController.write16_spares]

end Ide

namespace Mmap

/-- A mapping that is selected for an access other than a read has the permission for it. For a
read it may be there for data alone. -/
theorem Takes.permitted {m : Mmap} {mask addr : U32} {access : MemAccessKind}
    (takes : m.Takes mask addr access) :
    match access with
    | .read => m.prot.r = true ∨ m.prot.d = true
    | .write => m.prot.w = true
    | .execute => m.prot.x = true := by
  have permits := takes.permits
  unfold Protection.denies at permits
  cases access with
  | read =>
    cases readable : m.prot.r with
    | true => exact .inl rfl
    | false => simpa [readable] using permits
  | write => simpa using permits
  | execute => simpa using permits

end Mmap

namespace MemConImpl

/-- The first mapping that takes the address for a read, if there is one, has the permission to
read, and not only the one for data. -/
def Readable (s : MemConImpl) (addr : U32) : Prop :=
  ∀ no, IsLeast (s.Taking addr .read) no → (s.mmap no).prot.r = true

theorem virtToPhys_read_iff (s : MemConImpl) (addr : U32) :
    (s.virtToPhys addr .read).2.r = true ↔ s.Readable addr := by
  cases selected : s.chosen addr .read with
  | some no =>
    have least := chosen_eq_some_iff.mp selected
    rw [virtToPhys_of_chosen selected]
    constructor
    · intro permitted k also
      rw [Option.some.inj ((chosen_eq_some_iff.mpr also).symm.trans selected)]
      exact permitted
    · intro readable
      exact readable no least
  | none =>
    rw [virtToPhys_of_not_chosen selected]
    refine iff_of_true rfl fun no least => ?_
    exact absurd least.1 (chosen_eq_none_iff.mp selected no)

theorem virtToPhys_write (s : MemConImpl) (addr : U32) : (s.virtToPhys addr .write).2.w = true := by
  cases selected : s.chosen addr .write with
  | some no =>
    rw [virtToPhys_of_chosen selected]
    exact (chosen_eq_some_iff.mp selected).1.permitted
  | none => rw [virtToPhys_of_not_chosen selected]

theorem virtToPhys_execute (s : MemConImpl) (addr : U32) :
    (s.virtToPhys addr .execute).2.x = true := by
  cases selected : s.chosen addr .execute with
  | some no =>
    rw [virtToPhys_of_chosen selected]
    exact (chosen_eq_some_iff.mp selected).1.permitted
  | none => rw [virtToPhys_of_not_chosen selected]

end MemConImpl

/-- The mappings of the core the bus works for. -/
def MemCon.current (s : MemCon) : MemConImpl :=
  match s.selected with
  | .cpu => s.cpucon
  | .cop => s.copcon

theorem MemCon.virtToPhys_eq_current (s : MemCon) : s.virtToPhys = s.current.virtToPhys := by
  funext addr access
  unfold virtToPhys current
  cases s.selected <;> rfl

variable {β ρ : Type} [BlockDev β] [Peripherals ρ]

namespace Ipod4gBus

/-- Only the bus itself finds a violation: none of the other devices speaks of one. -/
structure SparedByRest (ρ : Type) [Peripherals ρ] : Prop where
  accesses : SparesMmu ρ
  vectors : ∀ (rest : ρ) (addr : U32), (Peripherals.evpR32 rest addr).Spares .mmuViolation

theorem route_spares {α : Type} (quiet : SparedByRest ρ) (s : Ipod4gBus β ρ) (phys : U32)
    {op : ∀ (M : Type) [Memory M], M → U32 → Access M α}
    (spared : ∀ (M : Type) [Memory M], SparesMmu M → ∀ m offset, (op M m offset).Spares .mmuViolation) :
    (s.route phys op).Spares .mmuViolation := by
  unfold route
  dsimp only
  cases Region.ofPhys phys with
  | sdram | fastram => exact spares_zoom.mpr (spared AsanRam AsanRam.sparesMmu _ _)
  | eidecon => exact spares_zoom.mpr (spared (EIDECon β) EIDECon.sparesMmu _ _)
  | memcon => exact spares_zoom.mpr (spared MemCon MemCon.sparesMmu _ _)
  | rest => exact spares_zoom.mpr (spared ρ quiet.accesses _ _)

theorem routeTo_spares_iff {α : Type} (quiet : SparedByRest ρ) {phys : Access (Ipod4gBus β ρ) U32}
    {op : ∀ (M : Type) [Memory M], M → U32 → Access M α}
    (spared : ∀ (M : Type) [Memory M], SparesMmu M → ∀ m offset, (op M m offset).Spares .mmuViolation) :
    (routeTo phys op).Spares .mmuViolation ↔ phys.Spares .mmuViolation := by
  constructor
  · exact Spares.of_bind
  · intro found
    exact found.bind fun s phys => s.route_spares quiet phys spared

/-- The same for an access that has a value. -/
theorem routeTo_map_spares_iff {w : Nat} (quiet : SparedByRest ρ)
    {phys : Access (Ipod4gBus β ρ) U32} {op : ∀ (M : Type) [Memory M], M → U32 → Access M (BitVec w)}
    (access : U32 → GuestAccess)
    (made : ∀ (M : Type) [Memory M], ∀ (m : M) offset,
      busAccess m (access offset) = (op M m offset).map fun _ => ()) :
    ((routeTo phys op).map fun _ => ()).Spares .mmuViolation ↔ phys.Spares .mmuViolation := by
  rw [spares_map]
  apply routeTo_spares_iff quiet
  intro M _ spared m offset
  have quietly := spared m (access offset)
  rw [made] at quietly
  exact spares_map.mp quietly

/-- Behind the translation nothing is a violation. -/
theorem busAccess_spares_iff (quiet : SparedByRest ρ) (s : Ipod4gBus β ρ) (a : GuestAccess) :
    (busAccess s a).Spares .mmuViolation ↔ (s.physOf a).Spares .mmuViolation := by
  cases a with
  | r8 addr => exact routeTo_map_spares_iff quiet .r8 fun _ _ _ _ => rfl
  | r16 addr => exact routeTo_map_spares_iff quiet .r16 fun _ _ _ _ => rfl
  | r32 addr => exact routeTo_map_spares_iff quiet .r32 fun _ _ _ _ => rfl
  | w8 addr val => exact routeTo_spares_iff quiet fun M _ spared m offset => spared m (.w8 offset val)
  | w16 addr val => exact routeTo_spares_iff quiet fun M _ spared m offset => spared m (.w16 offset val)
  | w32 addr val => exact routeTo_spares_iff quiet fun M _ spared m offset => spared m (.w32 offset val)
  | x16 addr => exact routeTo_map_spares_iff quiet .x16 fun _ _ _ _ => rfl
  | x32 addr => exact routeTo_map_spares_iff quiet .x32 fun _ _ _ _ => rfl

/-- The address a read is translated from. -/
def readAddr (s : Ipod4gBus β ρ) (addr : U32) : U32 :=
  if s.inEvt addr then addr ||| 0x6000f100 else addr

omit [BlockDev β] in
theorem readPhys_spares_iff (s : Ipod4gBus β ρ) (addr : U32) :
    (Outcome.done s (s.readPhys addr)).Spares .mmuViolation ↔
      s.memcon.current.Readable (s.readAddr addr) := by
  rw [← MemConImpl.virtToPhys_read_iff, ← MemCon.virtToPhys_eq_current]
  have phys : s.readPhys addr = if (s.memcon.virtToPhys (s.readAddr addr) .read).2.r then
      .ok (s.memcon.virtToPhys (s.readAddr addr) .read).1 else .error .mmuViolation := rfl
  rw [phys]
  cases permitted : (s.memcon.virtToPhys (s.readAddr addr) .read).2.r <;> simp

omit [BlockDev β] [Peripherals ρ] in
theorem writePhys_spares (s : Ipod4gBus β ρ) (addr : U32) :
    (Outcome.done s (s.writePhys addr)).Spares .mmuViolation := by
  unfold writePhys
  rw [MemCon.virtToPhys_eq_current]
  dsimp only
  rw [if_pos (s.memcon.current.virtToPhys_write addr)]
  exact spares_ok _ _

omit [BlockDev β] in
theorem execPhys_spares (quiet : SparedByRest ρ) (s : Ipod4gBus β ρ) (addr : U32) :
    (s.execPhys addr).Spares .mmuViolation := by
  unfold execPhys
  split
  · exact spares_zoom.mpr (quiet.vectors s.rest addr)
  · rw [MemCon.virtToPhys_eq_current]
    dsimp only
    rw [if_pos (s.memcon.current.virtToPhys_execute addr)]
    exact spares_ok _ _

/-- No access is refused for want of permission, apart from a read of what is mapped for data
alone. -/
theorem permission_agrees_iff (quiet : SparedByRest ρ) (s : Ipod4gBus β ρ) (a : GuestAccess) :
    (busAccess s a).Spares .mmuViolation ↔
      (a.kind = .read → s.memcon.current.Readable (s.readAddr a.addr)) := by
  rw [busAccess_spares_iff quiet]
  cases a with
  | r8 addr | r16 addr | r32 addr =>
    exact (s.readPhys_spares_iff addr).trans ⟨fun readable _ => readable, fun readable => readable rfl⟩
  | w8 addr val | w16 addr val | w32 addr val =>
    exact iff_of_true (s.writePhys_spares addr) nofun
  | x16 addr | x32 addr => exact iff_of_true (s.execPhys_spares quiet addr) nofun

theorem stub_spares : SparedByRest Stub where
  accesses := by
    intro m a
    cases a with
    | r8 offset | r16 offset | r32 offset | x16 offset | x32 offset =>
      exact spares_map.mpr ((spares_raise _ _).mpr nofun)
    | w8 offset val | w16 offset val | w32 offset val => exact (spares_raise _ _).mpr nofun
  vectors := by
    intro rest addr
    exact (spares_raise _ _).mpr nofun

/-- All mappings lay RAM over itself: the first for writes alone, the second for reads, and the others for
data alone. -/
def layered : Ipod4gBus Mem Stub :=
  { Ipod4g.fresh.devices with
    memcon.cpucon.mmap := fun no =>
      { logical := 0x10003800
        physical := if no.val = 0 then 0x10000200 else if no.val = 1 then 0x10000100 else 0x10000400 } }

/-- A read selects the second one, and the bus lets it through. -/
theorem selected_read_permitted : layered.memcon.current.chosen 0x10000000 .read = some 1 ∧
    (busAccess layered (.r32 0x10000000)).Spares .mmuViolation := by
  have selected : layered.memcon.current.chosen 0x10000000 .read = some 1 := by decide +kernel
  refine ⟨selected, (permission_agrees_iff stub_spares layered _).mpr fun _ no least => ?_⟩
  have same : some no = some 1 := (MemConImpl.chosen_eq_some_iff.mpr least).symm.trans selected
  rw [Option.some.inj same]
  rfl

/-- The first mapping lays RAM over itself, for data alone. -/
def dataOnly : Ipod4gBus Mem Stub :=
  { Ipod4g.fresh.devices with
    memcon.cpucon.mmap := fun no =>
      if no.val = 0 then { logical := 0x10003800, physical := 0x10000400 } else {} }

theorem data_read_refused : ¬ (busAccess dataOnly (.r32 0x10000000)).Spares .mmuViolation := by
  intro spared
  exact spared dataOnly rfl

end Ipod4gBus
end Clicky
