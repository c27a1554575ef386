import Clicky.DmaSafety
import Clicky.Ide.DataPhase
import Clicky.WakeUp

/-! The memory side of the DMA section, and the core whose address translation it finds
selected. -/
namespace Clicky
open Outcome

/-- The halfword that goes to or from memory. -/
inductive HalfwordAccess where
  | load (addr : U32)
  | store (addr : U32) (val : U16)
  deriving DecidableEq, Repr

namespace IdeController

/-- Two halfwords the drive takes leave different controllers. -/
theorem writeData_injective {β : Type} [BlockDev β] {s s' : IdeController β} {a b : U16}
    (first : s.write16 .data a = .ok s' ()) (second : s.write16 .data b = .ok s' ()) : a = b := by
  unfold write16 onSelected at first second
  cases selected : s.unit? s.selectedDevice with
  | none =>
    rw [selected] at first
    cases first
  | some u =>
    rw [selected] at first second
    obtain ⟨d₁, one, rfl⟩ := zoom_eq_done.mp first
    obtain ⟨d₂, two, same⟩ := zoom_eq_done.mp second
    have units := congrArg (fun s' => s'.unit? s.selectedDevice) same
    unfold putSelected at units
    rw [unit?_setUnit, unit?_setUnit, if_pos rfl, if_pos rfl] at units
    exact IdeDrive.dataWrite16_injective one two
      (congrArg (fun u => u.iobuf.buf) (Option.some.inj units)).symm

end IdeController

namespace MemConImpl

abbrev InMappings (offset : U32) : Prop := 0xf000 ≤ offset ∧ offset ≤ 0xf03f

/-- The register of a mapping. -/
def mappingReg (s : MemConImpl) (offset : U32) : U32 :=
  if offset &&& 0b100 = 0 then (s.mmap (mmapNo offset)).logical
  else (s.mmap (mmapNo offset)).physical

theorem r32_cases (offset : U32) :
    InMappings offset ∧ (∀ s : MemConImpl, s.r32 offset = .ok s (s.mappingReg offset)) ∨
    ¬ InMappings offset ∧ ∀ s : MemConImpl, ¬ (s.r32 offset).Returns := by
  by_cases inside : InMappings offset
  · refine .inl ⟨inside, fun s => ?_⟩
    obtain ⟨low, high⟩ := inside
    unfold r32
    rw [if_neg (by bv_omega), if_neg (by bv_omega), if_neg (by bv_omega), if_neg (by bv_omega),
      if_neg (by bv_omega), if_pos ⟨low, high⟩]
    rfl
  · refine .inr ⟨inside, fun s => ?_⟩
    unfold r32
    rw [if_neg (c := 0xf000 ≤ offset ∧ offset ≤ 0xf03f) inside]
    repeat' split
    all_goals exact returns_raise _ _

end MemConImpl

def MemCon.core (s : MemCon) : CpuId → MemConImpl
  | .cpu => s.cpucon
  | .cop => s.copcon

theorem MemCon.r16_cases (offset : U32) :
    (offset &&& 0x3 = 0 ∧ MemConImpl.InMappings offset ∧ ∀ (s : MemCon) (id : CpuId),
      Memory.r16 (s.setCpuid id) offset =
        .ok (s.setCpuid id) (((s.core id).mappingReg offset).setWidth 16)) ∨
    (¬ (offset &&& 0x3 = 0 ∧ MemConImpl.InMappings offset) ∧ ∀ s : MemCon,
      ¬ (Memory.r16 s offset).Returns) := by
  have narrow (s : MemCon) : Memory.r16 s offset =
      if offset &&& 0x3 ≠ 0 then .raise s .misaligned else (s.r32 offset).map (·.setWidth 16) := rfl
  by_cases aligned : offset &&& 0x3 = 0
  · rcases MemConImpl.r32_cases offset with ⟨inside, value⟩ | ⟨outside, raises⟩
    · refine .inl ⟨aligned, inside, fun s id => ?_⟩
      rw [narrow, if_neg (not_not_intro aligned)]
      cases id with
      | cpu =>
        change (((s.cpucon.r32 offset).zoom _).map _) = _
        rw [value]
        rfl
      | cop =>
        change (((s.copcon.r32 offset).zoom _).map _) = _
        rw [value]
        rfl
    · refine .inr ⟨fun h => outside h.2, fun s => ?_⟩
      rw [narrow, if_neg (not_not_intro aligned), returns_map, r32]
      cases s.selected with
      | cpu => exact fun returned => raises s.cpucon (returns_zoom.mp returned)
      | cop => exact fun returned => raises s.copcon (returns_zoom.mp returned)
  · refine .inr ⟨fun h => aligned h.1, fun s => ?_⟩
    rw [narrow, if_pos aligned]
    exact returns_raise _ _

namespace CpuIdReg

theorem r32_refused (s : CpuIdReg) {offset : U32} (other : offset ≠ 0x0) :
    ¬ (s.r32 offset).Returns := by
  unfold r32
  split
  · exact absurd rfl other
  · exact returns_raise _ _

theorem w32_refused (s : CpuIdReg) (offset val : U32) : ¬ (s.w32 offset val).Returns := by
  unfold w32
  split <;> exact returns_raise _ _

theorem r16_cases (offset : U32) :
    (offset = 0x0 ∧ ∀ (s : CpuIdReg) (id : CpuId),
      Memory.r16 (s.setCpuid id) offset = .ok (s.setCpuid id) ((value id).setWidth 16)) ∨
    (offset ≠ 0x0 ∧ ∀ s : CpuIdReg, ¬ (Memory.r16 s offset).Returns) := by
  by_cases zero : offset = 0x0
  · subst zero
    exact .inl ⟨rfl, fun _ _ => rfl⟩
  · exact .inr ⟨zero, fun s => narrow_refused fun h => s.r32_refused zero (returns_map.mp h)⟩

theorem w16_refused (s : CpuIdReg) (offset : U32) (val : U16) :
    ¬ (Memory.w16 s offset val).Returns := narrow_refused (s.w32_refused offset _)

end CpuIdReg

namespace Mailbox

theorem r32_refused (s : Mailbox) {offset : U32} (other : offset ≠ 0x00) :
    ¬ (s.r32 offset).Returns := by
  unfold r32
  repeat' split
  · exact absurd rfl other
  all_goals exact returns_raise _ _

theorem w32_refused (s : Mailbox) {offset : U32} (quiet : ¬ (offset = 0x04 ∨ offset = 0x08))
    (val : U32) : ¬ (s.w32 offset val).Returns := by
  unfold w32
  repeat' split
  all_goals first | exact returns_raise _ _ | exact absurd (by simp) quiet

theorem r16_cases (offset : U32) :
    (offset = 0x00 ∧ ∀ (s : Mailbox) (id : CpuId),
      Memory.r16 (s.setCpuid id) offset =
        .ok (s.setCpuid id).ackIrq (s.sharedBits.setWidth 16)) ∨
    (offset ≠ 0x00 ∧ ∀ s : Mailbox, ¬ (Memory.r16 s offset).Returns) := by
  by_cases zero : offset = 0x00
  · subst zero
    exact .inl ⟨rfl, fun _ _ => rfl⟩
  · exact .inr ⟨zero, fun s => narrow_refused fun h => s.r32_refused zero (returns_map.mp h)⟩

/-- The registers that interrupt the other core: Set and Clear. -/
theorem w16_cases (offset : U32) (val : U16) :
    ((offset = 0x04 ∨ offset = 0x08) ∧ ∃ bits : U32 → U32, ∀ (s : Mailbox) (id : CpuId),
      Memory.w16 (s.setCpuid id) offset val =
        .ok ({ s with sharedBits := bits s.sharedBits }.setCpuid id).fireIrq ()) ∨
    (¬ (offset = 0x04 ∨ offset = 0x08) ∧ ∀ s : Mailbox, ¬ (Memory.w16 s offset val).Returns) := by
  by_cases fires : offset = 0x04 ∨ offset = 0x08
  · refine .inl ⟨fires, ?_⟩
    rcases fires with rfl | rfl
    · exact ⟨fun bits => bits ||| val.setWidth 32, fun _ _ => rfl⟩
    · exact ⟨fun bits => bits &&& ~~~val.setWidth 32, fun _ _ => rfl⟩
  · exact .inr ⟨fires, fun s => narrow_refused (s.w32_refused fires _)⟩

end Mailbox

namespace Platform

variable {ρ α : Type} [OtherDevices ρ]

def SameButCore (s s' : Platform ρ) : Prop := s.setCpuid .cpu = s'.setCpuid .cpu

def TellsCoresApart (phys : U32) : Prop :=
  (PlatformDevice.ofPhys phys).1 = .cpuid ∨ (PlatformDevice.ofPhys phys).1 = .mailbox

theorem route_alike (s : Platform ρ) {phys : U32} (blind : ¬ TellsCoresApart phys)
    (op : ∀ (M : Type) [Memory M], M → U32 → Access M α) :
    ((s.setCpuid .cpu).route phys op).Alike SameButCore ((s.setCpuid .cop).route phys op) := by
  unfold TellsCoresApart at blind
  unfold route
  generalize PlatformDevice.ofPhys phys = entry at blind
  obtain ⟨device, start⟩ := entry
  cases device with
  | cpuid => exact absurd (.inl rfl) blind
  | mailbox => exact absurd (.inr rfl) blind
  | intcon | cpucon | cachecon | evp | others =>
    refine alike_zoom ?_ _
    intro m
    rfl

theorem start_of_cpuid {phys start : U32} (entry : PlatformDevice.ofPhys phys = (.cpuid, start)) :
    start = 0x60000000 := by
  unfold PlatformDevice.ofPhys at entry
  repeat' split at entry
  all_goals cases entry
  rfl

theorem start_of_mailbox {phys start : U32}
    (entry : PlatformDevice.ofPhys phys = (.mailbox, start)) : start = 0x60001000 := by
  unfold PlatformDevice.ofPhys at entry
  repeat' split at entry
  all_goals cases entry
  rfl

/-- The id register and the status of the mailbox are what each core reads in its own way. -/
theorem load_cases (s : Platform ρ) (phys : U32) :
    (phys = 0x60000000 ∧ ∀ id, Memory.r16 (s.setCpuid id) phys =
      .ok (s.setCpuid id) ((CpuIdReg.value id).setWidth 16)) ∨
    (phys = 0x60001000 ∧ ∀ id, Memory.r16 (s.setCpuid id) phys =
      .ok { s.setCpuid id with mailbox := (s.mailbox.setCpuid id).ackIrq }
        (s.mailbox.sharedBits.setWidth 16)) ∨
    (phys ≠ 0x60000000 ∧ phys ≠ 0x60001000 ∧ ∀ message,
      ((Memory.r16 (s.setCpuid .cpu) phys).orPanic message :
        Outcome FatalMemException (Platform ρ) U16).Alike SameButCore
        ((Memory.r16 (s.setCpuid .cop) phys).orPanic message)) := by
  have routed (id : CpuId) : Memory.r16 (s.setCpuid id) phys =
      (s.setCpuid id).route phys fun _ => Memory.r16 := rfl
  rcases entry : PlatformDevice.ofPhys phys with ⟨device, start⟩
  by_cases blind : TellsCoresApart phys
  · unfold TellsCoresApart at blind
    rw [entry] at blind
    simp only [routed, route, entry]
    rcases blind with rfl | rfl
    · obtain rfl := start_of_cpuid entry
      rcases CpuIdReg.r16_cases (phys - 0x60000000) with ⟨zero, value⟩ | ⟨other, refused⟩
      · have here : phys = 0x60000000 := by bv_omega
        refine .inl ⟨here, fun id => ?_⟩
        exact congrArg (Outcome.zoom _) (value s.cpuid id)
      · refine .inr (.inr ⟨by bv_omega, ?_, fun message => ?_⟩)
        · rintro rfl
          cases entry
        · exact alike_zoom_of_refused (refused _) (refused _) message
    · obtain rfl := start_of_mailbox entry
      rcases Mailbox.r16_cases (phys - 0x60001000) with ⟨zero, value⟩ | ⟨other, refused⟩
      · have here : phys = 0x60001000 := by bv_omega
        refine .inr (.inl ⟨here, fun id => ?_⟩)
        exact congrArg (Outcome.zoom _) (value s.mailbox id)
      · refine .inr (.inr ⟨?_, by bv_omega, fun message => ?_⟩)
        · rintro rfl
          cases entry
        · exact alike_zoom_of_refused (refused _) (refused _) message
  · refine .inr (.inr ⟨?_, ?_, fun message => (s.route_alike blind _).orPanic message⟩)
    · rintro rfl
      exact blind (.inl rfl)
    · rintro rfl
      exact blind (.inr rfl)

/-- The registers of the mailbox that interrupt are what each core writes in its own way. -/
theorem store_cases (s : Platform ρ) (phys : U32) (val : U16) :
    ((phys = 0x60001004 ∨ phys = 0x60001008) ∧ ∃ bits, ∀ id, Memory.w16 (s.setCpuid id) phys val =
      .ok { s.setCpuid id with
        mailbox := ({ s.mailbox with sharedBits := bits }.setCpuid id).fireIrq } ()) ∨
    (¬ (phys = 0x60001004 ∨ phys = 0x60001008) ∧ ∀ message,
      ((Memory.w16 (s.setCpuid .cpu) phys val).orPanic message :
        Outcome FatalMemException (Platform ρ) Unit).Alike SameButCore
        ((Memory.w16 (s.setCpuid .cop) phys val).orPanic message)) := by
  have routed (id : CpuId) : Memory.w16 (s.setCpuid id) phys val =
      (s.setCpuid id).route phys fun _ _ m offset => Memory.w16 m offset val := rfl
  rcases entry : PlatformDevice.ofPhys phys with ⟨device, start⟩
  by_cases blind : TellsCoresApart phys
  · unfold TellsCoresApart at blind
    rw [entry] at blind
    simp only [routed, route, entry]
    rcases blind with rfl | rfl
    · obtain rfl := start_of_cpuid entry
      refine .inr ⟨?_, fun message => ?_⟩
      · rintro (rfl | rfl) <;> cases entry
      · exact alike_zoom_of_refused (CpuIdReg.w16_refused _ _ _) (CpuIdReg.w16_refused _ _ _) message
    · obtain rfl := start_of_mailbox entry
      rcases Mailbox.w16_cases (phys - 0x60001000) val with ⟨fires, bits, value⟩ | ⟨other, refused⟩
      · have here : phys = 0x60001004 ∨ phys = 0x60001008 := by bv_omega
        refine .inl ⟨here, bits s.mailbox.sharedBits, fun id => ?_⟩
        exact congrArg (Outcome.zoom _) (value s.mailbox id)
      · refine .inr ⟨by bv_omega, fun message => ?_⟩
        exact alike_zoom_of_refused (refused _) (refused _) message
  · refine .inr ⟨?_, fun message => (s.route_alike blind _).orPanic message⟩
    rintro (rfl | rfl)
    · exact blind (.inr rfl)
    · exact blind (.inr rfl)

end Platform

namespace Ipod4gBus

variable {β ρ : Type} [BlockDev β] [OtherDevices ρ]

/-- Two buses that differ at most in the core selected last. -/
def SameButCore (s s' : Ipod4gBus β (Platform ρ)) : Prop := s.setCpuid .cpu = s'.setCpuid .cpu

def TellsCoresApart (phys : U32) : Prop :=
  Region.ofPhys phys = .memcon ∨ Region.ofPhys phys = .rest ∧ Platform.TellsCoresApart phys

/-- The 16 bit access at a physical address. -/
def loadFrom (s : Ipod4gBus β (Platform ρ)) (phys : U32) : Access (Ipod4gBus β (Platform ρ)) U16 :=
  s.route phys fun _ => Memory.r16

def storeTo (s : Ipod4gBus β (Platform ρ)) (phys : U32) (val : U16) :
    Access (Ipod4gBus β (Platform ρ)) Unit :=
  s.route phys fun _ _ m offset => Memory.w16 m offset val

theorem r16_of_phys {s : Ipod4gBus β (Platform ρ)} {addr phys : U32}
    (target : s.readPhys addr = .ok phys) : s.r16 addr = s.loadFrom phys := by
  unfold r16 routeTo
  rw [target]
  rfl

theorem w16_of_phys {s : Ipod4gBus β (Platform ρ)} {addr phys : U32}
    (target : s.writePhys addr = .ok phys) (val : U16) : s.w16 addr val = s.storeTo phys val := by
  unfold w16 routeTo
  rw [target]
  rfl

/-- The calls below are those of the DMA section, which panics at any exception. -/
abbrev OrPanics {α : Type} (o o' : Access (Ipod4gBus β (Platform ρ)) α) : Prop :=
  (o.orPanic unwrapped : Outcome FatalMemException (Ipod4gBus β (Platform ρ)) α).Alike SameButCore
    (o'.orPanic unwrapped)

theorem route_alike {α : Type} (s : Ipod4gBus β (Platform ρ)) {phys : U32}
    (op : ∀ (M : Type) [Memory M], M → U32 → Access M α) (elsewhere : Region.ofPhys phys ≠ .memcon)
    (rest : Region.ofPhys phys = .rest →
      ((op (Platform ρ) (s.rest.setCpuid .cpu) phys).orPanic unwrapped :
        Outcome FatalMemException (Platform ρ) α).Alike Platform.SameButCore
        ((op (Platform ρ) (s.rest.setCpuid .cop) phys).orPanic unwrapped)) :
    OrPanics ((s.setCpuid .cpu).route phys op) ((s.setCpuid .cop).route phys op) := by
  unfold route
  cases region : Region.ofPhys phys with
  | sdram | fastram | eidecon =>
    refine (alike_zoom ?_ _).orPanic unwrapped
    intro m
    rfl
  | memcon => exact absurd region elsewhere
  | rest =>
    have start : phys - Region.rest.start = phys := BitVec.sub_zero phys
    dsimp only [OrPanics]
    rw [start, orPanic_zoom, orPanic_zoom]
    refine (rest region).zoom fun m m' same => ?_
    exact congrArg (fun rest => { s.setCpuid .cpu with rest }) same

/-- The halfword at an address where each core finds one of its own. -/
def ownHalfword (s : Ipod4gBus β (Platform ρ)) (phys : U32) (id : CpuId) : Option U16 :=
  match Region.ofPhys phys with
  | .memcon =>
    let offset := phys - Region.memcon.start
    if offset &&& 0x3 = 0 ∧ MemConImpl.InMappings offset then
      some (((s.memcon.core id).mappingReg offset).setWidth 16)
    else none
  | .rest => if phys = 0x60000000 then some ((CpuIdReg.value id).setWidth 16) else none
  | .sdram | .fastram | .eidecon => none

def ackMailbox (s : Ipod4gBus β (Platform ρ)) : Ipod4gBus β (Platform ρ) :=
  { s with rest.mailbox := s.rest.mailbox.ackIrq }

/-- What a load comes to with either core selected. -/
inductive Loads (s : Ipod4gBus β (Platform ρ)) (phys : U32) : Prop where
  | blind (common : ∀ id, s.ownHalfword phys id = none) (elsewhere : phys ≠ 0x60001000)
      (alike : OrPanics ((s.setCpuid .cpu).loadFrom phys) ((s.setCpuid .cop).loadFrom phys))
  | own (val : CpuId → U16) (own : ∀ id, s.ownHalfword phys id = some (val id))
      (elsewhere : phys ≠ 0x60001000)
      (loads : ∀ id, (s.setCpuid id).loadFrom phys = .ok (s.setCpuid id) (val id))
  | status (common : ∀ id, s.ownHalfword phys id = none) (here : phys = 0x60001000)
      (loads : ∀ id, (s.setCpuid id).loadFrom phys =
        .ok (s.setCpuid id).ackMailbox (s.rest.mailbox.sharedBits.setWidth 16))

theorem loads (s : Ipod4gBus β (Platform ρ)) (phys : U32) : s.Loads phys := by
  have routed (id : CpuId) : (s.setCpuid id).loadFrom phys =
      (s.setCpuid id).route phys fun _ => Memory.r16 := rfl
  cases region : Region.ofPhys phys with
  | sdram | fastram | eidecon =>
    refine .blind (fun id => ?_) ?_ (s.route_alike _ ?_ ?_)
    · simp only [ownHalfword, region]
    · rintro rfl
      cases region
    · simp [region]
    · simp [region]
  | memcon =>
    have elsewhere : phys ≠ 0x60001000 := by
      rintro rfl
      cases region
    rcases MemCon.r16_cases (phys - Region.memcon.start) with
      ⟨aligned, inside, value⟩ | ⟨outside, refused⟩
    · refine .own (fun id => ((s.memcon.core id).mappingReg (phys - Region.memcon.start)).setWidth 16)
        (fun id => ?_) elsewhere fun id => ?_
      · simp only [ownHalfword, region]
        exact if_pos ⟨aligned, inside⟩
      · simp only [routed, route, region]
        exact congrArg (Outcome.zoom _) (value s.memcon id)
    · refine .blind (fun id => ?_) elsewhere ?_
      · simp only [ownHalfword, region]
        exact if_neg outside
      · simp only [routed, route, region]
        exact alike_zoom_of_refused (refused _) (refused _) unwrapped
  | rest =>
    have start : phys - Region.rest.start = phys := BitVec.sub_zero phys
    rcases s.rest.load_cases phys with ⟨here, value⟩ | ⟨here, value⟩ | ⟨other, elsewhere, alike⟩
    · refine .own (fun id => (CpuIdReg.value id).setWidth 16) (fun id => ?_) ?_ fun id => ?_
      · simp only [ownHalfword, region]
        exact if_pos here
      · rw [here]
        decide
      · simp only [routed, route, region, start]
        exact congrArg (Outcome.zoom _) (value id)
    · refine .status (fun id => ?_) here fun id => ?_
      · simp only [ownHalfword, region]
        exact if_neg (by rw [here]; decide)
      · simp only [routed, route, region, start]
        exact congrArg (Outcome.zoom _) (value id)
    · refine .blind (fun id => ?_) elsewhere (s.route_alike _ (by simp [region]) fun _ => alike unwrapped)
      simp only [ownHalfword, region]
      exact if_neg other

/-- What the drive does with a halfword from memory. -/
def feedDrive (s : Ipod4gBus β (Platform ρ)) (val : U16) : Access (Ipod4gBus β (Platform ρ)) Unit :=
  (s.eidecon.ide.write16 .data val).zoom s.putIde

theorem feedDrive_alike_iff {s s' : Ipod4gBus β (Platform ρ)} (drive : s'.eidecon = s.eidecon)
    (a b : U16) : OrPanics (s.feedDrive a) (s'.feedDrive b) ↔
      ¬ s.eidecon.ide.WritesHalfword a ∧ ¬ s.eidecon.ide.WritesHalfword b ∨
        a = b ∧ SameButCore s s' := by
  unfold feedDrive
  rw [OrPanics, alike_orPanic_iff, returns_zoom, returns_zoom, drive,
    IdeController.writeData_ok_iff, IdeController.writeData_ok_iff]
  constructor
  · rintro ⟨together, states⟩
    by_cases takes : s.eidecon.ide.WritesHalfword a
    · obtain ⟨ide, _, first⟩ := (s.eidecon.ide.writeData_ok_iff a).mpr takes
      obtain ⟨ide', _, second⟩ := (s.eidecon.ide.writeData_ok_iff b).mpr (together.mp takes)
      have same := (states _ () _ () (by rw [first]; rfl) (by rw [second]; rfl)).1
      have controllers : ide = ide' := congrArg (fun t => t.eidecon.ide) same
      subst controllers
      refine .inr ⟨IdeController.writeData_injective first second, ?_⟩
      have back := congrArg (fun t => t.putIde s.eidecon.ide) same
      nth_rewrite 2 [← drive] at back
      exact back
    · exact .inl ⟨takes, fun h => takes (together.mpr h)⟩
  · rintro (⟨none, none'⟩ | ⟨rfl, same⟩)
    · refine ⟨iff_of_false none none', fun t _ t' _ first _ => ?_⟩
      exact absurd ((s.eidecon.ide.writeData_ok_iff a).mp (returns_zoom.mp ⟨t, _, first⟩)) none
    · refine ⟨Iff.rfl, fun t _ t' _ first second => ⟨?_, rfl⟩⟩
      obtain ⟨ide, one, rfl⟩ := zoom_eq_done.mp first
      obtain ⟨ide', two, rfl⟩ := zoom_eq_done.mp second
      cases one.symm.trans two
      exact congrArg (fun t => t.putIde ide) same

omit [BlockDev β] in
theorem ackMailbox_same_iff (s : Ipod4gBus β (Platform ρ)) :
    SameButCore (s.setCpuid .cpu).ackMailbox (s.setCpuid .cop).ackMailbox ↔
      ¬ (s.rest.mailbox.cpuIrq.asserted = true ∨ s.rest.mailbox.copIrq.asserted = true) := by
  rw [not_or, Line.asserted_eq, Line.asserted_eq, Bool.not_eq_true, Bool.not_eq_true,
    ← Line.clear_eq_self_iff, ← Line.clear_eq_self_iff]
  constructor
  · intro same
    exact ⟨congrArg (fun t => t.rest.mailbox.cpuIrq) same,
      (congrArg (fun t => t.rest.mailbox.copIrq) same).symm⟩
  · rintro ⟨cpuLow, copLow⟩
    change ({ s.setCpuid .cpu with rest.mailbox.cpuIrq := s.rest.mailbox.cpuIrq.clear } :
        Ipod4gBus β (Platform ρ)) =
      { s.setCpuid .cpu with rest.mailbox.copIrq := s.rest.mailbox.copIrq.clear }
    rw [cpuLow, copLow]
    rfl

/-- A write to the mailbox that interrupts the other core. -/
def fireMailbox (s : Ipod4gBus β (Platform ρ)) (sharedBits : U32) : Ipod4gBus β (Platform ρ) :=
  { s with rest.mailbox := { s.rest.mailbox with sharedBits }.fireIrq }

omit [BlockDev β] in
theorem fireMailbox_same_iff (s : Ipod4gBus β (Platform ρ)) (bits : U32) :
    SameButCore ((s.setCpuid .cpu).fireMailbox bits) ((s.setCpuid .cop).fireMailbox bits) ↔
      (s.rest.mailbox.cpuIrq.asserted = true ∧ s.rest.mailbox.copIrq.asserted = true) := by
  rw [Line.asserted_eq, Line.asserted_eq, ← Line.assert_eq_self_iff, ← Line.assert_eq_self_iff]
  constructor
  · intro same
    exact ⟨(congrArg (fun t => t.rest.mailbox.cpuIrq) same).symm,
      congrArg (fun t => t.rest.mailbox.copIrq) same⟩
  · rintro ⟨cpuHigh, copHigh⟩
    change ({ s.setCpuid .cpu with
        rest.mailbox := { (s.setCpuid .cpu).rest.mailbox with
          sharedBits := bits, copIrq := s.rest.mailbox.copIrq.assert } } :
        Ipod4gBus β (Platform ρ)) =
      { s.setCpuid .cpu with
        rest.mailbox := { (s.setCpuid .cpu).rest.mailbox with
          sharedBits := bits, cpuIrq := s.rest.mailbox.cpuIrq.assert } }
    rw [cpuHigh, copHigh]
    rfl

/-- The access finds something of the selected core's own at the physical address, and that shows
afterwards. A load shows only through the drive, when that takes the halfword. -/
def Apart (s : Ipod4gBus β (Platform ρ)) (phys : U32) : HalfwordAccess → Prop
  | .load _ =>
    (∃ a b, s.ownHalfword phys .cpu = some a ∧ s.ownHalfword phys .cop = some b ∧ a ≠ b ∧
      (s.eidecon.ide.WritesHalfword a ∨ s.eidecon.ide.WritesHalfword b)) ∨
    (phys = 0x60001000 ∧
      (s.rest.mailbox.cpuIrq.asserted = true ∨ s.rest.mailbox.copIrq.asserted = true) ∧
      s.eidecon.ide.WritesHalfword (s.rest.mailbox.sharedBits.setWidth 16))
  | .store _ _ => (phys = 0x60001004 ∨ phys = 0x60001008) ∧
    ¬ (s.rest.mailbox.cpuIrq.asserted = true ∧ s.rest.mailbox.copIrq.asserted = true)

/-- The access at a physical address, with what follows it. -/
def performAt (s : Ipod4gBus β (Platform ρ)) (phys : U32) : HalfwordAccess →
    Outcome FatalMemException (Ipod4gBus β (Platform ρ)) Unit
  | .load _ =>
    ((s.loadFrom phys).orPanic unwrapped).bind fun s val => (s.feedDrive val).orPanic unwrapped
  | .store _ val => (s.storeTo phys val).orPanic unwrapped

/-- Halfwords of the cores' own show when they differ and the drive takes one of them. -/
theorem feedOwn_alike_iff (s : Ipod4gBus β (Platform ρ)) (a b : U16) :
    OrPanics ((s.setCpuid .cpu).feedDrive a) ((s.setCpuid .cop).feedDrive b) ↔
      ¬ (a ≠ b ∧ (s.eidecon.ide.WritesHalfword a ∨ s.eidecon.ide.WritesHalfword b)) := by
  have drive : (s.setCpuid .cop).eidecon = (s.setCpuid .cpu).eidecon := rfl
  refine (feedDrive_alike_iff drive a b).trans ?_
  change (¬ s.eidecon.ide.WritesHalfword a ∧ ¬ s.eidecon.ide.WritesHalfword b ∨ _) ↔ _
  constructor
  · rintro (⟨none, none'⟩ | ⟨same, _⟩) ⟨differ, taken⟩
    · exact taken.elim none none'
    · exact differ same
  · intro blind
    by_cases same : a = b
    · exact .inr ⟨same, rfl⟩
    · exact .inl ⟨fun taken => blind ⟨same, .inl taken⟩, fun taken => blind ⟨same, .inr taken⟩⟩

/-- The status shows by the interrupt it acknowledges, when the drive takes the halfword. -/
theorem feedStatus_alike_iff (s : Ipod4gBus β (Platform ρ)) (val : U16) :
    OrPanics ((s.setCpuid .cpu).ackMailbox.feedDrive val)
        ((s.setCpuid .cop).ackMailbox.feedDrive val) ↔
      ¬ ((s.rest.mailbox.cpuIrq.asserted = true ∨ s.rest.mailbox.copIrq.asserted = true) ∧
        s.eidecon.ide.WritesHalfword val) := by
  have acked : (s.setCpuid .cop).ackMailbox.eidecon = (s.setCpuid .cpu).ackMailbox.eidecon := rfl
  refine (feedDrive_alike_iff acked val val).trans ?_
  rw [ackMailbox_same_iff]
  change (¬ s.eidecon.ide.WritesHalfword val ∧ ¬ s.eidecon.ide.WritesHalfword val ∨ _) ↔ _
  constructor
  · rintro (⟨none, _⟩ | ⟨_, low⟩) ⟨up, taken⟩
    · exact none taken
    · exact low up
  · intro blind
    by_cases taken : s.eidecon.ide.WritesHalfword val
    · exact .inr ⟨rfl, fun up => blind ⟨up, taken⟩⟩
    · exact .inl ⟨taken, taken⟩

theorem load_alike_iff (s : Ipod4gBus β (Platform ρ)) (phys addr : U32) :
    ((s.setCpuid .cpu).performAt phys (.load addr)).Alike SameButCore
      ((s.setCpuid .cop).performAt phys (.load addr)) ↔ ¬ s.Apart phys (.load addr) := by
  unfold performAt Apart
  dsimp only
  rcases s.loads phys with ⟨common, elsewhere, alike⟩ | ⟨val, own, elsewhere, loads⟩ |
    ⟨common, here, loads⟩
  · refine iff_of_true (alike.bind fun t t' val same => ?_) ?_
    · exact (feedDrive_alike_iff (congrArg (·.eidecon) same).symm val val).mpr (.inr ⟨rfl, same⟩)
    · rintro (⟨a, _, own, _⟩ | ⟨here, _⟩)
      · rw [common] at own
        cases own
      · exact elsewhere here
  · rw [loads, loads]
    refine (s.feedOwn_alike_iff (val .cpu) (val .cop)).trans (not_congr ?_)
    constructor
    · rintro ⟨differ, taken⟩
      exact .inl ⟨_, _, own .cpu, own .cop, differ, taken⟩
    · rintro (⟨a, b, cpu, cop, differ, taken⟩ | ⟨here, _⟩)
      · rw [own] at cpu cop
        cases cpu
        cases cop
        exact ⟨differ, taken⟩
      · exact absurd here elsewhere
  · rw [loads, loads]
    refine (s.feedStatus_alike_iff _).trans (not_congr ?_)
    constructor
    · rintro ⟨up, taken⟩
      exact .inr ⟨here, up, taken⟩
    · rintro (⟨a, _, own, _⟩ | ⟨_, up, taken⟩)
      · rw [common] at own
        cases own
      · exact ⟨up, taken⟩

theorem store_alike_iff (s : Ipod4gBus β (Platform ρ)) (phys addr : U32) (val : U16) :
    ((s.setCpuid .cpu).performAt phys (.store addr val)).Alike SameButCore
      ((s.setCpuid .cop).performAt phys (.store addr val)) ↔ ¬ s.Apart phys (.store addr val) := by
  unfold performAt Apart
  dsimp only
  have routed (id : CpuId) : (s.setCpuid id).storeTo phys val =
      (s.setCpuid id).route phys fun _ _ m offset => Memory.w16 m offset val := rfl
  cases region : Region.ofPhys phys with
  | sdram | fastram | eidecon =>
    refine iff_of_true (s.route_alike _ (by simp [region]) (by simp [region])) ?_
    rintro ⟨rfl | rfl, _⟩
    · cases region
    · cases region
  | memcon =>
    refine iff_of_true ?_ ?_
    · simp only [routed, route, region]
      have refused (m : MemCon) : ¬ (Memory.w16 m (phys - Region.memcon.start) val).Returns := by
        obtain ⟨_, _, raised⟩ := m.w16_raises (phys - Region.memcon.start) val
        rw [raised]
        exact returns_raise _ _
      exact alike_zoom_of_refused (refused _) (refused _) unwrapped
    · rintro ⟨rfl | rfl, _⟩
      · cases region
      · cases region
  | rest =>
    have start : phys - Region.rest.start = phys := BitVec.sub_zero phys
    rcases s.rest.store_cases phys val with ⟨here, bits, fires⟩ | ⟨elsewhere, alike⟩
    · have fired (id : CpuId) : (s.setCpuid id).storeTo phys val =
          .ok ((s.setCpuid id).fireMailbox bits) () := by
        simp only [routed, route, region, start]
        refine (congrArg (Outcome.zoom _) (fires id)).trans ?_
        cases id <;> rfl
      rw [fired, fired]
      refine Iff.trans (and_iff_left rfl) ((s.fireMailbox_same_iff bits).trans ?_)
      exact ⟨fun up blind => blind.2 up, fun h => not_not.mp fun low => h ⟨here, low⟩⟩
    · refine iff_of_true (s.route_alike _ (by simp [region]) fun _ => alike unwrapped) ?_
      exact fun apart => elsewhere apart.1

instance (s : EIDECon β) : Decidable (DmaRegisters s) := instDecidableAnd

/-- The access the DMA section makes to memory, if it gets that far, and the bus at that point: for
a store the drive has been read before. -/
def memorySide (s : Ipod4gBus β (Platform ρ)) :
    Option (Ipod4gBus β (Platform ρ) × HalfwordAccess) :=
  if s.eidecon.ide.dmarq.trigger = true ∧ s.eidecon.ide.dmarq.ownSignal = true ∧
      DmaRegisters s.eidecon then
    match s.eidecon.dmaKind with
    | .read =>
      match s.asked.eidecon.ide.read16 .data with
      | .ok ide val => some (s.asked.putIde ide, .store s.eidecon.dmaAddr val)
      | _ => none
    | .write => some (s.asked, .load s.eidecon.dmaAddr)
    | .execute => none
  else none

def locate (s : Ipod4gBus β (Platform ρ)) : HalfwordAccess → Except MemException U32
  | .load addr => s.readPhys addr
  | .store addr _ => s.writePhys addr

/-- The physical location the DMA section moves its halfword to or from. -/
def dmaTarget (s : Ipod4gBus β (Platform ρ)) : Option (Except MemException U32) :=
  s.memorySide.map fun (s, a) => s.locate a

def perform (s : Ipod4gBus β (Platform ρ)) (a : HalfwordAccess) :
    Outcome FatalMemException (Ipod4gBus β (Platform ρ)) Unit :=
  match s.locate a with
  | .ok phys => s.performAt phys a
  | .error _ => .panic unwrapped

theorem memorySide_setCpuid (s : Ipod4gBus β (Platform ρ)) (id : CpuId) :
    (s.setCpuid id).memorySide = s.memorySide.map fun (t, a) => (t.setCpuid id, a) := by
  have same : (s.setCpuid id).eidecon = s.eidecon := rfl
  have asked : (s.setCpuid id).asked = s.asked.setCpuid id := rfl
  have drive : (s.asked.setCpuid id).eidecon = s.asked.eidecon := rfl
  unfold memorySide
  rw [same, asked, drive]
  split
  · cases s.eidecon.dmaKind with
    | read =>
      dsimp only
      rcases s.asked.eidecon.ide.read16 .data with ⟨ide, e | val⟩ | m <;> rfl
    | write => rfl
    | execute => rfl
  · rfl

theorem ideDma_of_memorySide {s t : Ipod4gBus β (Platform ρ)} {a : HalfwordAccess}
    (side : s.memorySide = some (t, a)) : s.ideDma = t.perform a := by
  unfold memorySide at side
  split at side
  · rename_i moves
    obtain ⟨pending, high, regs⟩ := moves
    have moved : s.ideDma = s.asked.moveHalfword s.eidecon.dmaKind s.eidecon.dmaAddr := by
      rcases s.ideDma_cases with ⟨quiet, _⟩ | ⟨_, low, _⟩ | ⟨_, _, ⟨_, moved⟩ | ⟨wrong, _⟩⟩
      · rw [pending] at quiet
        cases quiet
      · rw [high] at low
        cases low
      · exact moved
      · exact absurd regs wrong
    rw [moved]
    cases kind : s.eidecon.dmaKind with
    | read =>
      rw [kind] at side
      dsimp only at side
      split at side
      · rename_i ide val read
        cases side
        unfold moveHalfword perform locate
        rw [read]
        dsimp only
        change (Ipod4gBus.w16 (s.asked.putIde ide) _ _).orPanic unwrapped = _
        cases target : (s.asked.putIde ide).writePhys s.eidecon.dmaAddr with
        | ok phys => rw [w16_of_phys target]; rfl
        | error e =>
          unfold w16 routeTo
          rw [target]
          rfl
      · cases side
    | write =>
      rw [kind] at side
      cases side
      unfold moveHalfword perform locate
      dsimp only
      cases target : s.asked.readPhys s.eidecon.dmaAddr with
      | ok phys => rw [r16_of_phys target]; rfl
      | error e =>
        unfold r16 routeTo
        rw [target]
        rfl
    | execute =>
      rw [kind] at side
      cases side
  · cases side

theorem moveHalfword_of_none {s : Ipod4gBus β (Platform ρ)} (none : s.memorySide = none)
    (moves : s.eidecon.ide.dmarq.trigger = true ∧ s.eidecon.ide.dmarq.ownSignal = true ∧
      DmaRegisters s.eidecon) :
    ∃ m, s.asked.moveHalfword s.eidecon.dmaKind s.eidecon.dmaAddr = .panic m := by
  unfold memorySide at none
  rw [if_pos moves] at none
  cases kind : s.eidecon.dmaKind with
  | read =>
    rw [kind] at none
    dsimp only at none
    unfold moveHalfword
    dsimp only
    split at none
    · cases none
    · rename_i refused
      have stuck : ¬ ((s.asked.eidecon.ide.read16 .data).zoom s.asked.putIde).Returns := by
        rintro ⟨_, val, read⟩
        obtain ⟨ide, read, _⟩ := zoom_eq_done.mp read
        exact refused ide val read
      rcases result : (s.asked.eidecon.ide.read16 .data).zoom s.asked.putIde with ⟨t, e | val⟩ | m
      · exact ⟨_, rfl⟩
      · exact absurd ⟨t, val, result⟩ stuck
      · exact ⟨_, rfl⟩
  | write =>
    rw [kind] at none
    cases none
  | execute => exact ⟨_, rfl⟩

theorem ideDma_quiet {s : Ipod4gBus β (Platform ρ)} (quiet : s.eidecon.ide.dmarq.trigger = false) :
    s.ideDma = .ok s () := by
  rcases s.ideDma_cases with ⟨_, stays⟩ | ⟨pending, _⟩ | ⟨pending, _⟩
  · exact stays
  · simp [quiet] at pending
  · simp [quiet] at pending

theorem ideDma_low {s : Ipod4gBus β (Platform ρ)} (pending : s.eidecon.ide.dmarq.trigger = true)
    (low : s.eidecon.ide.dmarq.ownSignal = false) : s.ideDma = .ok s.clearDmaPending () := by
  rcases s.ideDma_cases with ⟨quiet, _⟩ | ⟨_, _, stays⟩ | ⟨_, high, _⟩
  · simp [quiet] at pending
  · exact stays
  · simp [low] at high

theorem ideDma_stuck {s : Ipod4gBus β (Platform ρ)} (none : s.memorySide = none)
    (pending : s.eidecon.ide.dmarq.trigger = true) (high : s.eidecon.ide.dmarq.ownSignal = true) :
    ∃ m, s.ideDma = .panic m := by
  rcases s.ideDma_cases with ⟨quiet, _⟩ | ⟨_, low, _⟩ | ⟨_, _, ⟨regs, moved⟩ | ⟨_, stopped⟩⟩
  · simp [quiet] at pending
  · simp [low] at high
  · rw [moved]
    exact s.moveHalfword_of_none none ⟨pending, high, regs⟩
  · exact stopped

/-- Without an access to memory the cores have no part in the DMA section. -/
theorem ideDma_alike_of_none {s : Ipod4gBus β (Platform ρ)} (none : s.memorySide = none) :
    (s.setCpuid .cpu).ideDma.Alike SameButCore (s.setCpuid .cop).ideDma := by
  have sides (id : CpuId) : (s.setCpuid id).memorySide = Option.none := by
    rw [memorySide_setCpuid, none]
    rfl
  cases pending : s.eidecon.ide.dmarq.trigger with
  | false =>
    have stays (id : CpuId) : (s.setCpuid id).ideDma = .ok (s.setCpuid id) () := ideDma_quiet pending
    rw [stays, stays]
    exact ⟨rfl, rfl⟩
  | true =>
    cases high : s.eidecon.ide.dmarq.ownSignal with
    | false =>
      have stays (id : CpuId) : (s.setCpuid id).ideDma = .ok (s.setCpuid id).clearDmaPending () :=
        ideDma_low pending high
      rw [stays, stays]
      exact ⟨rfl, rfl⟩
    | true =>
      have stuck (id : CpuId) : ∃ m, (s.setCpuid id).ideDma = .panic m :=
        ideDma_stuck (sides id) pending high
      obtain ⟨m, cpu⟩ := stuck .cpu
      obtain ⟨m', cop⟩ := stuck .cop
      rw [cpu, cop]
      trivial

theorem perform_alike_iff {s : Ipod4gBus β (Platform ρ)} {a : HalfwordAccess}
    (target : (s.setCpuid .cpu).locate a = (s.setCpuid .cop).locate a) :
    ((s.setCpuid .cpu).perform a).Alike SameButCore ((s.setCpuid .cop).perform a) ↔
      ∀ phys, (s.setCpuid .cpu).locate a = .ok phys → ¬ s.Apart phys a := by
  unfold perform
  rw [← target]
  cases (s.setCpuid .cpu).locate a with
  | ok phys =>
    have blind : ((s.setCpuid .cpu).performAt phys a).Alike SameButCore
        ((s.setCpuid .cop).performAt phys a) ↔ ¬ s.Apart phys a := by
      cases a with
      | load addr => exact s.load_alike_iff phys addr
      | store addr val => exact s.store_alike_iff phys addr val
    refine blind.trans ⟨?_, fun h => h phys rfl⟩
    rintro h _ ⟨⟩
    exact h
  | error e => exact iff_of_true trivial (by rintro phys ⟨⟩)

/-- With either core selected last, the section moves its halfword to or from the same location
and comes to the same. -/
def DmaAlike (s : Ipod4gBus β (Platform ρ)) : Prop :=
  (s.setCpuid .cpu).dmaTarget = (s.setCpuid .cop).dmaTarget ∧
    (s.setCpuid .cpu).ideDma.Alike SameButCore (s.setCpuid .cop).ideDma

/-- If there is an access to memory, the mappings of both cores take it to the same location, and
neither core finds anything of its own there. -/
def CoresAgree (s : Ipod4gBus β (Platform ρ)) : Prop :=
  ∀ t a, s.memorySide = some (t, a) →
    (t.setCpuid .cpu).locate a = (t.setCpuid .cop).locate a ∧
      ∀ phys, (t.setCpuid .cpu).locate a = .ok phys → ¬ t.Apart phys a

/-- The DMA section does not depend on the core selected last exactly when the cores agree on the
location and find the same there. -/
theorem dma_alike_iff (s : Ipod4gBus β (Platform ρ)) : s.DmaAlike ↔ s.CoresAgree := by
  unfold DmaAlike CoresAgree dmaTarget
  have cpu := s.memorySide_setCpuid .cpu
  have cop := s.memorySide_setCpuid .cop
  cases side : s.memorySide with
  | none =>
    rw [side] at cpu cop
    rw [cpu, cop]
    exact iff_of_true ⟨rfl, ideDma_alike_of_none side⟩ (by rintro _ _ ⟨⟩)
  | some access =>
    obtain ⟨t, a⟩ := access
    rw [side] at cpu cop
    rw [cpu, cop, ideDma_of_memorySide cpu, ideDma_of_memorySide cop]
    simp only [Option.map_some, Option.some.injEq, Prod.mk.injEq]
    constructor
    · rintro ⟨target, alike⟩ _ _ ⟨rfl, rfl⟩
      exact ⟨target, (perform_alike_iff target).mp alike⟩
    · intro agree
      obtain ⟨target, blind⟩ := agree t a ⟨rfl, rfl⟩
      exact ⟨target, (perform_alike_iff target).mpr blind⟩

end Ipod4gBus

/-- The COP maps the addresses of SDRAM to fast RAM, and the CPU prepares to read a sector by DMA to
SDRAM. -/
def mapsApart : StepInput (Platform Stub) :=
  { accesses := fun
      | .cop => [.w32 0xf000f000 0x10003800, .w32 0xf000f004 0x40000f00]
      | .cpu => [.w32 0xc30001e4 0x3, .w32 0xc30001e8 0x22, .w32 0xc30001fc 0xef,
        .w32 0xc30001e8 0x1, .w32 0xc30001f8 0x40, .w32 0xc3000400 0x8, .w32 0xc3000408 0x1fc,
        .w32 0xc300040c 0x10000000] }

def readsByDma : StepInput (Platform Stub) :=
  { accesses := fun
      | .cpu => [.w32 0xc30001fc 0xc8]
      | .cop => [] }

set_option maxRecDepth 20000 in
/-- With the COP selected last the first halfword goes to fast RAM. -/
theorem selected_core_moves_dma : ∃ s s', Ipod4g.platformUp.stepState mapsApart = some s ∧
    s.runCores readsByDma = .ok s' true ∧
    (s'.devices.setCpuid .cpu).dmaTarget = some (.ok 0x10000000) ∧
    (s'.devices.setCpuid .cop).dmaTarget = some (.ok 0x40000000) ∧ ¬ s'.devices.DmaAlike := by
  refine ⟨_, _, rfl, rfl, rfl, rfl, ?_⟩
  rintro ⟨target, _⟩
  cases target

end Clicky
