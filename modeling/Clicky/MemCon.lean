import Clicky.Memory

/-! The memory controller: eight address mappings for each core, and the registers that hold
them. -/
namespace Clicky

structure Protection where
  r : Bool
  w : Bool
  d : Bool
  x : Bool
  deriving DecidableEq, Repr

def Protection.denies (prot : Protection) : MemAccessKind → Bool
  | .read => !prot.r && !prot.d
  | .write => !prot.w
  | .execute => !prot.x

structure Mmap where
  logical : U32 := 0
  physical : U32 := 0
  deriving DecidableEq, Repr

namespace Mmap

def mask (m : Mmap) : U32 := m.logical.getBits 11 13 <<< 28
def virtAddr (m : Mmap) : U32 := m.logical.getBits 16 31 <<< 16
def physAddr (m : Mmap) : U32 := m.physical.getBits 16 31 <<< 16

def prot (m : Mmap) : Protection :=
  { r := m.physical.getBit 8, w := m.physical.getBit 9, d := m.physical.getBit 10
    x := m.physical.getBit 11 }

/-- One turn of the loop of `virt_to_phys`. -/
def translate (m : Mmap) (addr : U32) (access : MemAccessKind) : Option (U32 × Protection) :=
  if m.logical = 0 ∨ m.physical = 0 then none
  else if m.prot.denies access then none
  else if addr &&& m.mask ≠ m.virtAddr &&& m.mask then none
  else some ((addr &&& ~~~m.mask) ||| (m.physAddr &&& m.mask), m.prot)

end Mmap

/-- The cache arrays have 0x2000 words each. -/
structure MemConImpl where
  cacheData : Nat → U32 := fun _ => 0
  cacheStatus : Nat → U32 := fun _ => 0
  mmap : Fin 8 → Mmap := fun _ => {}
  cacheMask : U32 := 0
  cacheControl : U32 := 0

namespace MemConImpl

def virtToPhys (s : MemConImpl) (addr : U32) (access : MemAccessKind) : U32 × Protection :=
  ((List.finRange 8).findSome? fun no => (s.mmap no).translate addr access).getD
    (addr, { r := true, w := true, d := true, x := true })

theorem virtToPhys_of_none {s : MemConImpl} (none : ∀ no, s.mmap no = {}) (addr : U32)
    (access : MemAccessKind) :
    s.virtToPhys addr access = (addr, { r := true, w := true, d := true, x := true }) := by
  have passed : ∀ no ∈ List.finRange 8, (s.mmap no).translate addr access = Option.none := by
    intro no _
    rw [none]
    rfl
  rw [virtToPhys, List.findSome?_eq_none_iff.mpr passed]
  rfl

def mmapNo (offset : U32) : Fin 8 := Fin.ofNat 8 ((offset.toNat - 0xf000) / 8)

def setMmap (s : MemConImpl) (no : Fin 8) (m : Mmap) : MemConImpl :=
  { s with mmap := fun i => if i = no then m else s.mmap i }

def r32 (s : MemConImpl) (offset : U32) : Access MemConImpl U32 :=
  if offset ≤ 0x1fff then .raise s (.stubRead .error (s.cacheData offset.toNat))
  else if offset ≤ 0x3fff then .raise s .unimplemented
  else if offset ≤ 0x5fff then
    .raise s (.stubRead .error (s.cacheStatus (offset - 0x4000).toNat))
  else if offset ≤ 0x7fff then .raise s .unimplemented
  else if offset ≤ 0xdfff then .raise s .invalidAccess
  else if 0xf000 ≤ offset ∧ offset ≤ 0xf03f then
    let m := s.mmap (mmapNo offset)
    .ok s (if offset &&& 0b100 = 0 then m.logical else m.physical)
  else match offset with
    | 0xf040 => .raise s (.stubRead .info s.cacheMask)
    | 0xf044 => .raise s (.stubRead .info s.cacheControl)
    | 0xf048 => .raise s .unimplemented
    | _ => .raise s .unexpected

def w32 (s : MemConImpl) (offset val : U32) : Access MemConImpl Unit :=
  if offset ≤ 0x1fff then
    .raise { s with cacheData := fun i => if i = offset.toNat then val else s.cacheData i }
      (.stubWrite .error)
  else if offset ≤ 0x3fff then .raise s .unimplemented
  else if offset ≤ 0x5fff then
    .raise { s with cacheStatus := fun i =>
      if i = (offset - 0x4000).toNat then val else s.cacheStatus i } (.stubWrite .error)
  else if offset ≤ 0x7fff then .raise s .unimplemented
  else if offset ≤ 0xdfff then .raise s (.stubWrite .info)
  else if 0xf000 ≤ offset ∧ offset ≤ 0xf03f then
    let no := mmapNo offset
    let m := s.mmap no
    .raise (s.setMmap no (if offset &&& 4 = 0 then { m with logical := val }
      else { m with physical := val })) (.stubWrite .warn)
  else match offset with
    | 0xf040 => .raise { s with cacheMask := val } (.stubWrite .info)
    | 0xf044 => .raise { s with cacheControl := val } (.stubWrite .info)
    | 0xf048 => .raise s .unimplemented
    | _ => .raise s .unexpected

theorem w32_raises (s : MemConImpl) (offset val : U32) :
    ∃ s' e, s.w32 offset val = .raise s' e := by
  unfold w32
  repeat' split
  all_goals exact ⟨_, _, rfl⟩

end MemConImpl

structure MemCon where
  selected : CpuId := .cpu
  cpucon : MemConImpl := {}
  copcon : MemConImpl := {}

namespace MemCon

def virtToPhys (s : MemCon) (addr : U32) (access : MemAccessKind) : U32 × Protection :=
  match s.selected with
  | .cpu => s.cpucon.virtToPhys addr access
  | .cop => s.copcon.virtToPhys addr access

def setCpuid (s : MemCon) (id : CpuId) : MemCon := { s with selected := id }

def r32 (s : MemCon) (offset : U32) : Access MemCon U32 :=
  match s.selected with
  | .cpu => (s.cpucon.r32 offset).zoom fun cpucon => { s with cpucon }
  | .cop => (s.copcon.r32 offset).zoom fun copcon => { s with copcon }

def w32 (s : MemCon) (offset val : U32) : Access MemCon Unit :=
  match s.selected with
  | .cpu => (s.cpucon.w32 offset val).zoom fun cpucon => { s with cpucon }
  | .cop => (s.copcon.w32 offset val).zoom fun copcon => { s with copcon }

/-- The 16 bit write of the controller of a core is not reached: only 32 bit accesses go
through. -/
instance : Memory MemCon where
  r32 := r32
  w32 := w32

theorem w16_raises (s : MemCon) (offset : U32) (val : U16) :
    ∃ s' e, Memory.w16 s offset val = .raise s' e := by
  change ∃ s' e, (if offset &&& 0x3 ≠ 0 then Outcome.raise s .misaligned
    else s.w32 offset (val.setWidth 32)) = Outcome.raise s' e
  split
  · exact ⟨_, _, rfl⟩
  · unfold w32
    cases s.selected with
    | cpu =>
      obtain ⟨c, e, raised⟩ := s.cpucon.w32_raises offset (val.setWidth 32)
      exact ⟨_, e, by rw [raised]; rfl⟩
    | cop =>
      obtain ⟨c, e, raised⟩ := s.copcon.w32_raises offset (val.setWidth 32)
      exact ⟨_, e, by rw [raised]; rfl⟩

end MemCon
end Clicky
