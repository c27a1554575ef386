import Clicky.Ide.Controller

/-! What a transfer is for: a stream of bytes over the disk image. The drive holds one sector of
it at a time in its buffer. -/
namespace Clicky
open Outcome

def halves (ws : List U16) : List U8 := ws.flatMap le16

def halfword (lo hi : U8) : U16 := lo.setWidth 16 ||| hi.setWidth 16 <<< 8

@[simp] theorem halves_nil : halves [] = [] := rfl

@[simp] theorem halves_cons (w : U16) (ws : List U16) : halves (w :: ws) = le16 w ++ halves ws :=
  List.flatMap_cons

@[simp] theorem length_halves (ws : List U16) : (halves ws).length = 2 * ws.length := by
  induction ws with
  | nil => rfl
  | cons w ws ih =>
    rw [halves_cons, List.length_append, ih, length_le16, List.length_cons]
    omega

theorem le16_halfword (lo hi : U8) : le16 (halfword lo hi) = [lo, hi] := by
  have low : (halfword lo hi).setWidth 8 = lo := by
    apply BitVec.eq_of_getLsbD_eq
    intro i inside
    simp [halfword, inside]
  have high : (halfword lo hi >>> 8).setWidth 8 = hi := by
    apply BitVec.eq_of_getLsbD_eq
    intro i inside
    have above : 8 + i < 16 := by omega
    have apart : ¬ 8 + i < 8 := by omega
    have wide : i < 16 := by omega
    simp [halfword, inside, above, apart, wide]
  rw [le16, low, high]

theorem halfword_le16 (w : U16) : halfword (w.setWidth 8) ((w >>> 8).setWidth 8) = w := by
  apply BitVec.eq_of_getLsbD_eq
  intro i inside
  by_cases low : i < 8
  · simp [halfword, low, inside]
  · have back : 8 + (i - 8) = i := by omega
    have byte : i - 8 < 8 := by omega
    simp [halfword, low, inside, back, byte]

theorem halves_injective : ∀ {ws vs : List U16}, halves ws = halves vs → ws = vs := by
  intro ws
  induction ws with
  | nil =>
    intro vs same
    have short := congrArg List.length same
    rw [length_halves, length_halves] at short
    exact (List.eq_nil_of_length_eq_zero (by simpa using short.symm)).symm
  | cons w ws ih =>
    intro vs same
    cases vs with
    | nil => simp [le16] at same
    | cons v vs =>
      simp only [halves_cons, le16, List.cons_append, List.nil_append, List.cons.injEq] at same
      obtain ⟨low, high, rest⟩ := same
      rw [← halfword_le16 w, low, high, halfword_le16 v, ih rest]

/-- An image, where the next byte of the transfer goes, and how many are left. -/
structure Stream where
  image : List U8
  pos : Nat
  left : Nat

def Stream.skip (t : Stream) (n : Nat) : Stream := { t with pos := t.pos + n, left := t.left - n }

def Stream.put (t : Stream) (bytes : List U8) : Stream :=
  { image := t.image.overwrite t.pos bytes, pos := t.pos + bytes.length,
    left := t.left - bytes.length }

theorem Stream.skip_skip (t : Stream) (m n : Nat) : (t.skip m).skip n = t.skip (m + n) := by
  simp only [skip, Nat.add_assoc, Nat.sub_sub]

theorem Stream.put_put (t : Stream) (xs ys : List U8) : (t.put xs).put ys = t.put (xs ++ ys) := by
  simp only [put, List.overwrite_overwrite, List.length_append, Nat.add_assoc, Nat.sub_sub]

@[simp] theorem Stream.skip_zero (t : Stream) : t.skip 0 = t := rfl

@[simp] theorem Stream.put_nil (t : Stream) : t.put [] = t := by
  simp [put]

def sectorsOf (c : U8) : Nat := if c = 0 then 256 else c.toNat

namespace IdeRegs

/-- The registers the guest wrote, without those the drive answers in. -/
def file (r : IdeRegs) : IdeRegs := { r with status := 0, error := 0 }

@[simp] theorem file_status (r : IdeRegs) (status error : U8) :
    ({ r with status, error } : IdeRegs).file = r.file := rfl

/-- LBA mode, with the address in the four LBA registers and the count next to it. -/
structure Holds (r : IdeRegs) (lba : Nat) (c : U8) : Prop where
  mode : r.lba3DevHead.getBit DevHead.L = true
  lba0 : r.lba0SectorNo = BitVec.ofNat 8 lba
  lba1 : r.lba1CylLo = BitVec.ofNat 8 (lba / 2 ^ 8)
  lba2 : r.lba2CylHi = BitVec.ofNat 8 (lba / 2 ^ 16)
  lba3 : (r.lba3DevHead.getBits 0 3).toNat = lba / 2 ^ 24
  count : r.sectorCount = c

theorem Holds.of_file {r r' : IdeRegs} {lba : Nat} {c : U8} (holds : r.Holds lba c)
    (same : r'.file = r.file) : r'.Holds lba c := by
  simp only [file, IdeRegs.mk.injEq] at same
  obtain ⟨_, _, count, lba0, lba1, lba2, lba3, _⟩ := same
  constructor
  · rw [lba3]; exact holds.mode
  · rw [lba0]; exact holds.lba0
  · rw [lba1]; exact holds.lba1
  · rw [lba2]; exact holds.lba2
  · rw [lba3]; exact holds.lba3
  · rw [count]; exact holds.count

end IdeRegs

theorem pack_lba (lba : Nat) : (lba / 2 ^ 24) <<< 24 ||| (lba / 2 ^ 16 % 2 ^ 8) <<< 16 |||
    (lba / 2 ^ 8 % 2 ^ 8) <<< 8 ||| lba % 2 ^ 8 = lba := by
  have glue : ∀ hi lo : Nat, lo < 2 ^ 8 → hi <<< 8 ||| lo = hi * 2 ^ 8 + lo := by
    intro hi lo small
    rw [← Nat.shiftLeft_add_eq_or_of_lt small, Nat.shiftLeft_eq]
  have shift24 : ∀ n : Nat, n <<< 24 = n <<< 8 <<< 8 <<< 8 := by
    intro n
    simp only [← Nat.shiftLeft_add]
  have shift16 : ∀ n : Nat, n <<< 16 = n <<< 8 <<< 8 := by
    intro n
    simp only [← Nat.shiftLeft_add]
  rw [shift24, shift16, ← Nat.shiftLeft_or_distrib, ← Nat.shiftLeft_or_distrib,
    ← Nat.shiftLeft_or_distrib, glue _ _ (Nat.mod_lt _ (by decide)),
    glue _ _ (Nat.mod_lt _ (by decide)), glue _ _ (Nat.mod_lt _ (by decide))]
  omega

/-- Idle after a transfer: nothing left, nothing announced, and `image` on the disk. -/
structure IdeUnit.Rests (u : IdeUnit Mem) (image : List U8) (file : IdeRegs) : Prop where
  state : u.state = .idle
  remainingSectors : u.remainingSectors = 0
  busy : u.reg.status.getBit Status.BSY = false
  drq : u.reg.status.getBit Status.DRQ = false
  data : u.blockdev.data = image
  wide : u.cfg.eightbit = false
  file : u.reg.file = file

namespace IdeDrive

theorem getSectorOffset_lba {β : Type} [BlockDev β] {d : IdeDrive β} {lba : Nat} {c : U8}
    (holds : d.reg.Holds lba c) : d.getSectorOffset = some lba := by
  unfold getSectorOffset
  rw [if_pos holds.mode, holds.lba0, holds.lba1, holds.lba2, holds.lba3]
  simp only [BitVec.toNat_ofNat]
  rw [pack_lba]

theorem sectors_eq {β : Type} {d : IdeDrive β} {lba : Nat} {c : U8} (holds : d.reg.Holds lba c) :
    d.sectors = sectorsOf c := by
  rw [sectors, sectorsOf, holds.count]

theorem dataRead8_refused {β : Type} [BlockDev β] {d : IdeDrive β} (idle : d.state = .idle) :
    d.dataRead8 = .raise d
      (.fatal "cannot read data while drive is in an invalid state: Idle") := by
  simp [dataRead8, idle, IdeDriveState.debug]

end IdeDrive

namespace IdeController

variable {β : Type} {α : Type}

def Active (s : IdeController β) (d : IdeDrive β) : Prop :=
  s.unit? s.selectedDevice = some d.toIdeUnit ∧ s.lend d.toIdeUnit = d

theorem Active.onSelected {s : IdeController β} {d : IdeDrive β} (active : s.Active d)
    (f : IdeDrive β → Access (IdeDrive β) α) : s.onSelected f = (f d).zoom s.putSelected := by
  rw [IdeController.onSelected, active.1]
  simp only [active.2]

theorem active_putSelected (s : IdeController β) (d : IdeDrive β) : (s.putSelected d).Active d := by
  unfold Active putSelected
  cases s.selectedDevice <;> exact ⟨rfl, rfl⟩

variable [BlockDev β]

def readData : Nat → IdeController β → Access (IdeController β) (List U16)
  | 0, s => .ok s []
  | n + 1, s => (s.read16 .data).bind fun s w => (readData n s).map (w :: ·)

def writeData : List U16 → IdeController β → Access (IdeController β) Unit
  | [], s => .ok s ()
  | w :: ws, s => (s.write16 .data w).bind fun s _ => writeData ws s

end IdeController
end Clicky
