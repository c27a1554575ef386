import Clicky.Lib.Extent
import Clicky.Lib.LittleEndian
import Clicky.Memory

/-! RAM, and RAM that warns about reads of what was never written. -/
namespace Clicky

def outOfBounds : String := "range end index out of range for slice"

inductive Width where
  | byte | half | word
  deriving DecidableEq, Repr

def Width.bytes : Width → Nat
  | .byte => 1
  | .half => 2
  | .word => 4

abbrev Width.bits : Width → Nat
  | .byte => 8
  | .half => 16
  | .word => 32

theorem Width.bits_eq (w : Width) : w.bits = 8 * w.bytes := by
  cases w <;> rfl

structure Ram (size : Nat) where
  mem : List U8
  size_mem : mem.length = size

namespace Ram

variable {size : Nat}

def new (size : Nat) : Ram size := ⟨List.replicate size 0x2d, List.length_replicate⟩

theorem size_overwrite (s : Ram size) (pos : Nat) (data : List U8) :
    (s.mem.overwrite pos data).length = size := by
  rw [List.length_overwrite, s.size_mem]

def bulkWrite (s : Ram size) (offset : U32) (data : List U8) : Access (Ram size) Unit :=
  if offset.toNat + data.length > size then .panic outOfBounds
  else .ok ⟨s.mem.overwrite offset.toNat data, s.size_overwrite offset.toNat data⟩ ()

def bulkRead (s : Ram size) (offset : U32) (len : Nat) : Access (Ram size) (List U8) :=
  if offset.toNat + len > size then .panic outOfBounds else .ok s (s.mem.slice offset.toNat len)

def read (width : Width) (s : Ram size) (offset : U32) : Access (Ram size) (BitVec width.bits) :=
  (s.bulkRead offset width.bytes).map (BitVec.ofLeBytes width.bits)

def write (width : Width) (s : Ram size) (offset : U32) (val : BitVec width.bits) :
    Access (Ram size) Unit :=
  s.bulkWrite offset (val.toLeBytes width.bytes)

def r8 (s : Ram size) (offset : U32) : Access (Ram size) U8 := s.read .byte offset
def r16 (s : Ram size) (offset : U32) : Access (Ram size) U16 := s.read .half offset
def r32 (s : Ram size) (offset : U32) : Access (Ram size) U32 := s.read .word offset
def w8 (s : Ram size) (offset : U32) (val : U8) : Access (Ram size) Unit := s.write .byte offset val
def w16 (s : Ram size) (offset : U32) (val : U16) : Access (Ram size) Unit :=
  s.write .half offset val
def w32 (s : Ram size) (offset : U32) (val : U32) : Access (Ram size) Unit :=
  s.write .word offset val

instance : Memory (Ram size) where
  r8 := r8
  r16 := r16
  r32 := r32
  w8 := w8
  w16 := w16
  w32 := w32

theorem read_inside (s : Ram size) {width : Width} {offset : U32}
    (inside : offset.toNat + width.bytes ≤ size) :
    s.read width offset =
      .ok s (BitVec.ofLeBytes width.bits (s.mem.slice offset.toNat width.bytes)) := by
  rw [read, bulkRead, if_neg (Nat.not_lt.mpr inside)]
  rfl

theorem write_inside (s : Ram size) {width : Width} (offset : U32) (val : BitVec width.bits)
    (inside : offset.toNat + width.bytes ≤ size) :
    ∃ s' : Ram size, s.write width offset val = .ok s' () ∧
      s'.mem = s.mem.overwrite offset.toNat (val.toLeBytes width.bytes) := by
  refine ⟨⟨_, s.size_overwrite _ _⟩, ?_, rfl⟩
  rw [write, bulkWrite, BitVec.length_toLeBytes]
  exact if_neg (Nat.not_lt.mpr inside)

theorem read_past (s : Ram size) {width : Width} {offset : U32}
    (past : ¬ offset.toNat + width.bytes ≤ size) : s.read width offset = .panic outOfBounds := by
  rw [read, bulkRead, if_pos (Nat.not_le.mp past)]
  rfl

theorem write_past (s : Ram size) {width : Width} {offset : U32} (val : BitVec width.bits)
    (past : ¬ offset.toNat + width.bytes ≤ size) :
    s.write width offset val = .panic outOfBounds := by
  rw [write, bulkWrite, BitVec.length_toLeBytes]
  exact if_pos (Nat.not_le.mp past)

end Ram

/-- Bytes past `size` are there for the type only: no access gets to them. -/
structure AsanRam where
  size : Nat
  mem : Nat → U8
  initialized : Nat → Bool
  onlyWarnOnce : Bool

def leU16 (b0 b1 : U8) : U16 := b1.setWidth 16 <<< 8 ||| b0.setWidth 16

def leU32 (b0 b1 b2 b3 : U8) : U32 :=
  (leU16 b2 b3).setWidth 32 <<< 16 ||| (leU16 b0 b1).setWidth 32

def leBytes (count : Nat) (val : U32) : List U8 :=
  (List.range count).map fun i => (val >>> (8 * i)).setWidth 8

namespace AsanRam

def new (size : Nat) (onlyWarnOnce : Bool) : AsanRam :=
  { size, mem := fun _ => 0x2d, initialized := fun _ => false, onlyWarnOnce }

def window (s : AsanRam) (offset size : Nat) : List Bool :=
  (List.range' offset size).map s.initialized

def markInitialized (s : AsanRam) (offset size : Nat) : AsanRam :=
  { s with initialized := fun a => (offset ≤ a && a < offset + size) || s.initialized a }

def uninitRead (s : AsanRam) (offset size : Nat) (stub : U32) : MemException :=
  let data := String.join ((List.range' offset size).map fun a =>
    if s.initialized a then hexDigits (s.mem a) else "??")
  let msg :=
    if (s.window offset size).any id then
      "r" ++ toString (size * 8) ++ " from partially uninitialized RAM: 0x" ++ data
    else "r" ++ toString (size * 8) ++ " from uninitialized RAM"
  .contractViolation msg .warn (some stub)

/-- A read of `size` bytes that hold `val`. Uninitialized ones raise an exception, unless they
are `excused`. -/
def read {w : Nat} (s : AsanRam) (offset size : Nat) (val : BitVec w) (excused : Bool) :
    Access AsanRam (BitVec w) :=
  if offset + size > s.size then .panic outOfBounds
  else if (s.window offset size).all id || excused then .ok s val
  else
    .raise (if s.onlyWarnOnce then s.markInitialized offset size else s)
      (s.uninitRead offset size (val.setWidth 32))

def write (s : AsanRam) (offset : Nat) (data : List U8) : Access AsanRam Unit :=
  if offset + data.length > s.size then .panic outOfBounds
  else
    .ok { s.markInitialized offset data.length with
      mem := fun a => if offset ≤ a ∧ a < offset + data.length then data.getD (a - offset) 0
        else s.mem a } ()

def bulkWrite (s : AsanRam) (offset : U32) (data : List U8) : Access AsanRam Unit :=
  s.write offset.toNat data

def r8 (s : AsanRam) (offset : U32) : Access AsanRam U8 :=
  s.read offset.toNat 1 (s.mem offset.toNat) false

def r16 (s : AsanRam) (offset : U32) : Access AsanRam U16 :=
  s.read offset.toNat 2 (leU16 (s.mem offset.toNat) (s.mem (offset.toNat + 1))) false

def r32 (s : AsanRam) (offset : U32) : Access AsanRam U32 :=
  -- compilers store bytes and load words, so the first byte of the word is enough
  s.read offset.toNat 4
    (leU32 (s.mem offset.toNat) (s.mem (offset.toNat + 1)) (s.mem (offset.toNat + 2))
      (s.mem (offset.toNat + 3)))
    (s.initialized (offset &&& ~~~(0x3 : U32)).toNat)

def w8 (s : AsanRam) (offset : U32) (val : U8) : Access AsanRam Unit :=
  s.write offset.toNat [val]

def w16 (s : AsanRam) (offset : U32) (val : U16) : Access AsanRam Unit :=
  s.write offset.toNat (leBytes 2 (val.setWidth 32))

def w32 (s : AsanRam) (offset : U32) (val : U32) : Access AsanRam Unit :=
  s.write offset.toNat (leBytes 4 val)

instance : Memory AsanRam where
  r8 := r8
  r16 := r16
  r32 := r32
  w8 := w8
  w16 := w16
  w32 := w32

theorem w16_ok_iff (s : AsanRam) (offset : U32) (val : U16) :
    (s.w16 offset val).Returns ↔ offset.toNat + 2 ≤ s.size := by
  unfold w16 write
  by_cases inside : offset.toNat + 2 ≤ s.size
  · rw [if_neg (by simpa [leBytes] using inside)]
    simp [inside]
  · rw [if_pos (by simpa [leBytes] using inside)]
    simp [inside]

theorem window_two (s : AsanRam) (offset : Nat) :
    (s.window offset 2).all id = (s.initialized offset && s.initialized (offset + 1)) := by
  simp [window, List.range']

def Written (s : AsanRam) (offset : Nat) : Prop :=
  offset + 2 ≤ s.size ∧ s.initialized offset = true ∧ s.initialized (offset + 1) = true

theorem r16_ok_iff (s : AsanRam) (offset : U32) :
    (s.r16 offset).Returns ↔ s.Written offset.toNat := by
  unfold r16 read Written
  rw [window_two, Bool.or_false]
  by_cases inside : offset.toNat + 2 ≤ s.size
  · rw [if_neg (Nat.not_lt.mpr inside)]
    by_cases written : (s.initialized offset.toNat && s.initialized (offset.toNat + 1)) = true
    · rw [if_pos written]
      exact ⟨fun _ => ⟨inside, (Bool.and_eq_true _ _).mp written⟩, fun _ => Outcome.returns_ok ..⟩
    · rw [if_neg written]
      refine ⟨fun impossible => absurd impossible (Outcome.returns_raise _ _), fun both => ?_⟩
      exact absurd ((Bool.and_eq_true _ _).mpr both.2) written
  · rw [if_pos (Nat.not_le.mp inside)]
    simp [inside]

end AsanRam
end Clicky
