import Clicky.Eapp.Coherence
import Clicky.Lib.Attempt

/-! What the emulator itself reads and writes in the memory of a game. A read that raises an
exception finds nothing; one that panics fails. No read changes the bus. -/
namespace Clicky

/-- The first four registers, as a call of the guest leaves them. -/
structure GuestArgs where
  r0 : U32
  r1 : U32
  r2 : U32
  r3 : U32
  deriving DecidableEq, Repr

def capacityOverflow : String := "capacity overflow"
def allocationFailed : String := "memory allocation failed"

/-- `Vec::with_capacity`. No buffer has more than 2^63 - 1 bytes, and the program ends where the host
does not grant one. -/
def withCapacity (hostLimit bytes : Nat) : Attempt String Unit :=
  if 2 ^ 63 ≤ bytes then Attempt.fail capacityOverflow
  else if hostLimit < bytes then Attempt.fail allocationFailed
  else pure ()

theorem gives_withCapacity {hostLimit bytes : Nat} (small : bytes < 2 ^ 63)
    (granted : bytes ≤ hostLimit) : (withCapacity hostLimit bytes).Gives () := by
  rw [withCapacity, if_neg (Nat.not_le.mpr small), if_neg (Nat.not_lt.mpr granted)]
  rfl

theorem withCapacity_refused {hostLimit bytes : Nat} (small : bytes < 2 ^ 63)
    (refused : hostLimit < bytes) :
    withCapacity hostLimit bytes = Attempt.fail allocationFailed := by
  rw [withCapacity, if_neg (Nat.not_le.mpr small), if_pos refused]

namespace EappBus

variable {imageSize : Nat}

def attempt {α : Type} : Access (EappBus imageSize) α → Attempt String α
  | .ok _ a => pure a
  | .raise _ _ => failure
  | .panic m => Attempt.fail m

def readGuestU32 (b : EappBus imageSize) (addr : U32) : Attempt String U32 := attempt (b.r32 addr)

/-- One read after the other, at a distance of `stride`. -/
def readGuestMany {α : Type} (read : U32 → Attempt String α) (stride : U32) :
    Nat → U32 → Attempt String (List α)
  | 0, _ => pure []
  | count + 1, addr => do
    let first ← read addr
    let rest ← readGuestMany read stride count (addr + stride)
    return first :: rest

/-- The buffer is there before any byte is looked at. -/
def readGuestBytes (b : EappBus imageSize) (hostLimit : Nat) (addr : U32) (len : Nat) :
    Attempt String (List U8) := do
  withCapacity hostLimit len
  readGuestMany (fun a => attempt (b.r8 a)) 1 len addr

def readGuestWordsExact (b : EappBus imageSize) (addr : U32) (count : Nat) :
    Attempt String (List U32) :=
  if addr = 0 then failure else readGuestMany b.readGuestU32 4 count addr

/-- `unwrap_or(0)`. -/
def readGuestU32OrZero (b : EappBus imageSize) (addr : U32) : Attempt String U32 :=
  (b.readGuestU32 addr).orDefault 0

def writeGuestU32 (b : EappBus imageSize) (addr val : U32) :
    Outcome Empty (EappBus imageSize) Bool :=
  (b.w32 addr val).succeeds

def writeGuestBytes (b : EappBus imageSize) (addr : U32) :
    List U8 → Outcome Empty (EappBus imageSize) Bool
  | [] => .ok b true
  | val :: vals => (b.w8 addr val).succeeds.bind fun b written =>
    if written then b.writeGuestBytes (addr + 1) vals else .ok b false

theorem gives_read {b : EappBus imageSize} {r : RamRegion} {width : Width} {addr : U32}
    (inside : b.Inside r addr width.bytes) : (attempt (b.read width addr)).Gives
      (.ofLeBytes width.bits ((b.bytes r).slice (addr.toNat - r.base) width.bytes)) := by
  rw [read_region inside]
  rfl

theorem gives_r8 {b : EappBus imageSize} {r : RamRegion} {addr : U32} (inside : b.Inside r addr 1) :
    (attempt (b.r8 addr)).Gives
      (.ofLeBytes 8 ((b.bytes r).slice (addr.toNat - r.base) 1)) :=
  gives_read (inside : b.Inside r addr Width.byte.bytes)

theorem gives_readGuestU32 {b : EappBus imageSize} {r : RamRegion} {addr : U32}
    (inside : b.Inside r addr 4) : (b.readGuestU32 addr).Gives
      (.ofLeBytes 32 ((b.bytes r).slice (addr.toNat - r.base) 4)) :=
  gives_read (inside : b.Inside r addr Width.word.bytes)

/-- The byte at an address, where something is mapped. -/
def byte? (b : EappBus imageSize) (addr : U32) : Option U8 := (attempt (b.r8 addr)).toOption

/-- A byte does not go past the end of a region. -/
theorem run_r8 (b : EappBus imageSize) (addr : U32) :
    (attempt (b.r8 addr)).run = .ok (b.byte? addr) := by
  have within : ¬ b.StraddlesAt addr Width.byte.bytes := by
    have image := b.imageLen_le
    unfold StraddlesAt
    simp only [regionLen, Width.bytes]
    omega
  obtain ⟨r, read⟩ := read_total within
  unfold byte?
  rw [r8, read]
  cases r <;> rfl

theorem gives_r8_iff {b : EappBus imageSize} {addr : U32} {val : U8} :
    (attempt (b.r8 addr)).Gives val ↔ b.byte? addr = some val := by
  rw [Attempt.Gives, run_r8, Except.ok.injEq]

theorem addr_succ (addr : U32) (i : Nat) :
    addr + 1 + BitVec.ofNat 32 i = addr + BitVec.ofNat 32 (i + 1) := by
  rw [BitVec.add_assoc, BitVec.ofNat_add, BitVec.add_comm 1]
  rfl

/-- What is read are the bytes one after the other, if all of them are mapped. -/
theorem gives_readGuestMany_iff {b : EappBus imageSize} {n : Nat} {addr : U32} {bytes : List U8} :
    (readGuestMany (fun a => attempt (b.r8 a)) 1 n addr).Gives bytes ↔
      bytes.length = n ∧ ∀ i < n, b.byte? (addr + BitVec.ofNat 32 i) = bytes[i]? := by
  induction n generalizing addr bytes with
  | zero =>
    rw [readGuestMany, Attempt.gives_pure, List.length_eq_zero_iff, eq_comm]
    exact (and_iff_left nofun).symm
  | succ n ih =>
    have here : addr + BitVec.ofNat 32 0 = addr := BitVec.add_zero addr
    rw [readGuestMany, Attempt.gives_bind]
    simp only [Attempt.gives_bind, Attempt.gives_pure, gives_r8_iff, ih, addr_succ]
    constructor
    · rintro ⟨first, mapped, rest, ⟨rfl, each⟩, rfl⟩
      refine ⟨rfl, fun i inside => ?_⟩
      cases i with
      | zero => rw [here, mapped]; rfl
      | succ i => exact each i (Nat.lt_of_succ_lt_succ inside)
    · rintro ⟨size, each⟩
      cases bytes with
      | nil => cases size
      | cons first rest =>
        have mapped := each 0 (Nat.succ_pos n)
        rw [here] at mapped
        exact ⟨first, mapped, rest, ⟨Nat.succ.inj size, fun i inside =>
          each (i + 1) (Nat.succ_lt_succ inside)⟩, rfl⟩

theorem readGuestMany_returns (b : EappBus imageSize) (n : Nat) (addr : U32) :
    ∃ found, (readGuestMany (fun a => attempt (b.r8 a)) 1 n addr).run = .ok found := by
  induction n generalizing addr with
  | zero => exact ⟨some [], rfl⟩
  | succ n ih =>
    rw [readGuestMany, OptionT.run_bind, run_r8]
    cases b.byte? addr with
    | none => exact ⟨none, rfl⟩
    | some first =>
      obtain ⟨rest, returned⟩ := ih (addr + 1)
      change ∃ found, OptionT.run (readGuestMany _ 1 n (addr + 1) >>= fun rest => pure (first :: rest)) = _
      rw [OptionT.run_bind, returned]
      cases rest with
      | none => exact ⟨none, rfl⟩
      | some rest => exact ⟨some (first :: rest), rfl⟩

/-- All of a range is mapped. It may wrap around the end of the address space. -/
def Mapped (b : EappBus imageSize) (addr : U32) (len : Nat) : Prop :=
  ∀ i < len, (b.byte? (addr + BitVec.ofNat 32 i)).isSome

instance (b : EappBus imageSize) (addr : U32) (len : Nat) : Decidable (b.Mapped addr len) :=
  inferInstanceAs (Decidable (∀ i < len, _))

/-- The bytes of a range, and zero where nothing is mapped. -/
def bytesAt (b : EappBus imageSize) (addr : U32) (len : Nat) : List U8 :=
  (List.range len).map fun i => (b.byte? (addr + BitVec.ofNat 32 i)).getD 0

@[simp] theorem length_bytesAt (b : EappBus imageSize) (addr : U32) (len : Nat) :
    (b.bytesAt addr len).length = len := by simp [bytesAt]

theorem getElem?_bytesAt (b : EappBus imageSize) (addr : U32) (len i : Nat) :
    (b.bytesAt addr len)[i]? =
      if i < len then some ((b.byte? (addr + BitVec.ofNat 32 i)).getD 0) else none := by
  by_cases inside : i < len
  · simp [bytesAt, inside]
  · simp [bytesAt, inside]

theorem slice_bytesAt (b : EappBus imageSize) (addr : U32) {len base n : Nat}
    (inside : base + n ≤ len) :
    (b.bytesAt addr len).slice base n = b.bytesAt (addr + BitVec.ofNat 32 base) n := by
  refine List.ext_getElem? fun i => ?_
  rw [List.getElem?_slice, getElem?_bytesAt, getElem?_bytesAt, BitVec.add_assoc,
    ← BitVec.ofNat_add]
  by_cases here : i < n
  · rw [if_pos here, if_pos here, if_pos (by omega)]
  · rw [if_neg here, if_neg here]

theorem mapped_iff {b : EappBus imageSize} {addr : U32} {len : Nat} : b.Mapped addr len ↔
    ∀ i < len, b.byte? (addr + BitVec.ofNat 32 i) = (b.bytesAt addr len)[i]? := by
  refine forall_congr' fun i => forall_congr' fun inside => ?_
  rw [getElem?_bytesAt, if_pos inside]
  cases b.byte? (addr + BitVec.ofNat 32 i) <;> simp

theorem readGuestBytes_granted {hostLimit len : Nat} (small : len < 2 ^ 63)
    (granted : len ≤ hostLimit) (b : EappBus imageSize) (addr : U32) :
    (b.readGuestBytes hostLimit addr len).run =
      (readGuestMany (fun a => attempt (b.r8 a)) 1 len addr).run := by
  rw [readGuestBytes, (gives_withCapacity small granted).run_bind]

theorem readGuestBytes_refused {hostLimit len : Nat} (small : len < 2 ^ 63)
    (refused : hostLimit < len) (b : EappBus imageSize) (addr : U32) :
    b.readGuestBytes hostLimit addr len = Attempt.fail allocationFailed := by
  rw [readGuestBytes, withCapacity_refused small refused]
  rfl

theorem gives_bytesAt {b : EappBus imageSize} {hostLimit len : Nat} {addr : U32}
    (small : len < 2 ^ 63) (granted : len ≤ hostLimit) (mapped : b.Mapped addr len) :
    (b.readGuestBytes hostLimit addr len).Gives (b.bytesAt addr len) := by
  rw [Attempt.Gives, readGuestBytes_granted small granted]
  exact gives_readGuestMany_iff.mpr ⟨b.length_bytesAt addr len, mapped_iff.mp mapped⟩

/-- A range that there is a buffer for and that is not mapped is not found. -/
theorem readGuestBytes_unmapped {b : EappBus imageSize} {hostLimit len : Nat} {addr : U32}
    (small : len < 2 ^ 63) (granted : len ≤ hostLimit) (unmapped : ¬ b.Mapped addr len) :
    (b.readGuestBytes hostLimit addr len).run = .ok none := by
  rw [readGuestBytes_granted small granted]
  obtain ⟨found, returned⟩ := b.readGuestMany_returns len addr
  cases found with
  | none => exact returned
  | some bytes =>
    obtain ⟨size, each⟩ := gives_readGuestMany_iff.mp returned
    refine absurd (fun i inside => ?_) unmapped
    rw [each i inside, List.getElem?_eq_getElem (by omega)]
    rfl

theorem write_workRam {b : EappBus imageSize} {width : Width} {addr : U32}
    (val : BitVec width.bits) (inside : b.Inside .workRam addr width.bytes) :
    ∃ b', b.write width addr val = .ok b' () ∧ b'.bytes .workRam =
      (b.bytes .workRam).overwrite (addr.toNat - RamRegion.base .workRam)
        (val.toLeBytes width.bytes) := by
  obtain ⟨log, stored⟩ := b.write_eq_store width addr val
  obtain ⟨b', done, written, _⟩ := store_region (b := { b with watchLog := log }) val inside nofun
  rw [bytes_watchLog] at written
  exact ⟨b', stored.trans done, written⟩

theorem writeGuestU32_workRam {b : EappBus imageSize} {addr : U32} (val : U32)
    (inside : b.Inside .workRam addr 4) : ∃ b', b.writeGuestU32 addr val = .ok b' true ∧
      b'.bytes .workRam =
        (b.bytes .workRam).overwrite (addr.toNat - RamRegion.base .workRam) (val.toLeBytes 4) := by
  have whole : b.Inside .workRam addr Width.word.bytes := inside
  obtain ⟨b', done, written⟩ := write_workRam val whole
  refine ⟨b', ?_, written⟩
  rw [writeGuestU32, w32, done]
  rfl

theorem writeGuestByte_workRam {b : EappBus imageSize} {addr : U32} (val : U8) (vals : List U8)
    (inside : b.Inside .workRam addr 1) :
    ∃ b' : EappBus imageSize, b.writeGuestBytes addr (val :: vals) = b'.writeGuestBytes (addr + 1) vals ∧
        b'.bytes .workRam =
          (b.bytes .workRam).overwrite (addr.toNat - RamRegion.base .workRam) (val.toLeBytes 1) := by
  have whole : b.Inside .workRam addr Width.byte.bytes := inside
  obtain ⟨b', done, written⟩ := write_workRam val whole
  refine ⟨b', ?_, written⟩
  rw [writeGuestBytes, w8, done]
  rfl

end EappBus
end Clicky
