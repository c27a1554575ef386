import Clicky.Block
import Clicky.Lib.Lockstep

/-! Seeking on the null block device, next to seeking on a cursor over a buffer of its length. -/
namespace Clicky
open Outcome
open Runs (BeforeEach)

/-- Where a seek starts from, and how far it goes. -/
inductive SeekFrom where
  | start (v : BitVec 64)
  | end_ (v : BitVec 64)
  | current (v : BitVec 64)
  deriving DecidableEq, Repr

def negativeOffset : IoError := ⟨"cannot seek to negative offset"⟩

/-- What `Cursor` of the standard library fails with. -/
def invalidSeek : IoError := ⟨"invalid seek to a negative or overflowing position"⟩

/-- A block device of any size, where reads give zeros and writes do nothing. -/
structure Null where
  len : BitVec 64
  offset : BitVec 64
  deriving DecidableEq, Repr

namespace Null

def new (reportedLen : BitVec 64) : Null := { len := reportedLen, offset := 0 }

def moved (s : Null) (offset : BitVec 64) : Outcome IoError Null (BitVec 64) :=
  .ok { s with offset } offset

/-- The target is computed as an `i64`. -/
def seekTo (s : Null) (target : Int) (message : String) : Outcome IoError Null (BitVec 64) :=
  if target < -2 ^ 63 ∨ 2 ^ 63 ≤ target then .panic message
  else if 0 ≤ target then s.moved (.ofInt 64 target)
  else .raise s negativeOffset

def seek (s : Null) : SeekFrom → Outcome IoError Null (BitVec 64)
  | .start v => s.moved v
  | .end_ v => s.seekTo (s.len.toInt - v.toInt) underflow
  | .current v => s.seekTo (s.offset.toInt + v.toInt) overflow

end Null

/-- `Cursor` of the standard library, over a buffer. -/
structure IoCursor where
  inner : List U8
  pos : BitVec 64 := 0

namespace IoCursor

/-- The position is computed by `checked_add_signed`. -/
def seekBy (c : IoCursor) (base : Nat) (offset : BitVec 64) :
    Outcome IoError IoCursor (BitVec 64) :=
  let target := base + offset.toInt
  if 0 ≤ target ∧ target < 2 ^ 64 then .ok { c with pos := .ofInt 64 target } (.ofInt 64 target)
  else .raise c invalidSeek

def seek (c : IoCursor) : SeekFrom → Outcome IoError IoCursor (BitVec 64)
  | .start n => .ok { c with pos := n } n
  | .end_ n => c.seekBy c.inner.length n
  | .current n => c.seekBy c.pos.toNat n

def step (c : IoCursor) (pos : SeekFrom) : Option IoCursor := (c.seek pos).state?

end IoCursor

/-- The null device and a cursor over a buffer of its length, at the same position. -/
structure Null.Mirrors (s : Null) (c : IoCursor) : Prop where
  small : s.len.toNat < 2 ^ 63
  len : c.inner.length = s.len.toNat
  offset : s.offset = c.pos

/-- A seek from the end goes nowhere, one from the current position neither starts nor stops at
2^63 or behind. -/
def IoCursor.Sound (c : IoCursor) : SeekFrom → Prop
  | .start _ => True
  | .end_ v => v = 0
  | .current v => c.pos.toNat < 2 ^ 63 ∧ c.pos.toNat + v.toInt < 2 ^ 63

namespace Null

theorem seekTo_of_overflow (s : Null) {target : Int} (message : String)
    (past : target < -2 ^ 63 ∨ 2 ^ 63 ≤ target) : (s.seekTo target message).reply = .panicked := by
  rw [seekTo, if_pos past]
  rfl

theorem seekTo_of_neg (s : Null) {target : Int} (message : String)
    (low : -2 ^ 63 ≤ target) (negative : target < 0) :
    (s.seekTo target message).reply = .refused := by
  rw [seekTo, if_neg (by omega), if_neg (by omega)]
  rfl

theorem seekTo_of_nonneg (s : Null) {target : Int} (message : String)
    (forward : 0 ≤ target) (high : target < 2 ^ 63) :
    (s.seekTo target message).reply = .value (.ofInt 64 target) := by
  rw [seekTo, if_neg (by omega), if_pos forward]
  rfl

end Null

namespace IoCursor

theorem seekBy_of_inside (c : IoCursor) {base : Nat} {offset : BitVec 64}
    (forward : 0 ≤ base + offset.toInt) (inside : base + offset.toInt < 2 ^ 64) :
    (c.seekBy base offset).reply = .value (.ofInt 64 (base + offset.toInt)) := by
  unfold seekBy
  dsimp only
  rw [if_pos ⟨forward, inside⟩]
  rfl

theorem seekBy_of_outside (c : IoCursor) {base : Nat} {offset : BitVec 64}
    (outside : base + offset.toInt < 0 ∨ 2 ^ 64 ≤ base + offset.toInt) :
    (c.seekBy base offset).reply = .refused := by
  unfold seekBy
  dsimp only
  rw [if_neg (by omega)]
  rfl

theorem seekBy_calm (c : IoCursor) (base : Nat) (offset : BitVec 64) :
    (c.seekBy base offset).reply ≠ .panicked := by
  unfold seekBy
  dsimp only
  split <;> exact nofun

end IoCursor

/-- Positions below 2^64 are told apart by their words. -/
theorem ofInt_inj_of_lt {m n : Int} (first : 0 ≤ m ∧ m < 2 ^ 64) (second : 0 ≤ n ∧ n < 2 ^ 64)
    (same : BitVec.ofInt 64 m = BitVec.ofInt 64 n) : m = n := by
  have values := congrArg BitVec.toNat same
  rw [BitVec.toNat_ofInt, BitVec.toNat_ofInt] at values
  omega

namespace Null

variable {s : Null} {c : IoCursor}

theorem end_reply_iff (mirrors : s.Mirrors c) (v : BitVec 64) :
    (s.seek (.end_ v)).reply = (c.seek (.end_ v)).reply ↔ v = 0 := by
  obtain ⟨small, len, _⟩ := mirrors
  have low := BitVec.le_toInt v
  have high := BitVec.toInt_lt (x := v)
  have signed : s.len.toInt = s.len.toNat := by
    rw [BitVec.toInt_eq_toNat_cond, if_pos (by omega)]
  change (s.seekTo (s.len.toInt - v.toInt) underflow).reply = (c.seekBy c.inner.length v).reply ↔ _
  rw [signed, len]
  constructor
  · intro same
    by_contra moves
    have distance : v.toInt ≠ 0 := fun none => moves (BitVec.eq_of_toInt_eq none)
    by_cases past : 2 ^ 63 ≤ s.len.toNat - v.toInt
    · rw [s.seekTo_of_overflow _ (.inr past)] at same
      exact c.seekBy_calm _ _ same.symm
    · by_cases back : s.len.toNat - v.toInt < 0
      · rw [s.seekTo_of_neg _ (by omega) back, c.seekBy_of_inside (by omega) (by omega)] at same
        cases same
      · rw [s.seekTo_of_nonneg _ (by omega) (by omega)] at same
        by_cases forward : 0 ≤ s.len.toNat + v.toInt
        · rw [c.seekBy_of_inside forward (by omega), Reply.value.injEq] at same
          have equal := ofInt_inj_of_lt (by omega) (by omega) same
          omega
        · rw [c.seekBy_of_outside (by omega)] at same
          cases same
  · rintro rfl
    have zero : (0 : BitVec 64).toInt = 0 := rfl
    rw [zero, s.seekTo_of_nonneg _ (by omega) (by omega)]
    rw [c.seekBy_of_inside (by omega) (by omega), zero, Int.sub_zero, Int.add_zero]

theorem current_reply_iff (mirrors : s.Mirrors c) (v : BitVec 64) :
    (s.seek (.current v)).reply = (c.seek (.current v)).reply ↔
      c.pos.toNat < 2 ^ 63 ∧ c.pos.toNat + v.toInt < 2 ^ 63 := by
  have low := BitVec.le_toInt v
  have high := BitVec.toInt_lt (x := v)
  have word := c.pos.isLt
  change (s.seekTo (s.offset.toInt + v.toInt) overflow).reply = (c.seekBy c.pos.toNat v).reply ↔ _
  rw [mirrors.offset]
  by_cases small : c.pos.toNat < 2 ^ 63
  · have signed : c.pos.toInt = c.pos.toNat := by
      rw [BitVec.toInt_eq_toNat_cond, if_pos (by omega)]
    rw [signed, and_iff_right small]
    by_cases past : 2 ^ 63 ≤ c.pos.toNat + v.toInt
    · rw [s.seekTo_of_overflow _ (.inr past)]
      exact iff_of_false (c.seekBy_calm _ _).symm (by omega)
    · refine iff_of_true ?_ (by omega)
      by_cases back : c.pos.toNat + v.toInt < 0
      · rw [s.seekTo_of_neg _ (by omega) back, c.seekBy_of_outside (.inl back)]
      · rw [s.seekTo_of_nonneg _ (by omega) (by omega), c.seekBy_of_inside (by omega) (by omega)]
  · -- A position from 2^63 on is negative as an `i64`.
    have signed : c.pos.toInt = c.pos.toNat - 2 ^ 64 := by
      rw [BitVec.toInt_eq_toNat_cond, if_neg (by omega)]
      rfl
    rw [signed]
    refine iff_of_false ?_ fun fine => small fine.1
    by_cases past : c.pos.toNat - 2 ^ 64 + v.toInt < -2 ^ 63
    · rw [s.seekTo_of_overflow _ (.inl past)]
      exact (c.seekBy_calm _ _).symm
    · by_cases back : c.pos.toNat - 2 ^ 64 + v.toInt < 0
      · rw [s.seekTo_of_neg _ (by omega) back, c.seekBy_of_inside (by omega) (by omega)]
        exact nofun
      · rw [s.seekTo_of_nonneg _ (by omega) (by omega), c.seekBy_of_outside (by omega)]
        exact nofun

/-- One seek: both do the same exactly if it is sound. -/
theorem reply_iff (mirrors : s.Mirrors c) (pos : SeekFrom) :
    (s.seek pos).reply = (c.seek pos).reply ↔ c.Sound pos := by
  cases pos with
  | start v => exact iff_of_true rfl trivial
  | end_ v => exact end_reply_iff mirrors v
  | current v => exact current_reply_iff mirrors v

/-- A seek that succeeds returns the new position, one that fails leaves the old one. -/
theorem seek_moves {s s' : Null} {pos : SeekFrom} (moved : (s.seek pos).state? = some s') :
    s'.len = s.len ∧ ((s.seek pos).reply = .value s'.offset ∨
      (s.seek pos).reply = .refused ∧ s'.offset = s.offset) := by
  have target (n : Int) (message : String)
      (moved : (s.seekTo n message).state? = some s') : s'.len = s.len ∧
        ((s.seekTo n message).reply = .value s'.offset ∨
          (s.seekTo n message).reply = .refused ∧ s'.offset = s.offset) := by
    unfold seekTo at moved
    split at moved
    · cases moved
    · split at moved
      · rename_i fits forward
        cases moved
        exact ⟨rfl, .inl (s.seekTo_of_nonneg message forward (by omega))⟩
      · rename_i fits back
        cases moved
        exact ⟨rfl, .inr ⟨s.seekTo_of_neg message (by omega) (by omega), rfl⟩⟩
  cases pos with
  | start v =>
    cases moved
    exact ⟨rfl, .inl rfl⟩
  | end_ v => exact target _ _ moved
  | current v => exact target _ _ moved

end Null

theorem IoCursor.seek_moves {c c' : IoCursor} {pos : SeekFrom}
    (moved : (c.seek pos).state? = some c') :
    c'.inner = c.inner ∧ ((c.seek pos).reply = .value c'.pos ∨
      (c.seek pos).reply = .refused ∧ c'.pos = c.pos) := by
  have target (base : Nat) (offset : BitVec 64)
      (moved : (c.seekBy base offset).state? = some c') : c'.inner = c.inner ∧
        ((c.seekBy base offset).reply = .value c'.pos ∨
          (c.seekBy base offset).reply = .refused ∧ c'.pos = c.pos) := by
    unfold seekBy at moved
    dsimp only at moved
    split at moved
    · rename_i inside
      cases moved
      exact ⟨rfl, .inl (c.seekBy_of_inside inside.1 inside.2)⟩
    · rename_i outside
      cases moved
      exact ⟨rfl, .inr ⟨c.seekBy_of_outside (by omega), rfl⟩⟩
  cases pos with
  | start n =>
    cases moved
    exact ⟨rfl, .inl rfl⟩
  | end_ n => exact target _ _ moved
  | current n => exact target _ _ moved

namespace Null

variable {s : Null} {c : IoCursor}

theorem Mirrors.seek {s' : Null} {c' : IoCursor} {pos : SeekFrom} (mirrors : s.Mirrors c)
    (sound : c.Sound pos) (moved : (s.seek pos).state? = some s')
    (moved' : c.step pos = some c') : s'.Mirrors c' := by
  have same := (reply_iff mirrors pos).mpr sound
  obtain ⟨len, went⟩ := seek_moves moved
  obtain ⟨inner, went'⟩ := c.seek_moves moved'
  refine ⟨len ▸ mirrors.small, by rw [inner, len, mirrors.len], ?_⟩
  rw [same] at went
  rcases went with there | ⟨refused, here⟩
  · rcases went' with there' | ⟨refused', _⟩
    · exact Reply.value.inj (there.symm.trans there')
    · cases there.symm.trans refused'
  · rcases went' with there' | ⟨_, here'⟩
    · cases refused.symm.trans there'
    · rw [here, here', mirrors.offset]

/-- The device replies like the cursor to the seeks of a run exactly if each of them is sound. -/
theorem null_seeks_iff {len : BitVec 64} {buffer : List U8} (small : len.toNat < 2 ^ 63)
    (sized : buffer.length = len.toNat) (seeks : List SeekFrom) :
    replies seek (.new len) seeks = replies IoCursor.seek { inner := buffer } seeks ↔
      BeforeEach IoCursor.step IoCursor.Sound { inner := buffer } seeks := by
  have mirrors : (new len).Mirrors { inner := buffer } := ⟨small, sized, rfl⟩
  refine replies_eq_iff (R := Mirrors) (fun s c pos mirrors => reply_iff mirrors pos) ?_ seeks mirrors
  intro s c pos s' c' mirrors sound moved moved'
  exact mirrors.seek sound moved moved'

theorem forth_and_back_sound : replies seek (.new 4) [.start 3, .current (-2), .end_ 0] =
    replies IoCursor.seek { inner := [0, 0, 0, 0] } [.start 3, .current (-2), .end_ 0] := by
  apply (null_seeks_iff (by decide) rfl _).mpr
  refine ⟨trivial, ?_⟩
  rintro _ ⟨⟩
  refine ⟨⟨by decide, by decide⟩, ?_⟩
  rintro _ ⟨⟩
  exact ⟨rfl, fun _ _ => trivial⟩

theorem last_byte_astray : replies seek (.new 1) [.end_ (-1)] ≠
    replies IoCursor.seek { inner := [0] } [.end_ (-1)] := by
  decide

end Null
end Clicky
