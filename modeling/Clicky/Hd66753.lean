import Clicky.Memory
import Clicky.Lib.Runs
import Mathlib.Data.Fin.Basic

/-! The LCD controller: the two byte latches of its bus, its commands, and the address counter
that walks over the graphics memory while pixels are written. -/
namespace Clicky
open Runs

def cgramHeight : Nat := 132
def emuCgramWidth : Nat := 256
def emuCgramBytes : Nat := emuCgramWidth * cgramHeight * 2 / 8
def emuCgramLen : Nat := emuCgramBytes / 2

/-- The registers of one byte. Of the entry mode, two fields choose among four ways each. -/
structure InternalRegs where
  cms : Bool := false
  sgs : Bool := false
  nl : U8 := 0
  nw : U8 := 0
  eor : Bool := false
  bC : Bool := false
  stb : Bool := false
  slp : Bool := false
  ap : U8 := 0
  dc : U8 := 0
  ps : U8 := 0
  bt : U8 := 0
  bs : U8 := 0
  vr : U8 := 0
  ct : U8 := 0
  iD : Bool := false
  am : U8 := 0
  lg : U8 := 0
  rt : U8 := 0
  spt : Bool := false
  gsh : U8 := 0
  gsl : U8 := 0
  rev : Bool := false
  d : Bool := false
  c : Bool := false
  cm : U8 := 0
  wm : U16 := 0
  hs : U8 := 0
  he : U8 := 0
  vs : U8 := 0
  ve : U8 := 0
  ss1 : U8 := 0
  se1 : U8 := 0
  ss2 : U8 := 0
  se2 : U8 := 0
  am_range : am.toNat < 4 := by decide
  lg_range : lg.toNat < 4 := by decide
  deriving DecidableEq, Repr

/-- The address counter is a host word of 64 bits. -/
structure Hd66753 where
  writeByteLatch : Option U8 := none
  readByteLatch : Option U8 := none
  ir : U16 := 0
  ac : BitVec 64 := 0
  cgram : Vector U16 emuCgramLen := Vector.replicate emuCgramLen 0
  ireg : InternalRegs := { nl := 0b11111 }

namespace Hd66753

def hexCommand (v : U16) : String := "0x" ++ String.ofList (Nat.toDigits 16 v.toNat)

def unreachable : String := "internal error: entered unreachable code"
def indexOutOfBounds : String := "index out of bounds"

def bits (val : U16) (lo hi : Nat) : U8 := (val.getBits lo hi).setWidth 8

theorem bits_range (val : U16) (lo : Nat) : (bits val lo (lo + 1)).toNat < 4 := by
  have width : lo + 1 + 1 - lo = 2 := by omega
  rw [bits, BitVec.toNat_setWidth, BitVec.getBits, width]
  have low : ((val >>> lo) &&& 3#16).toNat ≤ 3 := Nat.and_le_right
  exact Nat.lt_of_le_of_lt (Nat.mod_le _ _) (Nat.lt_succ_of_le low)

/-- The operation on what is written, and what is there before. -/
def logicalOp (lg : U8) (oldVal val : U16) : Option U16 :=
  match lg with
  | 0b00 => some val
  | 0b01 => some (oldVal ||| val)
  | 0b10 => some (oldVal &&& val)
  | 0b11 => some (oldVal ^^^ val)
  | _ => none

def dxAc (am : U8) : Outcome MemException Unit (BitVec 64) :=
  match am with
  | 0b00 => .ok () 1
  | 0b01 => .raise () (.fatal "unimplemented: vertical CGRAM write")
  | 0b10 => .raise () (.fatal "unimplemented: two-word vertical CGRAM write")
  | 0b11 => .raise () (.fatal "EntryMode:AM cannot be set to 0b11")
  | _ => .panic unreachable

/-- The counter after a write. A row ends at word 0x14 of 0x20. -/
def nextAc (iD : Bool) (dx ac : BitVec 64) : BitVec 64 :=
  let ac := (if iD then ac + dx else ac - dx) % 0x1080
  let ac :=
    if ac &&& 0x1f > 0x14 then
      if iD then (ac &&& ~~~(0x1f : BitVec 64)) + 0x20 else (ac &&& ~~~(0x1f : BitVec 64)) + 0x14
    else ac
  ac % 0x1080

def writeCgram (s : Hd66753) (val : U16) : Access Hd66753 Unit :=
  let val := val.rotateLeft (s.ireg.rt.toNat * 2)
  if inside : s.ac.toNat < emuCgramLen then
    let oldVal := s.cgram[s.ac.toNat]
    match logicalOp s.ireg.lg oldVal val with
    | none => .panic unreachable
    | some val =>
      let val := (oldVal &&& s.ireg.wm) ||| (val &&& ~~~s.ireg.wm)
      let s := { s with cgram := s.cgram.set s.ac.toNat val }
      ((dxAc s.ireg.am).zoom fun _ => s).bind fun s dx =>
        .ok { s with ac := nextAc s.ireg.iD dx s.ac } ()
  else .panic indexOutOfBounds

def setEntryMode (s : Hd66753) (val : U16) : Access Hd66753 Unit :=
  let s := { s with ireg := { s.ireg with
    iD := val.getBit 4
    am := bits val 2 3
    lg := bits val 0 1
    am_range := bits_range val 2
    lg_range := bits_range val 0 } }
  if s.ireg.am = 0b11 then
    .raise s (.contractViolation "0b11 is an invalid LCD EntryMode:AM value" .error none)
  else .ok s ()

/-- Either way there is an exception: the cursor is not drawn. -/
def setCursor (s : Hd66753) (val : U16) : Access Hd66753 Unit :=
  let s := { s with ireg := { s.ireg with cm := bits val 0 1, c := val.getBit 2 } }
  if s.ireg.c then
    .raise s (.contractViolation "cursor mode is enabled, but not implemented!" .warn none)
  else .raise s (.contractViolation "cursor mode is now disabled" .info none)

def put (s : Hd66753) (ireg : InternalRegs) : Access Hd66753 Unit := .ok { s with ireg } ()

def handleDataWrite (s : Hd66753) (val : U16) : Access Hd66753 Unit :=
  let ireg := s.ireg
  match s.ir with
  | 0x00 | 0x09 | 0x0a => .ok s ()
  | 0x01 => s.put { ireg with cms := val.getBit 9, sgs := val.getBit 8, nl := bits val 0 4 }
  | 0x02 => s.put { ireg with nw := bits val 0 4, eor := val.getBit 5, bC := val.getBit 6 }
  | 0x03 =>
    s.put { ireg with
      stb := val.getBit 0
      slp := val.getBit 1
      ap := bits val 2 3
      dc := bits val 4 5
      ps := bits val 6 7
      bt := bits val 8 9
      bs := bits val 10 12 }
  | 0x04 => s.put { ireg with vr := bits val 8 10, ct := bits val 0 6 }
  | 0x05 => s.setEntryMode val
  | 0x06 => s.put { ireg with rt := bits val 0 2 }
  | 0x07 =>
    s.put { ireg with
      spt := val.getBit 8
      gsh := bits val 4 5
      gsl := bits val 2 3
      rev := val.getBit 1
      d := val.getBit 0 }
  | 0x08 => s.setCursor val
  | 0x0b => s.put { ireg with hs := bits val 0 7, he := bits val 8 15 }
  | 0x0c => s.put { ireg with vs := bits val 0 7, ve := bits val 8 15 }
  | 0x0d => s.put { ireg with ss1 := bits val 0 7, se1 := bits val 8 15 }
  | 0x0e => s.put { ireg with ss2 := bits val 0 7, se2 := bits val 8 15 }
  | 0x10 => s.put { ireg with wm := val }
  | 0x11 => .ok { s with ac := val.setWidth 64 % 0x1080 } ()
  | 0x12 => s.writeCgram val
  | invalidCmd =>
    .raise s (.fatal ("attempted to execute invalid LCD command " ++ hexCommand invalidCmd))

def handleDataRead (s : Hd66753) : Access Hd66753 U16 :=
  match s.ir with
  | 0x0 => .ok s 0b0000011101010011
  | invalidCmd =>
    .raise s (.fatal ("attempted to execute invalid LCD command " ++ hexCommand invalidCmd))

/-- A value is read in two bytes, the higher one first. -/
def r32 (s : Hd66753) (offset : U32) : Access Hd66753 U32 :=
  if offset = 0x0 then .ok s 0
  else match s.readByteLatch with
    | some val => .ok { s with readByteLatch := none } (val.setWidth 32)
    | none =>
      let val : Access Hd66753 U16 :=
        match offset with
        | 0x8 => .ok s (s.ireg.ct.setWidth 16)
        | 0x10 => s.handleDataRead
        | _ => .raise s .unexpected
      val.bind fun s val =>
        .ok { s with readByteLatch := some (val.setWidth 8) } ((val >>> 8).setWidth 32)

/-- The first byte of a value is latched, wherever it is written. -/
def w32 (s : Hd66753) (offset val : U32) : Access Hd66753 Unit :=
  if offset = 0x0 then .raise s (.stubWrite .error)
  else
    let val : U8 := val.setWidth 8
    match s.writeByteLatch with
    | none => .ok { s with writeByteLatch := some val } ()
    | some hi =>
      let val : U16 := hi.setWidth 16 <<< 8 ||| val.setWidth 16
      let s := { s with writeByteLatch := none }
      match offset with
      | 0x8 =>
        let s := { s with ir := val }
        if s.ir > 0x12 then
          .raise s (.contractViolation ("set invalid LCD Command: " ++ hexCommand val) .error none)
        else .ok s ()
      | 0x10 => s.handleDataWrite val
      | _ => .raise s .unexpected

instance : Memory Hd66753 where
  r32 := r32
  w32 := w32

/-- The words of the memory that the controller really has. -/
def words : Nat := 21 * cgramHeight

/-- The address of a word, where they are numbered row by row. -/
def word (n : Nat) : BitVec 64 := BitVec.ofNat 64 (n / 21 * 0x20 + n % 21)

def ValidAc (ac : BitVec 64) : Prop := ac < 0x1080 ∧ ac &&& 0x1f ≤ 0x14

/-- The number of the word that the counter points to. -/
def place (s : Hd66753) : Nat := s.ac.toNat / 0x20 * 21 + s.ac.toNat % 0x20

/-- Data is written to the memory, along the rows. -/
def Horizontal (s : Hd66753) : Prop := s.ir = 0x12 ∧ s.ireg.am = 0b00

def dataWrite (s : Hd66753) (val : U16) : Option Hd66753 := (s.handleDataWrite val).state?

/-- The word so many words after a given one, or before it. The last one is before the first. -/
def along (iD : Bool) (n count : Nat) : Nat :=
  (if iD then n + count else n + (words - count % words)) % words

/-- Before each data write and after the last one, the counter is as many words along as there
were writes, and inside the memory. -/
def Walks (s : Hd66753) (vals : List U16) : Prop :=
  ∀ count ≤ vals.length, ∃ s', run dataWrite s (vals.take count) = some s' ∧
    s'.ac = word (along s.ireg.iD s.place count) ∧ s'.ac.toNat < emuCgramLen

theorem toNat_word {n : Nat} (inside : n < words) : (word n).toNat = n / 21 * 32 + n % 21 := by
  have size : words = 2772 := rfl
  rw [word, BitVec.toNat_ofNat]
  exact Nat.mod_eq_of_lt (by omega)

theorem toNat_and_1f (x : BitVec 64) : (x &&& 0x1f).toNat = x.toNat % 32 := by
  rw [BitVec.toNat_and]
  exact Nat.and_two_pow_sub_one_eq_mod x.toNat 5

theorem toNat_rowStart (x : BitVec 64) : (x &&& ~~~(0x1f : BitVec 64)).toNat = x.toNat / 32 * 32 := by
  have parts : x &&& ~~~(0x1f : BitVec 64) = (x >>> 5) <<< 5 := by
    apply BitVec.eq_of_getLsbD_eq
    intro i inside
    have mask : (0x1f : BitVec 64).getLsbD i = decide (i < 5) := by
      change (0x1f#64).getLsbD i = _
      rw [BitVec.getLsbD_ofNat, Nat.testBit_two_pow_sub_one 5 i]
      simp [inside]
    rw [BitVec.getLsbD_and, BitVec.getLsbD_not, BitVec.getLsbD_shiftLeft, BitVec.getLsbD_ushiftRight,
      mask]
    by_cases low : i < 5
    · simp [low]
    · simp [low, inside, Nat.add_sub_of_le (Nat.not_lt.mp low)]
  have bound := x.isLt
  rw [parts, BitVec.toNat_shiftLeft, BitVec.toNat_ushiftRight, Nat.shiftRight_eq_div_pow,
    Nat.shiftLeft_eq]
  omega

theorem toNat_wrapped (x : BitVec 64) : (x % 0x1080).toNat = x.toNat % 0x1080 := BitVec.toNat_umod

theorem past_row_iff (x : BitVec 64) : x &&& 0x1f > 0x14 ↔ 20 < x.toNat % 32 := by
  rw [gt_iff_lt, BitVec.lt_def, toNat_and_1f]
  rfl

theorem toNat_nextAc_up {ac : BitVec 64} (valid : ac.toNat < 0x1080) :
    (nextAc true 1 ac).toNat =
      if 20 < (ac.toNat + 1) % 0x1080 % 32 then ((ac.toNat + 1) % 0x1080 / 32 * 32 + 32) % 0x1080
      else (ac.toNat + 1) % 0x1080 := by
  have moved : ((ac + 1) % 0x1080).toNat = (ac.toNat + 1) % 0x1080 := by
    rw [toNat_wrapped, BitVec.toNat_add]
    change (ac.toNat + 1) % 2 ^ 64 % 0x1080 = _
    omega
  unfold nextAc
  simp only [if_true]
  rw [toNat_wrapped]
  by_cases past : 20 < (ac.toNat + 1) % 0x1080 % 32
  · rw [if_pos past, if_pos ((past_row_iff _).mpr (moved ▸ past)), BitVec.toNat_add, toNat_rowStart,
      moved]
    change ((ac.toNat + 1) % 0x1080 / 32 * 32 + 32) % 2 ^ 64 % 0x1080 = _
    omega
  · rw [if_neg past, if_neg fun skipped => past (moved ▸ (past_row_iff _).mp skipped), moved]
    omega

theorem toNat_nextAc_down {ac : BitVec 64} (valid : ac.toNat < 0x1080) (above : ac ≠ 0) :
    (nextAc false 1 ac).toNat =
      if 20 < (ac.toNat - 1) % 32 then (ac.toNat - 1) / 32 * 32 + 20 else ac.toNat - 1 := by
  have nonzero : ac.toNat ≠ 0 := fun zero => above (BitVec.eq_of_toNat_eq zero)
  have moved : ((ac - 1) % 0x1080).toNat = ac.toNat - 1 := by
    rw [toNat_wrapped, BitVec.toNat_sub]
    change (2 ^ 64 - 1 + ac.toNat) % 2 ^ 64 % 0x1080 = _
    omega
  unfold nextAc
  simp only [Bool.false_eq_true, if_false]
  rw [toNat_wrapped]
  by_cases past : 20 < (ac.toNat - 1) % 32
  · rw [if_pos past, if_pos ((past_row_iff _).mpr (moved ▸ past)), BitVec.toNat_add, toNat_rowStart,
      moved]
    change ((ac.toNat - 1) / 32 * 32 + 20) % 2 ^ 64 % 0x1080 = _
    omega
  · rw [if_neg past, if_neg fun skipped => past (moved ▸ (past_row_iff _).mp skipped), moved]
    omega

theorem nextAc_up {n : Nat} (inside : n < words) : nextAc true 1 (word n) = word ((n + 1) % words) := by
  have size : words = 2772 := rfl
  have here := toNat_word inside
  apply BitVec.eq_of_toNat_eq
  rw [toNat_nextAc_up (by omega), toNat_word (Nat.mod_lt _ (by omega)), here, size]
  split <;> omega

theorem nextAc_down {n : Nat} (inside : n < words) (above : n ≠ 0) :
    nextAc false 1 (word n) = word (n - 1) := by
  have size : words = 2772 := rfl
  have here := toNat_word inside
  have nonzero : word n ≠ 0 := by
    intro zero
    rw [zero] at here
    change 0 = _ at here
    omega
  apply BitVec.eq_of_toNat_eq
  rw [toNat_nextAc_down (by omega) nonzero, here, toNat_word (by omega)]
  split <;> omega

theorem nextAc_lt (iD : Bool) (dx ac : BitVec 64) : (nextAc iD dx ac).toNat < emuCgramLen := by
  have size : emuCgramLen = 0x1080 := rfl
  unfold nextAc
  rw [toNat_wrapped, size]
  exact Nat.mod_lt _ (by decide)

theorem word_place {s : Hd66753} (valid : ValidAc s.ac) : s.place < words ∧ s.ac = word s.place := by
  have size : words = 2772 := rfl
  obtain ⟨inside, row⟩ := valid
  rw [BitVec.lt_def] at inside
  rw [BitVec.le_def, toNat_and_1f] at row
  change s.ac.toNat < 0x1080 at inside
  change s.ac.toNat % 32 ≤ 20 at row
  have low : s.place < words := by
    unfold place
    omega
  refine ⟨low, BitVec.eq_of_toNat_eq ?_⟩
  rw [toNat_word low]
  unfold place
  omega

theorem logicalOp_isSome {lg : U8} (range : lg.toNat < 4) (oldVal val : U16) :
    ∃ result, logicalOp lg oldVal val = some result := by
  have ways : lg = 0 ∨ lg = 1 ∨ lg = 2 ∨ lg = 3 := by
    simp only [← BitVec.toNat_inj]
    change lg.toNat = 0 ∨ lg.toNat = 1 ∨ lg.toNat = 2 ∨ lg.toNat = 3
    omega
  rcases ways with rfl | rfl | rfl | rfl <;> exact ⟨_, rfl⟩

/-- A data write along the rows moves the counter, and no register. -/
theorem dataWrite_moves {s : Hd66753} (horizontal : s.Horizontal) (inside : s.ac.toNat < emuCgramLen)
    (val : U16) : ∃ s', s.dataWrite val = some s' ∧ s'.ac = nextAc s.ireg.iD 1 s.ac ∧
      s'.ir = s.ir ∧ s'.ireg = s.ireg := by
  obtain ⟨index, mode⟩ := horizontal
  obtain ⟨result, chosen⟩ := logicalOp_isSome s.ireg.lg_range s.cgram[s.ac.toNat]
    (val.rotateLeft (s.ireg.rt.toNat * 2))
  unfold dataWrite handleDataWrite
  simp only [index, writeCgram, dif_pos inside, chosen, mode]
  exact ⟨_, rfl, rfl, rfl, rfl⟩

theorem run_moves {s : Hd66753} (horizontal : s.Horizontal) (inside : s.ac.toNat < emuCgramLen)
    (vals : List U16) : ∃ s', run dataWrite s vals = some s' ∧
      s'.ac = (nextAc s.ireg.iD 1)^[vals.length] s.ac ∧ s'.ac.toNat < emuCgramLen := by
  induction vals generalizing s with
  | nil => exact ⟨s, rfl, rfl, inside⟩
  | cons val vals ih =>
    obtain ⟨mid, first, moved, sameIr, sameReg⟩ := dataWrite_moves horizontal inside val
    have still : mid.Horizontal := by
      rw [Horizontal, sameIr, sameReg]
      exact horizontal
    obtain ⟨s', last, walked, low⟩ := ih still (moved ▸ nextAc_lt _ _ _)
    refine ⟨s', by rw [run, first]; exact last, ?_, low⟩
    rw [walked, sameReg, moved]
    rfl

theorem iterate_up {n : Nat} (inside : n < words) (count : Nat) :
    (nextAc true 1)^[count] (word n) = word (along true n count) := by
  have size : words = 2772 := rfl
  induction count with
  | zero =>
    rw [along, if_pos rfl, Nat.add_zero, Nat.mod_eq_of_lt inside]
    rfl
  | succ count ih =>
    have low : along true n count < words := Nat.mod_lt _ (by omega)
    rw [Function.iterate_succ_apply', ih, nextAc_up low, along, if_pos rfl, along, if_pos rfl,
      Nat.mod_add_mod, Nat.add_assoc]

theorem iterate_down {n : Nat} (inside : n < words) {count : Nat} (short : count ≤ n) :
    (nextAc false 1)^[count] (word n) = word (n - count) := by
  induction count with
  | zero => rfl
  | succ count ih =>
    rw [Function.iterate_succ_apply', ih (by omega), nextAc_down (by omega) (by omega)]
    rfl

theorem along_down {n count : Nat} (inside : n < words) (short : count ≤ n) :
    along false n count = n - count := by
  have size : words = 2772 := rfl
  simp only [along, Bool.false_eq_true, if_false, size]
  omega

/-- The modulus does not divide the range of a host word, so that the borrow goes astray. -/
theorem nextAc_below : nextAc false 1 (word 0) = 0xe74 := by decide

/-- The counter walks over the words of the memory exactly as long as it does not step down from
the first one. It stays inside in any case. -/
theorem counter_walks_iff {s : Hd66753} (horizontal : s.Horizontal) (valid : ValidAc s.ac)
    (vals : List U16) :
    s.Walks vals ↔ s.ireg.iD = true ∨ vals.length ≤ s.place := by
  have size : words = 2772 := rfl
  obtain ⟨low, here⟩ := word_place valid
  have inside : s.ac.toNat < emuCgramLen := BitVec.lt_def.mp valid.1
  have moves (count : Nat) (short : count ≤ vals.length) : ∃ s', run dataWrite s (vals.take count) =
      some s' ∧ s'.ac = (nextAc s.ireg.iD 1)^[count] (word s.place) ∧ s'.ac.toNat < emuCgramLen := by
    have moved := run_moves horizontal inside (vals.take count)
    rwa [List.length_take, Nat.min_eq_left short, here] at moved
  constructor
  · intro walks
    by_contra wrong
    obtain ⟨down, long⟩ := not_or.mp wrong
    have past : s.place + 1 ≤ vals.length := Nat.lt_of_not_le long
    obtain ⟨s', reached, walked, _⟩ := walks (s.place + 1) past
    obtain ⟨_, same, moved, _⟩ := moves (s.place + 1) past
    cases reached.symm.trans same
    rw [Bool.not_eq_true] at down
    have top : along false s.place (s.place + 1) = 2771 := by
      simp only [along, Bool.false_eq_true, if_false, size]
      omega
    rw [down, Function.iterate_succ_apply', iterate_down low (Nat.le_refl _), Nat.sub_self,
      nextAc_below] at moved
    rw [down, top, moved] at walked
    exact absurd walked (by decide)
  · intro allowed count short
    obtain ⟨s', reached, moved, low'⟩ := moves count short
    refine ⟨s', reached, ?_, low'⟩
    cases way : s.ireg.iD with
    | true =>
      rw [moved, way, iterate_up low]
    | false =>
      have before : count ≤ s.place := by
        rcases allowed with up | few
        · rw [way] at up
          cases up
        · exact Nat.le_trans short few
      rw [moved, way, iterate_down low before, along_down low before]

/-- A controller that is told to write to its memory, as it comes up. It counts down. -/
def writing : Hd66753 := { ir := 0x12 }

theorem writing_up : { writing with ireg := { writing.ireg with iD := true } }.Walks [0xffff] :=
  (counter_walks_iff ⟨rfl, rfl⟩ ⟨by decide, by decide⟩ [0xffff]).mpr (.inl rfl)

theorem counts_down_astray : ¬ writing.Walks [0] := by
  intro walks
  obtain ⟨s', reached, walked, _⟩ := walks 1 (Nat.le_refl 1)
  obtain ⟨t, written, moved, _⟩ := dataWrite_moves (s := writing) ⟨rfl, rfl⟩ (by decide) 0
  have same : some t = some s' := by
    rw [← reached, List.take_one, List.head?_cons, Option.toList_some, run, written]
    rfl
  cases same
  rw [moved] at walked
  exact absurd walked (by decide)

end Hd66753
end Clicky
