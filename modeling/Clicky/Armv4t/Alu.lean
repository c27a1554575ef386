import Clicky.Memory

/-! Arithmetic on words with the flags it leaves, the barrel shifter, and the conditions under which
an instruction is executed. -/
namespace Clicky.Armv4t

/-- Positions of the flags in a status register. -/
def flagN : Nat := 31
def flagZ : Nat := 30
def flagC : Nat := 29
def flagV : Nat := 28
def flagT : Nat := 5

def isNeg (x : U32) : Bool := x.msb
def isPos (x : U32) : Bool := !x.msb

def signExtend (x : U32) (len : Nat) : U32 := (x <<< (32 - len)).sshiftRight (32 - len)

def combine64 (hi lo : U32) : BitVec 64 := (hi.setWidth 64 <<< 32) ||| lo.setWidth 64

def split64 (quad : BitVec 64) : U32 × U32 := ((quad >>> 32).setWidth 32, quad.setWidth 32)

/-- A shifted word, and the carry of the shifter. -/
abbrev Shifted := U32 × Bool

/-- A shift by 0 has no bit to carry out: the callers treat it apart. -/
def shiftLsl (x : U32) (rot : Nat) : Shifted :=
  if rot < 32 then (x <<< rot, x.getBit (32 - rot))
  else if rot = 32 then (0, x.getBit 0)
  else (0, false)

def shiftLsr (x : U32) (rot : Nat) : Shifted :=
  if rot = 0 then (x, false)
  else if rot < 32 then (x >>> rot, x.getBit (rot - 1))
  else if rot = 32 then (0, x.getBit 31)
  else (0, false)

def shiftAsr (x : U32) (rot : Nat) : Shifted :=
  if rot = 0 then (x, false)
  else if rot < 32 then (x.sshiftRight rot, x.getBit (rot - 1))
  else (x.sshiftRight 31, x.getBit 31)

def shiftRor (x : U32) (rot : Nat) : Shifted :=
  if rot = 0 then (x, false) else (x.rotateRight rot, x.getBit ((rot - 1) % 32))

/-- A shift by an amount other than 0. -/
def argShift (val : U32) (shift : Nat) (shiftType : BitVec 2) : Shifted :=
  match shiftType with
  | 0 => shiftLsl val shift
  | 1 => shiftLsr val shift
  | 2 => shiftAsr val shift
  | 3 => shiftRor val shift

/-- What an immediate shift by 0 stands for. The last case rotates through the carry. -/
def argShift0 (val : U32) (shiftType : BitVec 2) (c : Bool) : Shifted :=
  match shiftType with
  | 0 => (val, c)
  | 1 => shiftLsr val 32
  | 2 => shiftAsr val 32
  | 3 => ((val >>> 1) ||| ((BitVec.ofBool c).setWidth 32 <<< 31), val.getBit 0)

/-- A result, and the overflow and the carry that come with it. -/
structure Flagged where
  res : U32
  v : Bool
  c : Bool
  deriving DecidableEq, Repr

def addFlags (lhs rhs : U32) (carry : Bool) : Flagged :=
  let res := lhs + rhs + (BitVec.ofBool carry).setWidth 32
  { res
    v := (isNeg lhs && isNeg rhs && isPos res) || (isPos lhs && isPos rhs && isNeg res)
    c := (isNeg lhs && isNeg rhs) || (isNeg lhs && isPos res) || (isNeg rhs && isPos res) }

def subFlags (lhs rhs : U32) (carry : Bool) : Flagged :=
  let res := lhs - rhs - (BitVec.ofBool carry).setWidth 32
  { res
    v := (isNeg lhs && isPos rhs && isPos res) || (isPos lhs && isNeg rhs && isNeg res)
    c := (isNeg lhs && isPos rhs) || (isNeg lhs && isPos res) || (isPos rhs && isPos res) }

def buildFlags (v c z n : Bool) : U32 :=
  (BitVec.ofBool v).setWidth 32 ||| (BitVec.ofBool c).setWidth 32 <<< 1 |||
    (BitVec.ofBool z).setWidth 32 <<< 2 ||| (BitVec.ofBool n).setWidth 32 <<< 3

def condMet (cond : BitVec 4) (cpsr : U32) : Bool :=
  let z := cpsr.getBit flagZ
  let c := cpsr.getBit flagC
  let v := cpsr.getBit flagV
  let n := cpsr.getBit flagN
  match cond with
  | 0x0 => z
  | 0x1 => !z
  | 0x2 => c
  | 0x3 => !c
  | 0x4 => n
  | 0x5 => !n
  | 0x6 => v
  | 0x7 => !v
  | 0x8 => c && !z
  | 0x9 => !c || z
  | 0xA => n == v
  | 0xB => n != v
  | 0xC => !z && n == v
  | 0xD => z || n != v
  -- code 14 is for always; code 15 is reserved, and executes too
  | _ => true

end Clicky.Armv4t
