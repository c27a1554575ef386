import Clicky.Memory

/-! The power supply controller: a chip on the I2C bus, whose registers are reached through a
pointer that moves on by itself. -/
namespace Clicky

/-- What `Local::now` tells. `weekday` counts from Monday. -/
structure LocalTime where
  second : Nat
  minute : Nat
  hour : Nat
  weekday : Nat
  day : Nat
  month : Nat
  year : Nat
  deriving DecidableEq, Repr

/-- Devices on the I2C bus. A device may look at the clock when it is read. -/
class I2CDevice (δ : Type) where
  read : δ → LocalTime → Access δ U8
  write : δ → U8 → Access δ Unit
  writeDone : δ → Access δ Unit
  kind : String
  /-- The name of the register that was selected. -/
  probe : δ → Access δ String

namespace Pcf5060x

inductive Reg where
  | ID | OOCS | INT1 | INT2 | INT3 | INT1M | INT2M | INT3M | OOCC1 | OOCC2 | RTCSC | RTCMN
  | RTCHR | RTCWD | RTCDT | RTCMT | RTCYR | RTCSCA | RTCMNA | RTCHRA | RTCWDA | RTCDTA | RTCMTA
  | RTCYRA | PSSC | PWROKM | PWROKS | DCDC1 | DCDC2 | DCDC3 | DCDC4 | DCDEC1 | DCDEC2 | DCUDC1
  | DCUDC2 | IOREGC | D1REGC1 | D2REGC1 | D3REGC1 | LPREGC1 | LPREGC2 | MBCC1 | MBCC2 | MBCC3
  | MBCS1 | BBCC | ADCC1 | ADCC2 | ADCS1 | ADCS2 | ADCS3 | ACDC1 | BVMC | PWMC1 | LEDC1 | LEDC2
  | GPOC1 | GPOC2 | GPOC3 | GPOC4 | GPOC5
  deriving DecidableEq, Repr

namespace Reg

/-- In the order of their numbers, from 0. -/
def all : List Reg :=
  [.ID, .OOCS, .INT1, .INT2, .INT3, .INT1M, .INT2M, .INT3M, .OOCC1, .OOCC2, .RTCSC, .RTCMN,
   .RTCHR, .RTCWD, .RTCDT, .RTCMT, .RTCYR, .RTCSCA, .RTCMNA, .RTCHRA, .RTCWDA, .RTCDTA, .RTCMTA,
   .RTCYRA, .PSSC, .PWROKM, .PWROKS, .DCDC1, .DCDC2, .DCDC3, .DCDC4, .DCDEC1, .DCDEC2, .DCUDC1,
   .DCUDC2, .IOREGC, .D1REGC1, .D2REGC1, .D3REGC1, .LPREGC1, .LPREGC2, .MBCC1, .MBCC2, .MBCC3,
   .MBCS1, .BBCC, .ADCC1, .ADCC2, .ADCS1, .ADCS2, .ADCS3, .ACDC1, .BVMC, .PWMC1, .LEDC1, .LEDC2,
   .GPOC1, .GPOC2, .GPOC3, .GPOC4, .GPOC5]

def names : List String :=
  ["ID", "OOCS", "INT1", "INT2", "INT3", "INT1M", "INT2M", "INT3M", "OOCC1", "OOCC2", "RTCSC",
   "RTCMN", "RTCHR", "RTCWD", "RTCDT", "RTCMT", "RTCYR", "RTCSCA", "RTCMNA", "RTCHRA", "RTCWDA",
   "RTCDTA", "RTCMTA", "RTCYRA", "PSSC", "PWROKM", "PWROKS", "DCDC1", "DCDC2", "DCDC3", "DCDC4",
   "DCDEC1", "DCDEC2", "DCUDC1", "DCUDC2", "IOREGC", "D1REGC1", "D2REGC1", "D3REGC1", "LPREGC1",
   "LPREGC2", "MBCC1", "MBCC2", "MBCC3", "MBCS1", "BBCC", "ADCC1", "ADCC2", "ADCS1", "ADCS2",
   "ADCS3", "ACDC1", "BVMC", "PWMC1", "LEDC1", "LEDC2", "GPOC1", "GPOC2", "GPOC3", "GPOC4",
   "GPOC5"]

def tryFrom (n : U8) : Option Reg := all[n.toNat]?

end Reg
end Pcf5060x

structure Pcf5060xImpl where
  intMask : Vector U8 3 := .replicate 3 0
  oocc1 : U8 := 0
  oocc2 : U8 := 0
  lpregc1 : U8 := 0
  dxregc1 : Vector U8 3 := .replicate 3 0
  dcdcx : Vector U8 4 := .replicate 4 0
  mbcc2 : U8 := 0
  rtcAlarm : Vector U8 7 := .replicate 7 0
  bvmc : U8 := 0
  gp0c1 : U8 := 0x04
  adcc2 : U8 := 0
  deriving DecidableEq, Repr

namespace Pcf5060xImpl

def dec2bcd (x : U8) : U8 := ((x / 10) <<< 4) ||| (x % 10)

def getCurrentTime (s : Pcf5060xImpl) (now : LocalTime) (reg : Pcf5060x.Reg) :
    Access Pcf5060xImpl U8 :=
  let bcd (val : Nat) : Access Pcf5060xImpl U8 := .ok s (dec2bcd (.ofNat 8 val))
  match reg with
  | .RTCSC => bcd now.second
  | .RTCMN => bcd now.minute
  | .RTCHR => bcd now.hour
  | .RTCWD => bcd ((now.weekday + 1) % 8)
  | .RTCDT => bcd now.day
  | .RTCMT => bcd now.month
  | .RTCYR => bcd (now.year % 100)
  | _ => .panic "internal error: entered unreachable code: invalid reg passed to get_current_time"

/-- The clock cannot be set yet. -/
def setCurrentTime (s : Pcf5060xImpl) (_reg : Pcf5060x.Reg) : Access Pcf5060xImpl Unit :=
  .raise s (.stubWrite .info)

/-- The battery and ADCIN1 are at about 4.0V, the other inputs at nothing. -/
def adcdat1 (s : Pcf5060xImpl) : U32 :=
  match s.adcc2.getBits 1 4 with
  | 0b0000 | 0b0001 | 0b0010 | 0b0011 => 682
  | _ => 0

def getAdcReadout (s : Pcf5060xImpl) (reg : Pcf5060x.Reg) : Access Pcf5060xImpl U8 :=
  let adcrdy : U32 := 0x80
  let adcdat2 : U32 := 0
  match reg with
  | .ADCS1 => .raise s (.stubRead .info ((s.adcdat1 >>> 2) &&& 0xff))
  | .ADCS2 => .raise s (.stubRead .info (adcrdy ||| (s.adcdat1 &&& 0x3)))
  | .ADCS3 => .raise s (.stubRead .info ((adcdat2 >>> 2) &&& 0xff))
  | _ => .raise s .unimplemented

def read (s : Pcf5060xImpl) (now : LocalTime) (reg : Pcf5060x.Reg) : Access Pcf5060xImpl U8 :=
  match reg with
  | .ID => .raise s (.stubRead .info 0)
  | .OOCC1 => .raise s (.stubRead .info (s.oocc1.setWidth 32))
  | .OOCC2 => .raise s (.stubRead .info (s.oocc2.setWidth 32))
  | .LPREGC1 => .ok s s.lpregc1
  | .D1REGC1 => .ok s s.dxregc1[0]
  | .D2REGC1 => .ok s s.dxregc1[1]
  | .D3REGC1 => .ok s s.dxregc1[2]
  | .DCDC1 => .ok s s.dcdcx[0]
  | .DCDC2 => .ok s s.dcdcx[1]
  | .DCDC3 => .ok s s.dcdcx[2]
  | .DCDC4 => .ok s s.dcdcx[3]
  | .MBCC2 => .raise s (.stubRead .info (s.mbcc2.setWidth 32))
  | .INT1 | .INT2 | .INT3 => .raise s (.stubRead .trace 0)
  | .INT1M => .ok s s.intMask[0]
  | .INT2M => .ok s s.intMask[1]
  | .INT3M => .ok s s.intMask[2]
  | .RTCSC | .RTCMN | .RTCHR | .RTCWD | .RTCDT | .RTCMT | .RTCYR => s.getCurrentTime now reg
  | .RTCSCA => .ok s s.rtcAlarm[0]
  | .RTCMNA => .ok s s.rtcAlarm[1]
  | .RTCHRA => .ok s s.rtcAlarm[2]
  | .RTCWDA => .ok s s.rtcAlarm[3]
  | .RTCDTA => .ok s s.rtcAlarm[4]
  | .RTCMTA => .ok s s.rtcAlarm[5]
  | .RTCYRA => .ok s s.rtcAlarm[6]
  | .ADCC2 => .ok s s.adcc2
  | .ADCS1 | .ADCS2 | .ADCS3 => s.getAdcReadout reg
  | .BVMC => .ok s s.bvmc
  | .GPOC1 => .ok s s.gp0c1
  | _ => .raise s .unimplemented

def write (s : Pcf5060xImpl) (reg : Pcf5060x.Reg) (data : U8) : Access Pcf5060xImpl Unit :=
  match reg with
  | .ID => .raise s .invalidAccess
  | .OOCC1 => .raise { s with oocc1 := data } (.stubWrite .info)
  | .OOCC2 => .raise { s with oocc2 := data } (.stubWrite .info)
  | .LPREGC1 => .ok { s with lpregc1 := data } ()
  | .D1REGC1 => .ok { s with dxregc1 := s.dxregc1.set 0 data } ()
  | .D2REGC1 => .ok { s with dxregc1 := s.dxregc1.set 1 data } ()
  | .D3REGC1 => .ok { s with dxregc1 := s.dxregc1.set 2 data } ()
  | .DCDC1 => .ok { s with dcdcx := s.dcdcx.set 0 data } ()
  | .DCDC2 => .ok { s with dcdcx := s.dcdcx.set 1 data } ()
  | .DCDC3 => .ok { s with dcdcx := s.dcdcx.set 2 data } ()
  | .DCDC4 => .ok { s with dcdcx := s.dcdcx.set 3 data } ()
  | .MBCC2 => .raise { s with mbcc2 := data } (.stubWrite .info)
  | .INT1 | .INT2 | .INT3 => .raise s .invalidAccess
  | .INT1M => .ok { s with intMask := s.intMask.set 0 data } ()
  | .INT2M => .ok { s with intMask := s.intMask.set 1 data } ()
  | .INT3M => .ok { s with intMask := s.intMask.set 2 data } ()
  | .RTCSC | .RTCMN | .RTCHR | .RTCWD | .RTCDT | .RTCMT | .RTCYR => s.setCurrentTime reg
  | .RTCSCA => .ok { s with rtcAlarm := s.rtcAlarm.set 0 data } ()
  | .RTCMNA => .ok { s with rtcAlarm := s.rtcAlarm.set 1 data } ()
  | .RTCHRA => .ok { s with rtcAlarm := s.rtcAlarm.set 2 data } ()
  | .RTCWDA => .ok { s with rtcAlarm := s.rtcAlarm.set 3 data } ()
  | .RTCDTA => .ok { s with rtcAlarm := s.rtcAlarm.set 4 data } ()
  | .RTCMTA => .ok { s with rtcAlarm := s.rtcAlarm.set 5 data } ()
  | .RTCYRA => .ok { s with rtcAlarm := s.rtcAlarm.set 6 data } ()
  | .ADCC2 => .ok { s with adcc2 := data } ()
  | .ADCS1 | .ADCS2 | .ADCS3 => .raise s .invalidAccess
  | .BVMC => .ok { s with bvmc := data } ()
  | .GPOC1 => .ok { s with gp0c1 := data } ()
  | _ => .raise s .unimplemented

end Pcf5060xImpl

structure Pcf5060x where
  lastOpWasWrite : Bool := false
  register : Option U8 := none
  inner : Pcf5060xImpl := {}
  deriving DecidableEq, Repr

namespace Pcf5060x

def invalidRegister : MemException := .fatal "invalid register"

/-- The pointer moves on before it is known whether there is such a register. -/
def next (s : Pcf5060x) (reg_ : U8) {α : Type}
    (op : Pcf5060xImpl → Reg → Access Pcf5060xImpl α) : Access Pcf5060x α :=
  if reg_ = 0xff then .panic overflow
  else
    let s := { s with register := some (reg_ + 1) }
    match Reg.tryFrom reg_ with
    | none => .raise s invalidRegister
    | some reg => (op s.inner reg).zoom fun inner => { s with inner }

def read (s : Pcf5060x) (now : LocalTime) : Access Pcf5060x U8 :=
  let s := { s with lastOpWasWrite := false }
  match s.register with
  | none => .raise s (.fatal "no register specified for read")
  | some reg_ => s.next reg_ fun inner reg => inner.read now reg

def write (s : Pcf5060x) (data : U8) : Access Pcf5060x Unit :=
  let s := if !s.lastOpWasWrite then { s with register := none } else s
  let s := { s with lastOpWasWrite := true }
  match s.register with
  | none => .ok { s with register := some data } ()
  | some reg_ => s.next reg_ fun inner reg => inner.write reg data

def writeDone (s : Pcf5060x) : Access Pcf5060x Unit := .ok { s with lastOpWasWrite := false } ()

/-- The pointer has already moved on. -/
def probe (s : Pcf5060x) : Access Pcf5060x String :=
  match s.register with
  | none => .ok s "<no register selected>"
  | some reg =>
    if reg = 0 then .panic underflow else .ok s (Reg.names[(reg - 1).toNat]?.getD "<invalid>")

instance : I2CDevice Pcf5060x where
  read := read
  write := write
  writeDone := writeDone
  kind := "Pcf5060x"
  probe := probe

end Pcf5060x
end Clicky
