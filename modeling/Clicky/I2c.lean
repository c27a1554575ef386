import Clicky.Pcf5060x
import Clicky.Lib.LittleEndian

/-! The I2C controller: its registers, and the transactions of up to four bytes that are sent by
a write to Control. -/
namespace Clicky

inductive I2COp where
  | read | write
  deriving DecidableEq, Repr

namespace I2COp

def intoBit : I2COp → Bool
  | .read => true
  | .write => false

def fromBit (bit : Bool) : I2COp := if bit then .read else .write

def kind : I2COp → MemAccessKind
  | .read => .read
  | .write => .write

end I2COp

structure I2CTransactionCfg where
  addrOp : Option I2COp := none
  addr : Option U8 := none
  op : Option I2COp := none
  len : Option U8 := none
  deriving DecidableEq, Repr

/-- `len` is one less than the number of bytes. -/
structure I2CTransaction where
  op : I2COp
  addr : U8
  len : U8
  deriving DecidableEq, Repr

def I2CTransactionCfg.takeTxn (cfg : I2CTransactionCfg) : Except MemException I2CTransaction :=
  if cfg.addrOp ≠ cfg.op then
    .error (.fatal "mismatch between op type in control (bit 5) and addr (bit 0)")
  else match cfg.op, cfg.addr, cfg.len with
    | some op, some addr, some len => .ok { op, addr, len }
    | none, _, _ => .error (.fatal "did not specify op")
    | some _, none, _ => .error (.fatal "did not specify addr")
    | some _, some _, none => .error (.fatal "did not specify len")

/-- `TruncateByte` for words. -/
def truncToByte (val : U32) : Except MemException U8 :=
  if val > 0xff then
    .error (.contractViolation ">8-bit access to a 8-bit interface" .error none)
  else .ok (val.setWidth 8)

/-- The places in `data`. -/
inductive DataNo where
  | data0 | data1 | data2 | data3
  deriving DecidableEq, Repr

def DataNo.all : List DataNo := [.data0, .data1, .data2, .data3]

abbrev I2CData := DataNo → U8

namespace I2CData

def store (data : I2CData) (i : DataNo) (val : U8) : I2CData :=
  fun j => if j = i then val else data j

def toVal (data : I2CData) (len : U8) : Option MemAccessVal :=
  match len with
  | 0 => some (.u8 (data .data0))
  | 1 => some (.u16 (BitVec.ofLeBytes 16 [data .data0, data .data1]))
  | 2 => some (.u32 (BitVec.ofLeBytes 32 [data .data0, data .data1, data .data2]))
  | 3 => some (.u32 (BitVec.ofLeBytes 32 [data .data0, data .data1, data .data2, data .data3]))
  | _ => none

end I2CData

/-- The devices are at 7 bit addresses. -/
structure I2CCon (δ : Type) where
  devices : U8 → Option δ := fun _ => none
  busy : Bool := false
  txn : I2CTransactionCfg := {}
  data : I2CData := fun _ => 0

/-- What is at hand in the byte loop of `do_txn`. -/
structure ByteLoop (δ : Type) where
  device : δ
  data : I2CData
  err : Except MemException Unit := .ok ()

/-- The value of a stubbed read is passed through. -/
def MemException.passedThrough : MemException → U8
  | .stubRead _ val => val.setWidth 8
  | .contractViolation _ _ (some val) => val.setWidth 8
  | _ => 0x00

namespace I2CCon

variable {δ : Type} [I2CDevice δ]

/-- One turn of the loop. An exception does not end it, but takes the place of the one before. -/
def transfer (op : I2COp) (now : DataNo → LocalTime) (s : ByteLoop δ) (i : DataNo) :
    Outcome Empty (ByteLoop δ) Unit :=
  match op with
  | .read => match I2CDevice.read s.device (now i) with
    | .ok device val => .ok { s with device, data := s.data.store i val } ()
    | .raise device e => .ok { device, data := s.data.store i e.passedThrough, err := .error e } ()
    | .panic m => .panic m
  | .write => match I2CDevice.write s.device (s.data i) with
    | .ok device _ => .ok { s with device } ()
    | .raise device e => .ok { s with device, err := .error e } ()
    | .panic m => .panic m

def bytes (txn : I2CTransaction) : List DataNo := DataNo.all.take (txn.len.toNat + 1)

def putBack (s : I2CCon δ) (addr : U8) (loop : ByteLoop δ) : I2CCon δ :=
  { s with
    devices := fun i => if i = addr then some loop.device else s.devices i
    data := loop.data }

def doTxn (s : I2CCon δ) (now : DataNo → LocalTime) (txn : I2CTransaction) :
    Access (I2CCon δ) Unit :=
  match s.devices txn.addr with
  | some device =>
    match Outcome.forEach (transfer txn.op now) { device, data := s.data } (bytes txn) with
    | .panic m => .panic m
    | .done loop _ =>
      match txn.op with
      | .read => .done (s.putBack txn.addr loop) loop.err
      | .write =>
        ((I2CDevice.writeDone loop.device).zoom fun device =>
          s.putBack txn.addr { loop with device }).bind fun s _ => .done s loop.err
  | none => match txn.op with
    | .read => .raise s (.stubRead .debug 0)
    | .write => .raise s (.stubWrite .debug)

/-- `Probe::from_device` of the device at an address, as text. -/
def inDevice (s : I2CCon δ) (addr : U8) : Access (I2CCon δ) String :=
  match s.devices addr with
  | some device =>
    ((I2CDevice.probe device).zoom fun _ => s).map fun next => I2CDevice.kind δ ++ " > " ++ next
  | none => .ok s "<unmapped i2c device>"

/-- The exception of a transaction, with its context added. -/
def wrap (s : I2CCon δ) (txn : I2CTransaction) (e : MemException) : Access (I2CCon δ) Unit :=
  match s.data.toVal txn.len with
  | none => .panic "internal error: entered unreachable code: invalid length"
  | some val =>
    let access := { kind := txn.op.kind, offset := txn.addr.setWidth 32, val }
    (s.inDevice txn.addr).bind fun s inDevice => .raise s (.i2cException e access inDevice)

def send (s : I2CCon δ) (now : DataNo → LocalTime) (txn : I2CTransaction) :
    Access (I2CCon δ) Unit :=
  match s.doTxn now txn with
  | .ok s _ => .raise s (.stubWrite .trace)
  | .raise s e => s.wrap txn e
  | .panic m => .panic m

def control (s : I2CCon δ) (now : DataNo → LocalTime) (val : U8) : Access (I2CCon δ) Unit :=
  let s := { s with
    txn.len := some (val.getBits 1 2)
    txn.op := some (.fromBit (val.getBit 5)) }
  if val.getBit 7 then
    match s.txn.takeTxn with
    | .error e => .raise s e
    | .ok txn => send { s with txn := {} } now txn
  else .raise s (.stubWrite .trace)

def r32 (s : I2CCon δ) (offset : U32) : Access (I2CCon δ) U32 :=
  match offset with
  | 0x00 =>
    let val := ((0 : U8).setBits 1 2 (s.txn.len.getD 0)).setBit 5
      ((s.txn.op.map I2COp.intoBit).getD false)
    .raise s (.stubRead .trace (val.setWidth 32))
  | 0x04 =>
    let val := ((0 : U8).setBit 0 ((s.txn.addrOp.map I2COp.intoBit).getD false)).setBits 1 7
      (s.txn.addr.getD 0)
    .ok s (val.setWidth 32)
  | 0x0c => .ok s ((s.data .data0).setWidth 32)
  | 0x10 => .ok s ((s.data .data1).setWidth 32)
  | 0x14 => .ok s ((s.data .data2).setWidth 32)
  | 0x18 => .ok s ((s.data .data3).setWidth 32)
  | 0x1c => .ok { s with busy := !s.busy } ((BitVec.ofBool !s.busy).setWidth 32 <<< 6)
  | _ => .raise s .unexpected

def w32 (s : I2CCon δ) (now : DataNo → LocalTime) (offset val : U32) : Access (I2CCon δ) Unit :=
  match truncToByte val with
  | .error e => .raise s e
  | .ok val =>
    match offset with
    | 0x00 => s.control now val
    | 0x04 =>
      .ok { s with txn.addrOp := some (.fromBit (val.getBit 0)), txn.addr := some (val.getBits 1 7) }
        ()
    | 0x0c => .ok { s with data := s.data.store .data0 val } ()
    | 0x10 => .ok { s with data := s.data.store .data1 val } ()
    | 0x14 => .ok { s with data := s.data.store .data2 val } ()
    | 0x18 => .ok { s with data := s.data.store .data3 val } ()
    | 0x1c => .raise s .unimplemented
    | _ => .raise s .unexpected

end I2CCon
end Clicky
