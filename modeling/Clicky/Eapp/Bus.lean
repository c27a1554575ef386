import Clicky.Ram

/-! What a game sees on its bus: its image, the work RAM, and a window of hardware registers with
the framebuffer in it. -/
namespace Clicky

def fileVmaBase : U32 := 0x18000000
def workRamBase : U32 := 0x10000000
def workRamSize : Nat := 64 * 1024 * 1024
def hwStubBase : U32 := 0x14000000
def hwStubSize : Nat := 0x4000000
def dmaFbSize : Nat := 320 * 240 * 2

def addOverflow : String := "attempt to add with overflow"

def saturatingAdd (a b : U32) : U32 := if a.toNat + b.toNat < 2 ^ 32 then a + b else 0xffffffff

structure WatchHit where
  addr : U32
  val : U32
  pc : U32
  deriving DecidableEq, Repr

/-- The two counters are host words of 64 bits. -/
structure EappBus (imageSize : Nat) where
  image : Ram imageSize
  workRam : Ram workRamSize
  dmaFramebuf : Ram dmaFbSize
  hwFbWriteCount : BitVec 64
  hwFbWriteMin : U32
  hwFbWriteMax : U32
  hwDmaFrame : BitVec 64
  hwDmaDirty : Bool
  watch : Option (U32 × U32)
  pendingPc : U32
  watchLog : List WatchHit

/-- The bus of a game that was just loaded. -/
def EappBus.start {imageSize : Nat} (image : Ram imageSize) : EappBus imageSize :=
  { image
    workRam := ⟨List.replicate workRamSize 0, List.length_replicate⟩
    dmaFramebuf := Ram.new dmaFbSize
    hwFbWriteCount := 0
    hwFbWriteMin := 0xffffffff
    hwFbWriteMax := 0
    hwDmaFrame := 0
    hwDmaDirty := false
    watch := none
    pendingPc := 0
    watchLog := [] }

def rangesOverlap (accessStart accessLen watchStart watchEnd : U32) : Bool :=
  let accessEnd := saturatingAdd accessStart accessLen
  decide (accessStart < watchEnd) && decide (watchStart < accessEnd)

namespace EappBus

variable {imageSize : Nat}

/-- The length of the image is cut to 32 bits. -/
def imageLen (_ : EappBus imageSize) : U32 := BitVec.ofNat 32 imageSize

def putImage (b : EappBus imageSize) (image : Ram imageSize) : EappBus imageSize :=
  { b with image }

def putWorkRam (b : EappBus imageSize) (workRam : Ram workRamSize) : EappBus imageSize :=
  { b with workRam }

def putFramebuf (b : EappBus imageSize) (dmaFramebuf : Ram dmaFbSize) : EappBus imageSize :=
  { b with dmaFramebuf }

def read (width : Width) (b : EappBus imageSize) (offset : U32) :
    Access (EappBus imageSize) (BitVec width.bits) :=
  if fileVmaBase ≤ offset ∧ offset - fileVmaBase < b.imageLen then
    (b.image.read width (offset - fileVmaBase)).zoom b.putImage
  else if workRamBase ≤ offset ∧ offset - workRamBase < BitVec.ofNat 32 workRamSize then
    (b.workRam.read width (offset - workRamBase)).zoom b.putWorkRam
  else if hwStubBase ≤ offset ∧ offset - hwStubBase < BitVec.ofNat 32 hwStubSize then
    let rel := offset - hwStubBase
    if rel < 0x20000 then .ok b 1
    else
      let fbOff := rel - 0x20000
      if fbOff.toNat + width.bytes ≤ dmaFbSize then
        ((b.dmaFramebuf.bulkRead fbOff width.bytes).map (BitVec.ofLeBytes width.bits)).zoom
          b.putFramebuf
      else .ok b 0
  else .raise b .unexpected

/-- At most 4096 hits are kept. -/
def logWrite (b : EappBus imageSize) (offset len val : U32) : EappBus imageSize :=
  match b.watch with
  | some (start, stop) =>
    if rangesOverlap offset len start stop then
      let hit : WatchHit := { addr := offset, val, pc := b.pendingPc }
      { b with watchLog := (b.watchLog ++ [hit]).take 4096 }
    else b
  | none => b

/-- The books kept on writes to the framebuffer. Narrow ones only set the dirty flag. -/
def framebufWritten (width : Width) (b : EappBus imageSize) (fbOff : U32) :
    Access (EappBus imageSize) Unit :=
  match width with
  | .byte | .half => .ok { b with hwDmaDirty := true } ()
  | .word =>
    if b.hwFbWriteCount = BitVec.allOnes 64 then .panic addOverflow
    else
      let b := { b with
        hwFbWriteCount := b.hwFbWriteCount + 1
        hwDmaDirty := true
        hwFbWriteMin := if fbOff < b.hwFbWriteMin then fbOff else b.hwFbWriteMin
        hwFbWriteMax := if b.hwFbWriteMax < fbOff + 4 then fbOff + 4 else b.hwFbWriteMax }
      if fbOff = 0 ∧ 1 < b.hwFbWriteCount then
        if b.hwDmaFrame = BitVec.allOnes 64 then .panic addOverflow
        else .ok { b with hwDmaFrame := b.hwDmaFrame + 1 } ()
      else .ok b ()

def store (width : Width) (b : EappBus imageSize) (offset : U32) (val : BitVec width.bits) :
    Access (EappBus imageSize) Unit :=
  if fileVmaBase ≤ offset ∧ offset - fileVmaBase < b.imageLen then
    (b.image.write width (offset - fileVmaBase) val).zoom b.putImage
  else if workRamBase ≤ offset ∧ offset - workRamBase < BitVec.ofNat 32 workRamSize then
    (b.workRam.write width (offset - workRamBase) val).zoom b.putWorkRam
  else if hwStubBase ≤ offset ∧ offset - hwStubBase < BitVec.ofNat 32 hwStubSize then
    let rel := offset - hwStubBase
    if rel < 0x20000 then .ok b ()
    else
      let fbOff := rel - 0x20000
      if fbOff.toNat + width.bytes ≤ dmaFbSize then
        ((b.dmaFramebuf.bulkWrite fbOff (val.toLeBytes width.bytes)).zoom b.putFramebuf).bind
          fun b _ => b.framebufWritten width fbOff
      else .ok b ()
  else .raise b .unexpected

/-- The watch sees every write, also one that goes nowhere. -/
def write (width : Width) (b : EappBus imageSize) (offset : U32) (val : BitVec width.bits) :
    Access (EappBus imageSize) Unit :=
  (b.logWrite offset (BitVec.ofNat 32 width.bytes) (val.setWidth 32)).store width offset val

def r8 (b : EappBus imageSize) (offset : U32) : Access (EappBus imageSize) U8 :=
  b.read .byte offset
def r16 (b : EappBus imageSize) (offset : U32) : Access (EappBus imageSize) U16 :=
  b.read .half offset
def r32 (b : EappBus imageSize) (offset : U32) : Access (EappBus imageSize) U32 :=
  b.read .word offset
def w8 (b : EappBus imageSize) (offset : U32) (val : U8) : Access (EappBus imageSize) Unit :=
  b.write .byte offset val
def w16 (b : EappBus imageSize) (offset : U32) (val : U16) : Access (EappBus imageSize) Unit :=
  b.write .half offset val
def w32 (b : EappBus imageSize) (offset : U32) (val : U32) : Access (EappBus imageSize) Unit :=
  b.write .word offset val

instance : Memory (EappBus imageSize) where
  r8 := r8
  r16 := r16
  r32 := r32
  w8 := w8
  w16 := w16
  w32 := w32
  x16 := r16
  x32 := r32

end EappBus
end Clicky
