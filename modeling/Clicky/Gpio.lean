import Clicky.Memory
import Clicky.Signal
import Clicky.Lib.Turns
import Mathlib.Data.List.FinRange
import Mathlib.Data.List.Induction

/-! GPIO ports. A port drives its output lines, samples its input lines and reports edges
on an interrupt line, which the four ports of a block share. -/
namespace Clicky

/-- The lines a GPIO port can reach. A handle is the number of its group, so clones of a sender
are equal. -/
structure Wires where
  irq : Nat → Line
  gpio : Nat → Line

namespace Wires

def level (w : Wires) (line : Nat) : Bool := (w.gpio line).asserted

def callIrq (w : Wires) (line : Nat) (c : Call) : Wires :=
  { w with irq := fun k => if k = line then (w.irq line).call c else w.irq k }

def callGpio (w : Wires) (line : Nat) (c : Call) : Wires :=
  { w with gpio := fun k => if k = line then (w.gpio line).call c else w.gpio k }

@[simp] theorem callIrq_level (w : Wires) (line : Nat) (c : Call) :
    (w.callIrq line c).level = w.level := rfl

@[simp] theorem callIrq_asserted (w : Wires) (line : Nat) (c : Call) :
    ((w.callIrq line c).irq line).asserted = c.level := by
  simp [callIrq]

@[simp] theorem callGpio_level (w : Wires) (line k : Nat) (c : Call) :
    (w.callGpio line c).level k = if k = line then c.level else w.level k := by
  unfold callGpio level
  by_cases here : k = line <;> simp [here]

end Wires

structure GpioPort where
  label : String
  irq : Nat
  inputs : Fin 8 → Option Nat := fun _ => none
  outputs : Fin 8 → Option Nat := fun _ => none
  enable : U8 := 0
  outputEnable : U8 := 0
  outputVal : U8 := 0
  inputVal : U8 := 0
  interruptStatus : U8 := 0
  interruptEnable : U8 := 0
  interruptLevel : U8 := 0

namespace GpioPort

def new (irq : Nat) (label : String) : GpioPort := { label, irq }

def registerIn (port : GpioPort) (idx : Fin 8) (line : Nat) : GpioPort :=
  { port with inputs := fun i => if i = idx then some line else port.inputs i }

def registerOut (port : GpioPort) (idx : Fin 8) (line : Nat) : GpioPort :=
  { port with outputs := fun i => if i = idx then some line else port.outputs i }

/-- One turn of the first loop of `update`. A set bit of `output_val` pulls the line low. -/
def driveOutput (port : GpioPort) (w : Wires) (i : Fin 8) : Wires :=
  if !port.enable.getBit i || !port.outputEnable.getBit i then w
  else match port.outputs i with
    | none => w
    | some line => w.callGpio line (if port.outputVal.getBit i then .clear else .assert)

/-- Whether a pin reports the change from one sample to the next. -/
def triggers (rising prevLevel level : Bool) : Bool :=
  if rising then !prevLevel && level else prevLevel && !level

/-- One turn of the second loop of `update`. -/
def sampleInput (level : Nat → Bool) (port : GpioPort) (i : Fin 8) : GpioPort :=
  if !port.enable.getBit i then port
  else match port.inputs i with
    | none => port
    | some line =>
      let prevLevel := port.inputVal.getBit i
      { port with
        inputVal := port.inputVal.setBit i (level line)
        interruptStatus := port.interruptStatus.setBit i
          (triggers (port.interruptLevel.getBit i) prevLevel (level line)) }

def updateOutputs (port : GpioPort) (w : Wires) : Wires :=
  (List.finRange 8).foldl port.driveOutput w

def updateInputs (port : GpioPort) (level : Nat → Bool) : GpioPort :=
  (List.finRange 8).foldl (sampleInput level) port

/-- Some interrupt of the port is both set and enabled. -/
def pending (port : GpioPort) : Bool := port.interruptStatus &&& port.interruptEnable ≠ 0

def update (port : GpioPort) (w : Wires) : GpioPort × Wires :=
  let w := port.updateOutputs w
  let port := port.updateInputs w.level
  (port, w.callIrq port.irq (if port.pending then .assert else .clear))

/-- The line that an update samples for a pin, if it samples one. -/
def sampled (port : GpioPort) (i : Fin 8) : Option Nat :=
  if port.enable.getBit i then port.inputs i else none

/-- What an update makes of the status bit of a pin. -/
def latched (port : GpioPort) (level : Nat → Bool) (i : Fin 8) : Bool :=
  match port.sampled i with
  | none => port.interruptStatus.getBit i
  | some line => triggers (port.interruptLevel.getBit i) (port.inputVal.getBit i) (level line)

def drives (port : GpioPort) (line : Nat) (i : Fin 8) : Bool :=
  port.enable.getBit i && port.outputEnable.getBit i && port.outputs i == some line

/-- The levels after the port has driven its outputs: of those on one line the last one
counts. -/
def driven (port : GpioPort) (level : Nat → Bool) (line : Nat) : Bool :=
  match (List.finRange 8).reverse.find? (port.drives line) with
  | none => level line
  | some i => !port.outputVal.getBit i

theorem sampleInput_none {port : GpioPort} {i : Fin 8} (level : Nat → Bool)
    (idle : port.sampled i = none) : sampleInput level port i = port := by
  unfold sampled at idle
  unfold sampleInput
  cases on : port.enable.getBit i with
  | false => rfl
  | true =>
    simp only [on, if_true] at idle
    simp [idle]

theorem sampleInput_some {port : GpioPort} {i : Fin 8} {line : Nat} (level : Nat → Bool)
    (live : port.sampled i = some line) :
    sampleInput level port i =
      { port with
        inputVal := port.inputVal.setBit i (level line)
        interruptStatus := port.interruptStatus.setBit i (port.latched level i) } := by
  unfold latched
  rw [live]
  unfold sampled at live
  unfold sampleInput
  cases on : port.enable.getBit i with
  | false => simp [on] at live
  | true =>
    simp only [on, if_true] at live
    simp [live]

/-- Sampling touches nothing but the input value and the status. -/
theorem foldl_sampleInput_eq (level : Nat → Bool) (is : List (Fin 8)) (port : GpioPort) :
    is.foldl (sampleInput level) port =
      { port with
        inputVal := (is.foldl (sampleInput level) port).inputVal
        interruptStatus := (is.foldl (sampleInput level) port).interruptStatus } := by
  induction is generalizing port with
  | nil => rfl
  | cons i is ih =>
    rw [List.foldl_cons, ih]
    cases live : port.sampled i with
    | none => rw [sampleInput_none level live]
    | some line => rw [sampleInput_some level live]

theorem updateInputs_eq (port : GpioPort) (level : Nat → Bool) :
    port.updateInputs level =
      { port with
        inputVal := (port.updateInputs level).inputVal
        interruptStatus := (port.updateInputs level).interruptStatus } :=
  foldl_sampleInput_eq level _ port

theorem sampled_sampleInput (level : Nat → Bool) (port : GpioPort) (i j : Fin 8) :
    (sampleInput level port i).sampled j = port.sampled j := by
  cases live : port.sampled i with
  | none => rw [sampleInput_none level live]
  | some line =>
    rw [sampleInput_some level live]
    rfl

/-- The turn of a pin leaves alone what the registers hold for the others. -/
theorem sampleInput_of_ne {i j : Fin 8} (apart : i ≠ j) (level : Nat → Bool) (port : GpioPort) :
    (sampleInput level port i).interruptStatus.getBit j = port.interruptStatus.getBit j ∧
      (sampleInput level port i).inputVal.getBit j = port.inputVal.getBit j ∧
      (sampleInput level port i).latched level j = port.latched level j := by
  have other : (i : Nat) ≠ j := fun same => apart (Fin.ext same)
  cases live : port.sampled i with
  | none =>
    rw [sampleInput_none level live]
    exact ⟨rfl, rfl, rfl⟩
  | some line =>
    rw [sampleInput_some level live]
    simp [latched, sampled, other]

/-- The level that a pin samples, if it samples one. -/
def sensed (port : GpioPort) (level : Nat → Bool) (i : Fin 8) : Bool :=
  match port.sampled i with
  | none => port.inputVal.getBit i
  | some line => level line

theorem sampleInput_puts (level : Nat → Bool) (port : GpioPort) (i : Fin 8) :
    (sampleInput level port i).interruptStatus.getBit i = port.latched level i ∧
      (sampleInput level port i).inputVal.getBit i = port.sensed level i := by
  cases live : port.sampled i with
  | none =>
    rw [sampleInput_none level live, latched, sensed, live]
    exact ⟨rfl, rfl⟩
  | some line => simp [sampleInput_some level live, sensed, live]

@[simp] theorem updateInputs_status (port : GpioPort) (level : Nat → Bool) (i : Fin 8) :
    (port.updateInputs level).interruptStatus.getBit i = port.latched level i := by
  refine (List.foldl_turns (fun p k => p.interruptStatus.getBit k) (fun p k => p.latched level k)
    (fun p k => (sampleInput_puts level p k).1) ?_ (List.nodup_finRange 8) port i).1
    (List.mem_finRange i)
  intro p k j apart
  have kept := sampleInput_of_ne apart level p
  exact ⟨kept.1, kept.2.2⟩

@[simp] theorem updateInputs_inputVal (port : GpioPort) (level : Nat → Bool) (i : Fin 8) :
    (port.updateInputs level).inputVal.getBit i = port.sensed level i := by
  refine (List.foldl_turns (fun p k => p.inputVal.getBit k) (fun p k => p.sensed level k)
    (fun p k => (sampleInput_puts level p k).2) ?_ (List.nodup_finRange 8) port i).1
    (List.mem_finRange i)
  intro p k j apart
  have kept := sampleInput_of_ne apart level p
  refine ⟨kept.2.1, ?_⟩
  rw [sensed, sensed, sampled_sampleInput, kept.2.1]

@[simp] theorem updateInputs_interruptEnable (port : GpioPort) (level : Nat → Bool) :
    (port.updateInputs level).interruptEnable = port.interruptEnable := by
  rw [updateInputs_eq]

@[simp] theorem updateInputs_irq (port : GpioPort) (level : Nat → Bool) :
    (port.updateInputs level).irq = port.irq := by
  rw [updateInputs_eq]

theorem driveOutput_level (port : GpioPort) (w : Wires) (i : Fin 8) (line : Nat) :
    (port.driveOutput w i).level line =
      if port.drives line i then !port.outputVal.getBit i else w.level line := by
  unfold driveOutput drives
  by_cases off : (!port.enable.getBit i || !port.outputEnable.getBit i) = true
  · rw [if_pos off]
    cases on : port.enable.getBit i <;> simp_all
  · have on : port.enable.getBit i = true ∧ port.outputEnable.getBit i = true := by
      simpa using off
    rw [if_neg off, on.1, on.2]
    cases out : port.outputs i with
    | none => simp
    | some k =>
      by_cases same : line = k
      · cases port.outputVal.getBit i <;> simp [same, Call.level]
      · simp [same, Ne.symm same]

theorem foldl_driveOutput_level (port : GpioPort) (w : Wires) (is : List (Fin 8)) (line : Nat) :
    (is.foldl port.driveOutput w).level line =
      match is.reverse.find? (port.drives line) with
      | none => w.level line
      | some i => !port.outputVal.getBit i := by
  induction is using List.reverseRecOn with
  | nil => rfl
  | append_singleton is i ih =>
    rw [List.foldl_append, List.foldl_cons, List.foldl_nil, driveOutput_level, ih,
      List.reverse_append, List.reverse_singleton, List.singleton_append, List.find?_cons]
    cases port.drives line i <;> rfl

@[simp] theorem updateOutputs_level (port : GpioPort) (w : Wires) :
    (port.updateOutputs w).level = port.driven w.level :=
  funext fun line => foldl_driveOutput_level port w _ line

def r32 (port : GpioPort) (offset : U32) : Except MemException U32 :=
  match offset with
  | 0x00 => .ok (port.enable.setWidth 32)
  | 0x10 => .ok (port.outputEnable.setWidth 32)
  | 0x20 => .ok (port.outputVal.setWidth 32)
  | 0x30 => .ok (port.inputVal.setWidth 32)
  | 0x40 => .ok (port.interruptStatus.setWidth 32)
  | 0x50 => .ok (port.interruptEnable.setWidth 32)
  | 0x60 => .ok (port.interruptLevel.setWidth 32)
  | 0x70 => .error .invalidAccess
  | _ => .error .unexpected

theorem pending_iff (port : GpioPort) : port.pending = true ↔
    ∃ i : Fin 8, port.interruptEnable.getBit i = true ∧ port.interruptStatus.getBit i = true := by
  rw [pending, decide_eq_true_eq]
  refine (BitVec.ne_zero_iff_getBit _).trans ?_
  simp only [BitVec.getBit_and, Bool.and_eq_true]
  constructor
  · rintro ⟨i, inside, status, enabled⟩
    exact ⟨⟨i, inside⟩, enabled, status⟩
  · rintro ⟨i, enabled, status⟩
    exact ⟨i, i.isLt, status, enabled⟩

/-- The register that a write changes. The interface has 8 bits. -/
def assign (port : GpioPort) (offset val : U32) : Except MemException GpioPort :=
  let val : U8 := val.setWidth 8
  match offset with
  | 0x00 => .ok { port with enable := val }
  | 0x10 => .ok { port with outputEnable := val }
  | 0x20 => .ok { port with outputVal := val }
  | 0x30 => .error .invalidAccess
  | 0x40 => .error .invalidAccess
  | 0x50 => .ok { port with interruptEnable := val }
  | 0x60 => .ok { port with interruptLevel := val }
  | 0x70 => .ok { port with interruptStatus := port.interruptStatus &&& ~~~val }
  | _ => .error .unexpected

def w32 (port : GpioPort) (w : Wires) (offset val : U32) : Except MemException (GpioPort × Wires) :=
  (port.assign offset val).map fun port => port.update w

end GpioPort

structure GpioBlock where
  port : Fin 4 → GpioPort

namespace GpioBlock

def new (irq : Nat) (labels : Fin 4 → String) : GpioBlock :=
  { port := fun p => .new irq (labels p) }

def putPort (b : GpioBlock) (p : Fin 4) (port : GpioPort) : GpioBlock :=
  { port := fun q => if q = p then port else b.port q }

@[simp] theorem putPort_port (b : GpioBlock) (p q : Fin 4) (port : GpioPort) :
    (b.putPort p port).port q = if q = p then port else b.port q := rfl

def noPin : String := "idx must be less than 32"

/-- Pins are numbered through the ports. -/
def pinPort (idx : Fin 32) : Fin 4 := ⟨idx / 8, by omega⟩
def pinBit (idx : Fin 32) : Fin 8 := ⟨idx % 8, by omega⟩

def registerIn (b : GpioBlock) (idx line : Nat) : Outcome Empty GpioBlock Unit :=
  if inside : idx < 32 then
    let pin : Fin 32 := ⟨idx, inside⟩
    .ok (b.putPort (pinPort pin) ((b.port (pinPort pin)).registerIn (pinBit pin) line)) ()
  else .panic noPin

def registerOut (b : GpioBlock) (idx line : Nat) : Outcome Empty GpioBlock Unit :=
  if inside : idx < 32 then
    let pin : Fin 32 := ⟨idx, inside⟩
    .ok (b.putPort (pinPort pin) ((b.port (pinPort pin)).registerOut (pinBit pin) line)) ()
  else .panic noPin

def portNo (offset : U32) : Fin 4 := Fin.ofNat 4 (offset.toNat / 4)

/-- The offset within the port. It does not underflow, as the port number is the last digit of
`offset / 4`. -/
def portOffset (offset : U32) : U32 := offset - 4 * BitVec.ofNat 32 (portNo offset)

end GpioBlock

/-- A block and the lines around it. -/
structure GpioBus where
  block : GpioBlock
  wires : Wires

namespace GpioBus

def putPort (s : GpioBus) (p : Fin 4) (port : GpioPort × Wires) : GpioBus :=
  { block := s.block.putPort p port.1, wires := port.2 }

def updatePort (s : GpioBus) (p : Fin 4) : GpioBus :=
  s.putPort p ((s.block.port p).update s.wires)

def update (s : GpioBus) : GpioBus := (List.finRange 4).foldl updatePort s

def r32 (s : GpioBus) (offset : U32) : Access GpioBus U32 :=
  .done s ((s.block.port (GpioBlock.portNo offset)).r32 (GpioBlock.portOffset offset))

def w32 (s : GpioBus) (offset val : U32) : Access GpioBus Unit :=
  let p := GpioBlock.portNo offset
  match (s.block.port p).w32 s.wires (GpioBlock.portOffset offset) val with
  | .ok port => .ok (s.putPort p port) ()
  | .error e => .raise s e

instance : Memory GpioBus where
  r32 := r32
  w32 := w32

/-- A write through `GpioBlockAtomicMirror`. The accesses to the block are the byte ones. -/
def mirrorW32 (s : GpioBus) (offset val : U32) : Access GpioBus Unit :=
  let mask : U8 := (val.getBits 8 15).setWidth 8
  let val : U8 := (val.getBits 0 7).setWidth 8
  if offset ≤ 0x7f then
    (Memory.r8 s offset).bind fun s oldVal =>
      Memory.w8 s offset ((oldVal &&& ~~~mask) ||| (val &&& mask))
  else .raise s .unexpected

end GpioBus
end Clicky
