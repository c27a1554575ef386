import Clicky.Gpio
import Clicky.Lib.Runs

/-! The interrupt line of a GPIO block, over runs of register accesses and changes of the input
lines. -/
namespace Clicky
open Runs

/-- An update with these levels leaves an interrupt that is set and enabled. -/
def GpioPort.Due (port : GpioPort) (level : Nat → Bool) : Prop :=
  ∃ i : Fin 8, port.interruptEnable.getBit i = true ∧ port.latched level i = true

theorem GpioPort.pending_updateInputs (port : GpioPort) (level : Nat → Bool) :
    (port.updateInputs level).pending = true ↔ port.Due level := by
  simp [pending_iff, Due]

namespace GpioBlock

/-- The levels after the ports of a list have driven their outputs, one after the other. -/
def drivenBy (b : GpioBlock) (level : Nat → Bool) (ps : List (Fin 4)) : Nat → Bool :=
  ps.foldl (fun level p => (b.port p).driven level) level

/-- The levels a port samples when the whole block is updated. -/
def levelAt (b : GpioBlock) (level : Nat → Bool) (q : Fin 4) : Nat → Bool :=
  (b.port q).driven (b.drivenBy level ((List.finRange 4).filter (· < q)))

end GpioBlock

namespace GpioBus

/-! One port, with its registers as a write may have set them, is updated in its place. -/

@[simp] theorem putPort_update_port (s : GpioBus) (p q : Fin 4) (port : GpioPort) :
    (s.putPort p (port.update s.wires)).block.port q =
      if q = p then port.updateInputs (port.driven s.wires.level) else s.block.port q := by
  simp [putPort, GpioPort.update]

@[simp] theorem putPort_update_level (s : GpioBus) (p : Fin 4) (port : GpioPort) :
    (s.putPort p (port.update s.wires)).wires.level = port.driven s.wires.level := by
  simp [putPort, GpioPort.update]

/-- The last port to be updated decides. -/
theorem putPort_update_asserted (s : GpioBus) (p : Fin 4) (port : GpioPort) :
    ((s.putPort p (port.update s.wires)).wires.irq port.irq).asserted = true ↔
      port.Due (port.driven s.wires.level) := by
  rw [← GpioPort.pending_updateInputs]
  simp only [putPort, GpioPort.update, GpioPort.updateOutputs_level, GpioPort.updateInputs_irq,
    Wires.callIrq_asserted]
  cases (port.updateInputs (port.driven s.wires.level)).pending <;> simp [Call.level]

theorem foldl_updatePort (s : GpioBus) {ps : List (Fin 4)} (once : ps.Nodup) :
    (ps.foldl updatePort s).wires.level = s.block.drivenBy s.wires.level ps ∧
      ∀ q, q ∉ ps → (ps.foldl updatePort s).block.port q = s.block.port q := by
  induction ps using List.reverseRecOn with
  | nil => exact ⟨rfl, fun _ _ => rfl⟩
  | append_singleton ps p ih =>
    have fresh : p ∉ ps := fun twice =>
      (List.nodup_append.mp once).2.2 p twice p (List.mem_singleton.mpr rfl) rfl
    obtain ⟨level, others⟩ := ih (List.nodup_append.mp once).1
    rw [List.foldl_append, List.foldl_cons, List.foldl_nil]
    constructor
    · rw [updatePort, putPort_update_level, level, others p fresh, GpioBlock.drivenBy,
        GpioBlock.drivenBy, List.foldl_append]
      rfl
    · intro q absent
      have apart : q ≠ p := fun same => absent (by simp [same])
      have earlier : q ∉ ps := fun member => absent (List.mem_append_left _ member)
      rw [updatePort, putPort_update_port, if_neg apart, others q earlier]

theorem finRange_split (q : Fin 4) : List.finRange 4 =
    (List.finRange 4).filter (· < q) ++ q :: (List.finRange 4).filter (q < ·) := by
  revert q
  decide

theorem update_port (s : GpioBus) (q : Fin 4) :
    s.update.block.port q =
      (s.block.port q).updateInputs (s.block.levelAt s.wires.level q) := by
  obtain ⟨level, others⟩ :=
    s.foldl_updatePort ((List.nodup_finRange 4).filter (fun p => decide (p < q)))
  have before := others q (by simp)
  obtain ⟨_, after⟩ :=
    (((List.finRange 4).filter (· < q)).foldl updatePort s |>.updatePort q).foldl_updatePort
      ((List.nodup_finRange 4).filter (fun p => decide (q < p)))
  rw [update, finRange_split q, List.foldl_append, List.foldl_cons, after q (by simp),
    updatePort, putPort_update_port, if_pos rfl, before, level]
  rfl

theorem update_pending (s : GpioBus) (q : Fin 4) :
    (s.update.block.port q).pending = true ↔
      (s.block.port q).Due (s.block.levelAt s.wires.level q) := by
  rw [update_port, GpioPort.pending_updateInputs]

theorem update_asserted {s : GpioBus} {irq : Nat} (shared : ∀ p, (s.block.port p).irq = irq) :
    (s.update.wires.irq irq).asserted = true ↔
      (s.block.port 3).Due (s.block.levelAt s.wires.level 3) := by
  have last : List.finRange 4 = (List.finRange 4).filter (· < 3) ++ [3] := by decide
  obtain ⟨level, others⟩ :=
    s.foldl_updatePort ((List.nodup_finRange 4).filter (fun p => decide (p < 3)))
  have before := others 3 (by simp)
  rw [update, last, List.foldl_append, List.foldl_cons, List.foldl_nil, updatePort, before,
    ← shared 3, putPort_update_asserted, level]
  rfl

end GpioBus

inductive GpioWrite where
  | w8 (offset : U32) (val : U8)
  | w16 (offset : U32) (val : U16)
  | w32 (offset val : U32)
  | mirror (offset val : U32)
  deriving DecidableEq, Repr

inductive GpioEvent where
  | registerIn (idx line : Nat)
  | registerOut (idx line : Nat)
  | write (a : GpioWrite)
  | line (line : Nat) (c : Call)
  | update
  deriving DecidableEq, Repr

namespace GpioBus

def write (s : GpioBus) : GpioWrite → Access GpioBus Unit
  | .w8 offset val => Memory.w8 s offset val
  | .w16 offset val => Memory.w16 s offset val
  | .w32 offset val => Memory.w32 s offset val
  | .mirror offset val => s.mirrorW32 offset val

/-- An exception leaves the block as it is. A panic ends the run. -/
def step (s : GpioBus) : GpioEvent → Option GpioBus
  | .registerIn idx line => (s.block.registerIn idx line).state?.map fun block => { s with block }
  | .registerOut idx line =>
    (s.block.registerOut idx line).state?.map fun block => { s with block }
  | .write a => (s.write a).state?
  | .line line c => some { s with wires := s.wires.callGpio line c }
  | .update => some s.update

/-- A block from `GpioBlock::new`, on an interrupt line from `irq::new`. -/
def powerUp (irq : Nat) (labels : Fin 4 → String) (w : Wires) : GpioBus :=
  { block := .new irq labels
    wires := { w with irq := fun k => if k = irq then .new .hi else w.irq k } }

/-- The port a word write goes to, with its register set and not yet updated. -/
def assigned (s : GpioBus) (offset val : U32) : Option (Fin 4 × GpioPort) :=
  match (s.block.port (GpioBlock.portNo offset)).assign (GpioBlock.portOffset offset) val with
  | .ok port => some (GpioBlock.portNo offset, port)
  | .error _ => none

/-- The same for a write of any width: the port that is going to be updated, if the write is
accepted. -/
def writes (s : GpioBus) : GpioWrite → Option (Fin 4 × GpioPort)
  | .w8 offset val => if offset &&& 0x3 ≠ 0 then none else s.assigned offset (val.setWidth 32)
  | .w16 offset val => if offset &&& 0x3 ≠ 0 then none else s.assigned offset (val.setWidth 32)
  | .w32 offset val => s.assigned offset val
  | .mirror offset val =>
    let mask : U8 := (val.getBits 8 15).setWidth 8
    let val : U8 := (val.getBits 0 7).setWidth 8
    if offset &&& 0x3 ≠ 0 ∨ 0x7f < offset then none
    else match (s.block.port (GpioBlock.portNo offset)).r32 (GpioBlock.portOffset offset) with
      | .ok old =>
        s.assigned offset (((old.setWidth 8 &&& ~~~mask) ||| (val &&& mask)).setWidth 32)
      | .error _ => none

def rewritten (s : GpioBus) : Option (Fin 4 × GpioPort) → GpioBus
  | none => s
  | some (p, port) => s.putPort p (port.update s.wires)

theorem w32_state? (s : GpioBus) (offset val : U32) :
    (s.w32 offset val).state? = some (s.rewritten (s.assigned offset val)) := by
  unfold w32 assigned GpioPort.w32
  dsimp only
  cases (s.block.port (GpioBlock.portNo offset)).assign (GpioBlock.portOffset offset) val <;> rfl

theorem narrow_state? (s : GpioBus) (offset val : U32) :
    (if offset &&& 0x3 ≠ 0 then (.raise s .misaligned : Access GpioBus Unit)
      else s.w32 offset val).state? =
      some (s.rewritten (if offset &&& 0x3 ≠ 0 then none else s.assigned offset val)) := by
  by_cases misaligned : offset &&& 0x3 ≠ 0
  · simp only [if_pos misaligned, Outcome.state?_done, rewritten]
  · simp only [if_neg misaligned, w32_state?]

theorem mirrorW32_state? (s : GpioBus) (offset val : U32) :
    (s.mirrorW32 offset val).state? = some (s.rewritten (s.writes (.mirror offset val))) := by
  unfold mirrorW32 writes
  dsimp only
  by_cases outside : 0x7f < offset
  · have high : ¬ offset ≤ 0x7f := BitVec.not_le.mpr outside
    rw [if_neg high, if_pos (.inr outside)]
    rfl
  · have low : offset ≤ 0x7f := BitVec.not_lt.mp outside
    rw [if_pos low]
    by_cases misaligned : offset &&& 0x3 ≠ 0
    · have raised : Memory.r8 s offset = .raise s .misaligned := if_pos misaligned
      rw [raised, if_pos (.inl misaligned)]
      rfl
    · have inner : ¬ (offset &&& 0x3 ≠ 0 ∨ 0x7f < offset) := fun h => h.elim misaligned outside
      have read : Memory.r8 s offset = (s.r32 offset).map (·.setWidth 8) := if_neg misaligned
      rw [read, if_neg inner, r32]
      cases (s.block.port (GpioBlock.portNo offset)).r32 (GpioBlock.portOffset offset) with
      | error e => rfl
      | ok old =>
        refine (s.narrow_state? offset _).trans ?_
        rw [if_neg misaligned]

theorem write_state? (s : GpioBus) (a : GpioWrite) :
    (s.write a).state? = some (s.rewritten (s.writes a)) := by
  cases a with
  | w8 offset val => exact s.narrow_state? offset _
  | w16 offset val => exact s.narrow_state? offset _
  | w32 offset val => exact s.w32_state? offset val
  | mirror offset val => exact s.mirrorW32_state? offset val

def Shared (irq : Nat) (s : GpioBus) : Prop := ∀ p, (s.block.port p).irq = irq

/-- The interrupt line tells whether any port has an interrupt set and enabled. -/
def IrqTruth (irq : Nat) (s : GpioBus) : Prop :=
  (s.wires.irq irq).asserted = true ↔ ∃ p, (s.block.port p).pending = true

/-- The port updated last is due whenever any port of the block is. -/
def LastPortTells (s : GpioBus) : GpioEvent → Prop
  | .update => ∀ q, (s.block.port q).Due (s.block.levelAt s.wires.level q) →
      (s.block.port (Fin.last 3)).Due (s.block.levelAt s.wires.level (Fin.last 3))
  | .write a => ∀ p port, s.writes a = some (p, port) →
      (∃ q, q ≠ p ∧ (s.block.port q).pending = true) → port.Due (port.driven s.wires.level)
  | _ => True

theorem assigned_irq {s : GpioBus} {offset val : U32} {p : Fin 4} {port : GpioPort}
    (accepted : s.assigned offset val = some (p, port)) : port.irq = (s.block.port p).irq := by
  unfold assigned GpioPort.assign at accepted
  dsimp only at accepted
  split at accepted
  · rename_i done
    cases accepted
    split at done <;> cases done <;> rfl
  · cases accepted

theorem writes_irq {s : GpioBus} {a : GpioWrite} {p : Fin 4} {port : GpioPort}
    (accepted : s.writes a = some (p, port)) : port.irq = (s.block.port p).irq := by
  cases a <;> unfold writes at accepted <;> dsimp only at accepted
  case w32 offset val => exact assigned_irq accepted
  all_goals
    split at accepted
    · cases accepted
  case mirror offset val aligned =>
    split at accepted
    · exact assigned_irq accepted
    · cases accepted
  all_goals exact assigned_irq accepted

theorem update_shared {s : GpioBus} {irq : Nat} (shared : s.Shared irq) : s.update.Shared irq := by
  intro q
  rw [update_port, GpioPort.updateInputs_irq, shared q]

theorem putPort_update_shared {s : GpioBus} {irq : Nat} {p : Fin 4} {port : GpioPort}
    (shared : s.Shared irq) (same : port.irq = irq) :
    (s.putPort p (port.update s.wires)).Shared irq := by
  intro q
  rw [putPort_update_port]
  by_cases here : q = p
  · rw [if_pos here, GpioPort.updateInputs_irq, same]
  · rw [if_neg here, shared q]

theorem update_irqTruth_iff {s : GpioBus} {irq : Nat} (shared : s.Shared irq) :
    s.update.IrqTruth irq ↔ s.LastPortTells .update := by
  unfold IrqTruth LastPortTells
  rw [update_asserted shared]
  simp only [update_pending]
  constructor
  · exact fun truth q due => truth.mpr ⟨q, due⟩
  · exact fun tells => ⟨fun due => ⟨3, due⟩, fun ⟨q, due⟩ => tells q due⟩

theorem putPort_irqTruth_iff {s : GpioBus} {irq : Nat} {p : Fin 4} {port : GpioPort}
    (same : port.irq = irq) :
    (s.putPort p (port.update s.wires)).IrqTruth irq ↔
      ((∃ q, q ≠ p ∧ (s.block.port q).pending = true) → port.Due (port.driven s.wires.level)) := by
  unfold IrqTruth
  rw [← same, putPort_update_asserted]
  have here : ((s.putPort p (port.update s.wires)).block.port p).pending = true ↔
      port.Due (port.driven s.wires.level) := by
    rw [putPort_update_port, if_pos rfl, GpioPort.pending_updateInputs]
  constructor
  · rintro truth ⟨q, apart, pending⟩
    refine truth.mpr ⟨q, ?_⟩
    rwa [putPort_update_port, if_neg apart]
  · intro tells
    refine ⟨fun due => ⟨p, here.mpr due⟩, fun ⟨q, pending⟩ => ?_⟩
    by_cases apart : q = p
    · exact here.mp (apart ▸ pending)
    · rw [putPort_update_port, if_neg apart] at pending
      exact tells ⟨q, apart, pending⟩

/-- Nothing the interrupt line depends on is touched. -/
structure Quiet (s s' : GpioBus) : Prop where
  line : s'.wires.irq = s.wires.irq
  irq : ∀ p, (s'.block.port p).irq = (s.block.port p).irq
  pending : ∀ p, (s'.block.port p).pending = (s.block.port p).pending

theorem Quiet.shared {s s' : GpioBus} {irq : Nat} (quiet : s.Quiet s') (shared : s.Shared irq) :
    s'.Shared irq := fun p => (quiet.irq p).trans (shared p)

theorem Quiet.irqTruth {s s' : GpioBus} {irq : Nat} (quiet : s.Quiet s') (truth : s.IrqTruth irq) :
    s'.IrqTruth irq := by
  unfold IrqTruth
  simp only [quiet.line, quiet.pending]
  exact truth

theorem putPort_quiet {s : GpioBus} {p : Fin 4} {port : GpioPort}
    (irq : port.irq = (s.block.port p).irq) (pending : port.pending = (s.block.port p).pending) :
    s.Quiet { s with block := s.block.putPort p port } := by
  refine ⟨rfl, fun q => ?_, fun q => ?_⟩ <;> rw [GpioBlock.putPort_port] <;> split
  · rename_i here
    rw [irq, here]
  · rfl
  · rename_i here
    rw [pending, here]
  · rfl

theorem registerIn_quiet {s s' : GpioBus} {idx line : Nat}
    (taken : s.step (.registerIn idx line) = some s') : s.Quiet s' := by
  simp only [step, GpioBlock.registerIn] at taken
  split at taken
  · cases taken
    exact putPort_quiet rfl rfl
  · cases taken

theorem registerOut_quiet {s s' : GpioBus} {idx line : Nat}
    (taken : s.step (.registerOut idx line) = some s') : s.Quiet s' := by
  simp only [step, GpioBlock.registerOut] at taken
  split at taken
  · cases taken
    exact putPort_quiet rfl rfl
  · cases taken

theorem line_quiet (s : GpioBus) (line : Nat) (c : Call) :
    s.Quiet { s with wires := s.wires.callGpio line c } := ⟨rfl, fun _ => rfl, fun _ => rfl⟩

theorem step_shared {s s' : GpioBus} {irq : Nat} {e : GpioEvent} (shared : s.Shared irq)
    (taken : s.step e = some s') : s'.Shared irq := by
  cases e with
  | registerIn idx line => exact (registerIn_quiet taken).shared shared
  | registerOut idx line => exact (registerOut_quiet taken).shared shared
  | write a =>
    rw [step, write_state?] at taken
    cases taken
    cases accepted : s.writes a with
    | none => exact shared
    | some target =>
      exact putPort_update_shared shared ((writes_irq accepted).trans (shared _))
  | line line c =>
    cases taken
    exact (s.line_quiet line c).shared shared
  | update =>
    cases taken
    exact update_shared shared

theorem step_irqTruth_iff {s s' : GpioBus} {irq : Nat} {e : GpioEvent} (shared : s.Shared irq)
    (truth : s.IrqTruth irq) (taken : s.step e = some s') :
    s'.IrqTruth irq ↔ s.LastPortTells e := by
  cases e with
  | registerIn idx line => exact iff_of_true ((registerIn_quiet taken).irqTruth truth) trivial
  | registerOut idx line => exact iff_of_true ((registerOut_quiet taken).irqTruth truth) trivial
  | write a =>
    rw [step, write_state?] at taken
    cases taken
    simp only [LastPortTells]
    cases accepted : s.writes a with
    | none => exact iff_of_true truth fun _ _ impossible => nomatch impossible
    | some target =>
      obtain ⟨p, port⟩ := target
      refine (putPort_irqTruth_iff ((writes_irq accepted).trans (shared _))).trans ?_
      constructor
      · intro tells q port' same
        cases same
        exact tells
      · exact fun tells => tells p port rfl
  | line line c =>
    cases taken
    exact iff_of_true ((s.line_quiet line c).irqTruth truth) trivial
  | update =>
    cases taken
    exact update_irqTruth_iff shared

theorem powerUp_irqTruth (irq : Nat) (labels : Fin 4 → String) (w : Wires) :
    (powerUp irq labels w).IrqTruth irq := by
  have low : ((powerUp irq labels w).wires.irq irq).asserted = false := by
    simp [powerUp, Line.new]
  unfold IrqTruth
  rw [low]
  constructor
  · intro impossible
    cases impossible
  · rintro ⟨p, pending⟩
    simp [powerUp, GpioBlock.new, GpioPort.new, GpioPort.pending] at pending

/-- The interrupt line of a block tells at all times whether a port has an interrupt set and
enabled exactly when, in each update, the port that is updated last is due if any port is. -/
theorem gpio_irq_truth_iff (irq : Nat) (labels : Fin 4 → String) (w : Wires)
    (es : List GpioEvent) :
    Always step (IrqTruth irq) (powerUp irq labels w) es ↔
      EveryStep step LastPortTells (powerUp irq labels w) es := by
  apply always_iff_everyStep (I := Shared irq)
  · exact fun s e s' shared taken => step_shared shared taken
  · exact fun s e s' shared truth taken => step_irqTruth_iff shared truth taken
  · exact fun _ => rfl
  · exact powerUp_irqTruth irq labels w

/-- A rising edge on pin 0 of port A: port A asserts the shared line, and port D, which has
nothing to report, clears it again. -/
theorem idle_port_clears_irq :
    ¬ Always step (IrqTruth 0)
      (powerUp 0 (fun _ => "") { irq := fun _ => .new .hi, gpio := fun _ => .new .edge })
      [.registerIn 0 0, .write (.w32 0x00 1), .write (.w32 0x60 1), .write (.w32 0x50 1),
        .line 0 .assert, .update] := by
  intro always
  have cleared : (run step
      (powerUp 0 (fun _ => "") { irq := fun _ => .new .hi, gpio := fun _ => .new .edge })
      [.registerIn 0 0, .write (.w32 0x00 1), .write (.w32 0x60 1), .write (.w32 0x50 1),
        .line 0 .assert, .update]).map
      (fun s => ((s.wires.irq 0).asserted, (s.block.port 0).pending)) = some (false, true) := by
    decide +kernel
  obtain ⟨s, reached, last⟩ := Option.map_eq_some_iff.mp cleared
  obtain ⟨low, pending⟩ := Prod.mk.inj last
  have truth := always.run reached
  rw [truth.mpr ⟨0, pending⟩] at low
  cases low

end GpioBus
end Clicky
