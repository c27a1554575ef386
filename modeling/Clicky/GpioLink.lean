import Clicky.Gpio
import Clicky.Lib.Runs

/-! Two GPIO ports and a line from an output of one to an input of the other: what the second port
samples and reports of what the first one is told to put out. -/
namespace Clicky
open Runs

inductive PortCall where
  | write (offset val : U32)
  | update
  deriving DecidableEq, Repr

/-- A refused write leaves the port and the lines as they are. -/
def GpioPort.call (port : GpioPort) (w : Wires) : PortCall → GpioPort × Wires
  | .write offset val =>
    match port.w32 w offset val with
    | .ok updated => updated
    | .error _ => (port, w)
  | .update => port.update w

/-- Every register but the two enables may be written. -/
def PortCall.KeepsEnables : PortCall → Prop
  | .write offset _ => offset ≠ 0x00 ∧ offset ≠ 0x10
  | .update => True

/-- The sender of a line is not cloned, so that only one pin drives it. -/
structure GpioLink where
  source : GpioPort
  destination : GpioPort
  wires : Wires
  line : Nat
  i : Fin 8
  j : Fin 8
  driver : ∀ k, source.outputs k = some line ↔ k = i
  silent : ∀ k, destination.outputs k ≠ some line
  heard : destination.inputs j = some line

inductive LinkEvent where
  | source (c : PortCall)
  | destination (c : PortCall)
  deriving DecidableEq, Repr

def LinkEvent.KeepsEnables : LinkEvent → Prop
  | .source c => c.KeepsEnables
  | .destination c => c.KeepsEnables

/-- A port that a call does not wire up again. -/
structure GpioPort.SameWiring (port port' : GpioPort) : Prop where
  outputs : port'.outputs = port.outputs
  inputs : port'.inputs = port.inputs

namespace GpioPort

theorem SameWiring.trans {a b c : GpioPort} (first : a.SameWiring b) (second : b.SameWiring c) :
    a.SameWiring c :=
  ⟨second.outputs.trans first.outputs, second.inputs.trans first.inputs⟩

theorem update_wiring (port : GpioPort) (w : Wires) : port.SameWiring (port.update w).1 := by
  rw [update, updateInputs_eq]
  exact ⟨rfl, rfl⟩

theorem assign_wiring {port port' : GpioPort} {offset val : U32}
    (done : port.assign offset val = .ok port') : port.SameWiring port' := by
  unfold assign at done
  dsimp only at done
  split at done <;> cases done <;> exact ⟨rfl, rfl⟩

theorem assign_enables {port port' : GpioPort} {offset val : U32}
    (keeps : offset ≠ 0x00 ∧ offset ≠ 0x10) (done : port.assign offset val = .ok port') :
    port'.enable = port.enable ∧ port'.outputEnable = port.outputEnable := by
  unfold assign at done
  dsimp only at done
  split at done
  case h_1 => exact absurd rfl keeps.1
  case h_2 => exact absurd rfl keeps.2
  all_goals cases done <;> exact ⟨rfl, rfl⟩

/-- A call that is not refused is an update, of the port with its registers as written. -/
theorem call_cases (port : GpioPort) (w : Wires) (c : PortCall) :
    port.call w c = (port, w) ∨
      ∃ written : GpioPort, port.SameWiring written ∧ port.call w c = written.update w := by
  cases c with
  | write offset val =>
    cases done : port.assign offset val with
    | error e =>
      apply Or.inl
      simp only [call, w32, done, Except.map]
    | ok written =>
      refine .inr ⟨written, assign_wiring done, ?_⟩
      simp only [call, w32, done, Except.map]
  | update => exact .inr ⟨port, ⟨rfl, rfl⟩, rfl⟩

theorem call_wiring (port : GpioPort) (w : Wires) (c : PortCall) :
    port.SameWiring (port.call w c).1 := by
  rcases port.call_cases w c with refused | ⟨written, wiring, updated⟩
  · rw [refused]
    exact ⟨rfl, rfl⟩
  · rw [updated]
    exact wiring.trans (written.update_wiring w)

@[simp] theorem update_level (port : GpioPort) (w : Wires) :
    (port.update w).2.level = port.driven w.level := by
  simp [update]

theorem update_outputVal (port : GpioPort) (w : Wires) :
    (port.update w).1.outputVal = port.outputVal := by
  rw [update, updateInputs_eq]

theorem update_enables (port : GpioPort) (w : Wires) :
    (port.update w).1.enable = port.enable ∧ (port.update w).1.outputEnable = port.outputEnable := by
  rw [update, updateInputs_eq]
  exact ⟨rfl, rfl⟩

theorem call_enables (port : GpioPort) (w : Wires) {c : PortCall} (keeps : c.KeepsEnables) :
    (port.call w c).1.enable = port.enable ∧ (port.call w c).1.outputEnable = port.outputEnable := by
  cases c with
  | write offset val =>
    cases done : port.assign offset val with
    | error e =>
      simp only [call, w32, done, Except.map]
      trivial
    | ok written =>
      have same := assign_enables keeps done
      have updated := written.update_enables w
      simp only [call, w32, done, Except.map]
      exact ⟨updated.1.trans same.1, updated.2.trans same.2⟩
  | update => exact port.update_enables w

theorem driven_of_silent {port : GpioPort} {line : Nat} (silent : ∀ k, port.outputs k ≠ some line)
    (level : Nat → Bool) : port.driven level line = level line := by
  have nobody : (List.finRange 8).reverse.find? (port.drives line) = none := by
    apply List.find?_eq_none.mpr
    intro k _
    simp [drives, silent k]
  rw [driven, nobody]

/-- The line of a live output takes the complement of the bit. -/
theorem driven_of_driver {port : GpioPort} {line : Nat} {i : Fin 8}
    (driver : ∀ k, port.outputs k = some line ↔ k = i) (on : port.enable.getBit i = true)
    (out : port.outputEnable.getBit i = true) (level : Nat → Bool) :
    port.driven level line = !port.outputVal.getBit i := by
  have only (k : Fin 8) : port.drives line k = true ↔ k = i := by
    simp only [drives, Bool.and_eq_true, beq_iff_eq, driver]
    constructor
    · exact fun drives => drives.2
    · rintro rfl
      exact ⟨⟨on, out⟩, rfl⟩
  have found : (List.finRange 8).reverse.find? (port.drives line) = some i := by
    cases first : (List.finRange 8).reverse.find? (port.drives line) with
    | none =>
      have idle := List.find?_eq_none.mp first i (List.mem_reverse.mpr (List.mem_finRange i))
      exact absurd ((only i).mpr rfl) idle
    | some k => rw [(only k).mp (List.find?_some first)]
  rw [driven, found]

end GpioPort

namespace GpioLink

def step (s : GpioLink) : LinkEvent → GpioLink
  | .source c =>
    let called := s.source.call s.wires c
    { s with
      source := called.1
      wires := called.2
      driver := by
        rw [(s.source.call_wiring s.wires c).outputs]
        exact s.driver }
  | .destination c =>
    let called := s.destination.call s.wires c
    { s with
      destination := called.1
      wires := called.2
      silent := by
        rw [(s.destination.call_wiring s.wires c).outputs]
        exact s.silent
      heard := by
        rw [(s.destination.call_wiring s.wires c).inputs]
        exact s.heard }

def linkStep (s : GpioLink) (e : LinkEvent) : Option GpioLink := some (s.step e)

/-- The bits are enabled, and the output is. -/
structure Live (s : GpioLink) : Prop where
  source : s.source.enable.getBit s.i = true
  output : s.source.outputEnable.getBit s.i = true
  destination : s.destination.enable.getBit s.j = true

def putOut (s : GpioLink) : Bool := s.source.outputVal.getBit s.i
def readIn (s : GpioLink) : Bool := s.destination.inputVal.getBit s.j

/-- The destination reads what the source is told to put out. -/
def Carries (s : GpioLink) : Prop := s.readIn = s.putOut

/-- The source has driven the line to what it drives it to now. -/
def Driven (s : GpioLink) : Prop := s.wires.level s.line = !s.putOut

def Edge (old new : GpioLink) : Prop := old.putOut ≠ new.putOut

/-- The status says whether the edge is of the kind that the destination waits for. -/
def Reports (old new : GpioLink) : Prop :=
  new.destination.interruptStatus.getBit new.j =
    if new.destination.interruptLevel.getBit new.j then !old.putOut && new.putOut
    else old.putOut && !new.putOut

theorem live_step {s : GpioLink} (live : s.Live) {e : LinkEvent} (keeps : e.KeepsEnables) :
    (s.step e).Live := by
  cases e with
  | source c =>
    obtain ⟨enable, output⟩ := s.source.call_enables s.wires keeps
    refine ⟨?_, ?_, live.destination⟩
    · exact (congrArg (·.getBit s.i) enable).trans live.source
    · exact (congrArg (·.getBit s.i) output).trans live.output
  | destination c =>
    have enable := (s.destination.call_enables s.wires keeps).1
    exact ⟨live.source, live.output, (congrArg (·.getBit s.j) enable).trans live.destination⟩

theorem live_run {s : GpioLink} (live : s.Live) {es : List LinkEvent}
    (keeps : ∀ e ∈ es, e.KeepsEnables) : Always linkStep Live s es := by
  apply always_of_everyStep _ (fun _ => id) live (everyStep_of_mem keeps s)
  intro s e s' here good taken
  cases taken
  exact live_step here good

/-- An update of the source drives the line. -/
theorem driven_of_source {s : GpioLink} {c : PortCall} {written : GpioPort}
    (wiring : s.source.SameWiring written)
    (updated : s.source.call s.wires c = written.update s.wires)
    (live : (s.step (.source c)).Live) : (s.step (.source c)).Driven := by
  have on := live.source
  have out := live.output
  simp only [step, updated, (written.update_enables s.wires).1] at on
  simp only [step, updated, (written.update_enables s.wires).2] at out
  simp only [Driven, putOut, step, updated, GpioPort.update_level, written.update_outputVal]
  apply GpioPort.driven_of_driver _ on out
  rw [wiring.outputs]
  exact s.driver

theorem driven_step {s : GpioLink} (driven : s.Driven) {e : LinkEvent} (live : (s.step e).Live) :
    (s.step e).Driven := by
  cases e with
  | source c =>
    rcases s.source.call_cases s.wires c with refused | ⟨written, wiring, updated⟩
    · simp only [Driven, putOut, step, refused]
      exact driven
    · exact driven_of_source wiring updated live
  | destination c =>
    rcases s.destination.call_cases s.wires c with refused | ⟨written, wiring, updated⟩
    · simp only [Driven, putOut, step, refused]
      exact driven
    · simp only [Driven, putOut, step, updated, GpioPort.update_level]
      rw [GpioPort.driven_of_silent]
      · exact driven
      · rw [wiring.outputs]
        exact s.silent

/-- A write of the output value is not refused. -/
theorem driven_of_write {s : GpioLink} {val : U32}
    (live : (s.step (.source (.write 0x20 val))).Live) :
    (s.step (.source (.write 0x20 val))).Driven := by
  let written : GpioPort := { s.source with outputVal := val.setWidth 8 }
  have wiring : s.source.SameWiring written := ⟨rfl, rfl⟩
  exact driven_of_source wiring rfl live

theorem driven_run {s s' : GpioLink} {es : List LinkEvent} (driven : s.Driven)
    (live : Always linkStep Live s es) (reached : run linkStep s es = some s') : s'.Driven := by
  induction es generalizing s with
  | nil =>
    cases reached
    exact driven
  | cons e es ih =>
    have later := live.2 (s.step e) rfl
    exact ih (driven_step driven later.start) later reached

/-- An update of the destination samples the line, and compares it with the sample before. -/
theorem destination_update (s : GpioLink) (on : s.destination.enable.getBit s.j = true) :
    (s.step (.destination .update)).readIn = s.wires.level s.line ∧
      (s.step (.destination .update)).destination.interruptStatus.getBit s.j =
        GpioPort.triggers (s.destination.interruptLevel.getBit s.j) s.readIn (s.wires.level s.line) := by
  have sampled : s.destination.sampled s.j = some s.line := by
    rw [GpioPort.sampled, if_pos on, s.heard]
  have still := GpioPort.driven_of_silent s.silent s.wires.level
  simp only [readIn, step, GpioPort.call, GpioPort.update, GpioPort.updateInputs_inputVal,
    GpioPort.updateInputs_status, GpioPort.updateOutputs_level, GpioPort.sensed, GpioPort.latched,
    sampled, still]
  exact ⟨trivial, trivial⟩

def outputWrite (val : U32) : LinkEvent := .source (.write 0x20 val)

/-- The source's output is written, and later the destination is updated. -/
def Settles (es : List LinkEvent) : Prop :=
  ∃ before val between, es = before ++ (outputWrite val :: between) ++ [.destination .update]

theorem settled {s s' : GpioLink} {es : List LinkEvent} (settles : Settles es)
    (live : Always linkStep Live s es) (reached : run linkStep s es = some s') :
    s'.Driven ∧ s'.readIn = !s'.putOut := by
  obtain ⟨before, val, between, rfl⟩ := settles
  have enabled := live.run reached
  rw [run_concat] at reached
  obtain ⟨last, ran, updated⟩ := Option.bind_eq_some_iff.mp reached
  cases updated
  have still : last.Live := live.init.run ran
  rw [run_append] at ran
  obtain ⟨mid, first, onward⟩ := Option.bind_eq_some_iff.mp ran
  have later := (live.init.after first).2 _ rfl
  have driven : last.Driven := driven_run (driven_of_write later.start) later onward
  have sampled := (last.destination_update still.destination).1
  refine ⟨driven_step driven enabled, ?_⟩
  rw [sampled, driven]
  rfl

def OfSource : LinkEvent → Prop
  | .source _ => True
  | .destination _ => False

theorem run_ofSource {s s' : GpioLink} {es : List LinkEvent} (only : ∀ e ∈ es, OfSource e)
    (reached : run linkStep s es = some s') : s'.destination = s.destination ∧ s'.j = s.j := by
  induction es generalizing s with
  | nil =>
    cases reached
    exact ⟨rfl, rfl⟩
  | cons e es ih =>
    have same := ih (fun e' member => only e' (List.mem_cons_of_mem e member)) reached
    cases e with
    | source c => exact same
    | destination c => exact (only _ List.mem_cons_self).elim

/-- An edge of the output is sampled as the other kind of edge. -/
theorem misreports {s s₁ s₂ : GpioLink} (driven : s.Driven) (sampled : s.readIn = !s.putOut)
    {between : List LinkEvent} (only : ∀ e ∈ between, OfSource e)
    (live : Always linkStep Live s between) (reached : run linkStep s between = some s₁)
    (updated : s₂ = s₁.step (.destination .update)) (edge : s.Edge s₂) : ¬ s.Reports s₂ := by
  obtain ⟨port, pin⟩ := run_ofSource only reached
  have now := driven_run driven live reached
  have status := (s₁.destination_update (live.run reached).destination).2
  have before : s₁.readIn = !s.putOut := by
    rw [← sampled, readIn, readIn, port, pin]
  have after : s₂.putOut = s₁.putOut := by
    rw [updated]
    rfl
  have level : s₂.destination.interruptLevel.getBit s₂.j =
      s₁.destination.interruptLevel.getBit s₁.j := by
    rw [updated]
    simp only [step, GpioPort.call, GpioPort.update]
    rw [GpioPort.updateInputs_eq]
  have same : s₂.destination.interruptStatus.getBit s₂.j =
      GpioPort.triggers (s₁.destination.interruptLevel.getBit s₁.j) (!s.putOut) (!s₁.putOut) := by
    rw [← before, ← now, ← status, updated]
    rfl
  unfold Edge at edge
  unfold Reports
  rw [same, level, after]
  rw [after] at edge
  cases old : s.putOut <;> cases new : s₁.putOut <;>
    cases s₁.destination.interruptLevel.getBit s₁.j <;> simp_all [GpioPort.triggers]

/-- A set bit pulls the line low, so that what comes through a line is never what was put out: once
the output is written and the destination has sampled the line, it has read the complement, and it
takes each edge for one of the other kind. -/
theorem link_inverts {s s' : GpioLink} {es : List LinkEvent} (live : Always linkStep Live s es)
    (reached : run linkStep s es = some s') :
    (Settles es → ¬ s'.Carries) ∧
      ∀ first between mid, es = first ++ (between ++ [.destination .update]) → Settles first →
        (∀ e ∈ between, OfSource e) → run linkStep s first = some mid → mid.Edge s' →
          ¬ mid.Reports s' := by
  constructor
  · intro settles carries
    have inverted := (settled settles live reached).2
    rw [Carries, inverted] at carries
    cases out : s'.putOut <;> simp [out] at carries
  · rintro first between mid rfl settles only ran edge
    obtain ⟨driven, sampled⟩ := settled settles live.init ran
    rw [run_append, ran, Option.bind_some, run_concat] at reached
    obtain ⟨last, onward, updated⟩ := Option.bind_eq_some_iff.mp reached
    exact misreports driven sampled only (live.after ran).init onward (Option.some.inj updated).symm
      edge

def pin : Fin 8 := ⟨0, by decide⟩

/-- A pin of one port, and the same pin of another. -/
def wired : GpioLink where
  source := { GpioPort.new 0 "A" with
    outputs := fun k => if k = pin then some 0 else none, enable := 1, outputEnable := 1 }
  destination := { GpioPort.new 0 "B" with
    inputs := fun k => if k = pin then some 0 else none, enable := 1, interruptLevel := 1 }
  wires := { irq := fun _ => .new .hi, gpio := fun _ => .new .edge }
  line := 0
  i := pin
  j := pin
  driver := by
    intro k
    by_cases here : k = pin <;> simp [here]
  silent := fun _ => nofun
  heard := rfl

/-- The output goes up, and is sampled. -/
def raised : List LinkEvent := [outputWrite 1, .destination .update]

/-- The output goes down again. -/
def lowered : List LinkEvent := raised ++ ([outputWrite 0] ++ [.destination .update])

theorem lowered_live : Always linkStep Live wired lowered := by
  apply live_run ⟨rfl, rfl, rfl⟩
  intro e member
  simp only [lowered, raised, List.mem_append, List.mem_cons, List.not_mem_nil, or_false] at member
  rcases member with (rfl | rfl) | rfl | rfl
  · exact ⟨by decide, by decide⟩
  · trivial
  · exact ⟨by decide, by decide⟩
  · trivial

theorem run_linkStep (s : GpioLink) (es : List LinkEvent) :
    run linkStep s es = some (es.foldl step s) := by
  induction es generalizing s with
  | nil => rfl
  | cons e es ih => exact ih (s.step e)

theorem lowered_inverts :
    ¬ (lowered.foldl step wired).Carries ∧
      ¬ (raised.foldl step wired).Reports (lowered.foldl step wired) := by
  have again : Settles lowered := ⟨raised, 0, [], rfl⟩
  obtain ⟨carried, reported⟩ := link_inverts lowered_live (run_linkStep wired lowered)
  refine ⟨carried again, reported raised [outputWrite 0] _ rfl ⟨[], 1, [], rfl⟩ ?_
    (run_linkStep wired raised) ?_⟩
  · intro e member
    rw [List.mem_singleton.mp member]
    trivial
  · unfold Edge
    decide +kernel

theorem raised_reads_low : Settles raised ∧ ¬ (raised.foldl step wired).Carries := by
  refine ⟨⟨[], 1, [], rfl⟩, ?_⟩
  unfold Carries
  decide +kernel

end GpioLink
end Clicky
