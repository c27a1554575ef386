import Clicky.Gpio
import Clicky.Lib.Runs

/-! The interrupt status of a GPIO port over runs: which bits an update carries over. -/
namespace Clicky
open Runs

inductive GpioPortEvent where
  | read (offset : U32)
  | write (offset val : U32)
  | line (line : Nat) (c : Call)
  | update
  deriving DecidableEq, Repr

namespace GpioPort

def step (s : GpioPort × Wires) : GpioPortEvent → Option (GpioPort × Wires)
  | .read _ => some s
  | .write offset val => match s.1.w32 s.2 offset val with
    | .ok s' => some s'
    | .error _ => some s
  | .line line c => some (s.1, s.2.callGpio line c)
  | .update => some (s.1.update s.2)

/-- The guest acknowledges a bit at IntClear. -/
def Acks (i : Fin 8) : GpioPortEvent → Prop
  | .write offset val => offset = 0x70 ∧ val.getBit i = true
  | _ => False

/-- The pin is left out by an update, or shows an edge of the selected kind again. -/
def CarriesOver (port : GpioPort) (level : Nat → Bool) (i : Fin 8) : Prop :=
  ∀ line, port.sampled i = some line →
    triggers (port.interruptLevel.getBit i) (port.inputVal.getBit i) (level line) = true

def StatusCarriesOver (s : GpioPort × Wires) (i : Fin 8) : GpioPortEvent → Prop
  | .write offset val => ∀ port, s.1.assign offset val = .ok port →
      port.CarriesOver (port.driven s.2.level) i
  | .update => s.1.CarriesOver (s.1.driven s.2.level) i
  | _ => True

theorem update_status (port : GpioPort) (w : Wires) (i : Fin 8) :
    (port.update w).1.interruptStatus.getBit i = port.latched (port.driven w.level) i := by
  simp [update]

theorem latched_iff {port : GpioPort} {level : Nat → Bool} {i : Fin 8}
    (set : port.interruptStatus.getBit i = true) :
    port.latched level i = true ↔ port.CarriesOver level i := by
  unfold latched CarriesOver
  cases port.sampled i with
  | none => exact iff_of_true set fun _ impossible => nomatch impossible
  | some line => exact ⟨fun edge _ same => Option.some.inj same ▸ edge, fun edge => edge line rfl⟩

/-- A write keeps the status bits that it does not acknowledge, before the update. -/
theorem assign_status {port port' : GpioPort} {offset val : U32} {i : Fin 8}
    (set : port.interruptStatus.getBit i = true) (goes_on : ¬ Acks i (.write offset val))
    (done : port.assign offset val = .ok port') : port'.interruptStatus.getBit i = true := by
  unfold assign at done
  dsimp only at done
  split at done
  case h_8 =>
    cases done
    have clear : val.getBit i = false := by
      cases bit : val.getBit i with
      | false => rfl
      | true => exact absurd ⟨rfl, bit⟩ goes_on
    have low : (~~~(val.setWidth 8 : U8)).getBit i = true := by
      simpa [BitVec.getBit] using clear
    simp only [BitVec.getBit_and, set, low, Bool.and_true]
  all_goals cases done <;> exact set

theorem write_status_iff {s s' : GpioPort × Wires} {offset val : U32} {i : Fin 8}
    (set : s.1.interruptStatus.getBit i = true) (goes_on : ¬ Acks i (.write offset val))
    (taken : step s (.write offset val) = some s') :
    s'.1.interruptStatus.getBit i = true ↔ StatusCarriesOver s i (.write offset val) := by
  simp only [step, w32] at taken
  change _ ↔ ∀ port, s.1.assign offset val = .ok port →
    port.CarriesOver (port.driven s.2.level) i
  cases done : s.1.assign offset val with
  | error e =>
    rw [done] at taken
    cases taken
    refine iff_of_true set ?_
    intro port impossible
    cases impossible
  | ok port =>
    rw [done] at taken
    cases taken
    rw [update_status, latched_iff (assign_status set goes_on done)]
    constructor
    · intro carried port' same
      cases same
      exact carried
    · exact fun carried => carried port rfl

theorem step_status_iff {s s' : GpioPort × Wires} {e : GpioPortEvent} {i : Fin 8}
    (set : s.1.interruptStatus.getBit i = true) (goes_on : ¬ Acks i e)
    (taken : step s e = some s') :
    s'.1.interruptStatus.getBit i = true ↔ StatusCarriesOver s i e := by
  cases e with
  | read offset =>
    cases taken
    exact iff_of_true set trivial
  | write offset val => exact write_status_iff set goes_on taken
  | line line c =>
    cases taken
    exact iff_of_true set trivial
  | update =>
    cases taken
    rw [update_status, latched_iff set]
    rfl

/-- Status bits stay until the guest acknowledges them exactly when, in each update, every bit
that is set and not being acknowledged is carried over. -/
theorem status_sticky_iff (s : GpioPort × Wires) (es : List GpioPortEvent) :
    (∀ i : Fin 8, Persists step (fun s => s.1.interruptStatus.getBit i = true) (Acks i) s es) ↔
      EveryStep step (fun s e => ∀ i : Fin 8, s.1.interruptStatus.getBit i = true →
        ¬ Acks i e → StatusCarriesOver s i e) s es := by
  simp only [persists_iff_everyStep, everyStep_forall]
  apply everyStep_iff
  intro s e s' taken
  constructor
  · intro sticky i set goes_on
    exact (step_status_iff set goes_on taken).mp (sticky i set goes_on s' taken)
  · intro carried i set goes_on s'' same
    exact (step_status_iff set goes_on same).mpr (carried i set goes_on)

/-- Pin 0, sampled low before, on a line that is high now. -/
def risen : GpioPort × Wires :=
  ({ GpioPort.new 0 "A" with
      inputs := fun i => if i.val = 0 then some 0 else none, enable := 1, interruptLevel := 1 },
    { irq := fun _ => .new .hi, gpio := fun _ => (Line.new .edge).assert })

/-- The first update reports the rising edge. The second one sees the line still high, and
forgets it. -/
theorem second_update_forgets_edge :
    ¬ ∀ i : Fin 8, Persists step (fun s => s.1.interruptStatus.getBit i = true) (Acks i) risen
      [.update, .update] := by
  intro sticky
  let once := risen.1.update risen.2
  have edge : once.1.interruptStatus.getBit 0 = true := by decide +kernel
  have gone : ¬ (once.1.update once.2).1.interruptStatus.getBit 0 = true := by decide +kernel
  apply gone
  refine sticky 0 [.update] [.update] [] once _ rfl rfl edge ?_ rfl
  intro e member
  rw [List.mem_singleton.mp member]
  exact id

end GpioPort
end Clicky
