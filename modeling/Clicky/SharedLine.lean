import Clicky.Signal

/-! Calls on the clones of one signal master, from one thread. -/
namespace Clicky
open Runs

def WiredOr {I : Type} [DecidableEq I] (calls : List (I × Call)) (asserted : Bool) : Prop :=
  asserted = true ↔ ∃ i, latest calls i = some .assert

/-- The calls end in a clear although some handle still has assert as its latest call. -/
def ClearsUnderAssert {I : Type} [DecidableEq I] (calls : List (I × Call)) : Prop :=
  (∃ i, calls.getLast? = some (i, .clear)) ∧ ∃ j, latest calls j = some .assert

def cloneStep {I : Type} (handles : I → Master) (h : Heap) (c : I × Call) : Option Heap :=
  ((handles c.1).call h c.2).state?

def lastLevel {I : Type} (calls : List (I × Call)) (before : Bool) : Bool :=
  calls.foldl (fun _ c => c.2.level) before

def freshSignal (h : Heap) (kind : TriggerKind) : Heap × Master × Slave :=
  let (h, trigger) := Trigger.new h kind
  Signal.new h trigger

theorem fresh_master_reads (h : Heap) (kind : TriggerKind) :
    (freshSignal h kind).2.1.Reads (freshSignal h kind).1 (Line.new kind) := by
  refine ⟨rfl, ?_, ?_, ?_, ?_⟩ <;>
    simp [freshSignal, Signal.new, Trigger.new, Heap.newBool, Heap.newIsize, Line.new]

/-- Clones point to the same cells, so the group stays one line whatever handle is used. -/
theorem clones_run {I : Type} {m : Master} (handles : I → Master)
    (clones : ∀ i, m.CloneOf (handles i)) (calls : List (I × Call)) {h : Heap} {l : Line}
    (reads : m.Reads h l) :
    ∃ h' l', run (cloneStep handles) h calls = some h' ∧ m.Reads h' l' ∧
      l'.ownSignal = lastLevel calls l.ownSignal := by
  induction calls generalizing h l with
  | nil => exact ⟨h, l, rfl, reads, rfl⟩
  | cons c rest ih =>
    obtain ⟨mid, r, done, mid_reads, _⟩ := (m.call_line reads c.2).exists_done
    obtain ⟨h', l', ran, after, level⟩ := ih mid_reads
    have first : cloneStep handles h c = some mid := by
      simp only [cloneStep, (clones c.1).eq, done, Outcome.state?_done]
    refine ⟨h', l', ?_, after, ?_⟩
    · simp only [run, first, Option.bind_some, ran]
    · rw [level, Line.call_ownSignal]
      rfl

theorem wiredOr_lastLevel_iff {I : Type} [DecidableEq I] (calls : List (I × Call)) :
    WiredOr calls (lastLevel calls false) ↔ ¬ ClearsUnderAssert calls := by
  rcases List.eq_nil_or_concat calls with rfl | ⟨earlier, ⟨i, c⟩, rfl⟩
  · simp [WiredOr, ClearsUnderAssert, lastLevel]
  · simp only [WiredOr, ClearsUnderAssert, lastLevel, List.concat_eq_append, List.foldl_append,
      List.foldl_cons, List.foldl_nil, List.getLast?_append, List.getLast?_singleton,
      Option.some_or]
    cases c with
    | assert =>
      have held : latest (earlier ++ [(i, Call.assert)]) i = some .assert := by
        simp [latest_concat]
      constructor
      · rintro _ ⟨⟨j, wrong⟩, _⟩
        cases wrong
      · exact fun _ => ⟨fun _ => ⟨i, held⟩, fun _ => rfl⟩
    | clear =>
      constructor
      · rintro wired ⟨_, held⟩
        exact absurd (wired.mpr held) (by decide)
      · intro quiet
        constructor
        · intro high
          exact absurd high (by decide)
        · intro held
          exact absurd ⟨⟨i, rfl⟩, held⟩ quiet

theorem clones_asserted {I : Type} (h₀ : Heap) (kind : TriggerKind) (handles : I → Master)
    (clones : ∀ i, (freshSignal h₀ kind).2.1.CloneOf (handles i)) (calls : List (I × Call)) :
    ∃ h, run (cloneStep handles) (freshSignal h₀ kind).1 calls = some h ∧
      (freshSignal h₀ kind).2.2.asserted h = lastLevel calls false := by
  obtain ⟨h, l, ran, reads, level⟩ := clones_run handles clones calls (fresh_master_reads h₀ kind)
  refine ⟨h, ran, ?_⟩
  have same : (freshSignal h₀ kind).2.2.asserted h = l.asserted := by
    rw [Line.asserted, ← reads.signal]
    rfl
  rw [same, l.asserted_eq, level]
  rfl

/-- The clones of a master share `own_signal` as well as the counter, so the slave follows
the last call made. It is the wired-OR of the handles unless that call was a clear while
some handle still asserts. -/
theorem clones_wired_or_iff {I : Type} [DecidableEq I] (h₀ : Heap) (kind : TriggerKind)
    (handles : I → Master) (clones : ∀ i, (freshSignal h₀ kind).2.1.CloneOf (handles i))
    (calls : List (I × Call)) :
    ∃ h, run (cloneStep handles) (freshSignal h₀ kind).1 calls = some h ∧
      (WiredOr calls ((freshSignal h₀ kind).2.2.asserted h) ↔ ¬ ClearsUnderAssert calls) := by
  obtain ⟨h, ran, level⟩ := clones_asserted h₀ kind handles clones calls
  refine ⟨h, ran, ?_⟩
  rw [level]
  exact wiredOr_lastLevel_iff calls

theorem clone_and_original_wired_or :
    let m := (freshSignal ⟨fun _ => false, fun _ => 0, 0, 0⟩ .hi).2.1
    ∃ h, run (cloneStep fun b : Bool => if b then m.clone else m)
        (freshSignal ⟨fun _ => false, fun _ => 0, 0, 0⟩ .hi).1
        [(false, .assert), (true, .assert)] = some h ∧
      (WiredOr [(false, Call.assert), (true, .assert)]
        ((freshSignal ⟨fun _ => false, fun _ => 0, 0, 0⟩ .hi).2.2.asserted h) ↔
        ¬ ClearsUnderAssert [(false, Call.assert), (true, .assert)]) := by
  apply clones_wired_or_iff
  intro b
  cases b with
  | false => exact .self
  | true => exact .clone .self

theorem clone_clear_drops_line :
    let m := (freshSignal ⟨fun _ => false, fun _ => 0, 0, 0⟩ .hi).2.1
    ∃ h, run (cloneStep fun b : Bool => if b then m.clone else m)
        (freshSignal ⟨fun _ => false, fun _ => 0, 0, 0⟩ .hi).1
        [(false, .assert), (true, .assert), (true, .clear)] = some h ∧
      ¬ WiredOr [(false, Call.assert), (true, .assert), (true, .clear)]
        ((freshSignal ⟨fun _ => false, fun _ => 0, 0, 0⟩ .hi).2.2.asserted h) := by
  refine ⟨_, rfl, ?_⟩
  unfold WiredOr
  decide

end Clicky
