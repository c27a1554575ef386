import Clicky.Lib.Outcome
import Clicky.Lib.Runs

/-! Signal lines. The bottom layer has the shared cells of the source on a heap of
their own, and handles that point to them. `Line` is what one group of handles shares,
with its counting invariant; the devices further up are written over lines. -/
namespace Clicky

inductive TriggerKind where
  | hi | lo | edge
  deriving DecidableEq, Repr

def TriggerKind.fires (oldVal newVal : Bool) : TriggerKind → Bool
  | .hi => !oldVal && newVal
  | .lo => oldVal && !newVal
  | .edge => (oldVal && !newVal) || (!oldVal && newVal)

/-- The `AtomicBool` and `AtomicIsize` cells behind the `Arc`s, by address. -/
structure Heap where
  bools : Nat → Bool
  isizes : Nat → Int
  nextBool : Nat
  nextIsize : Nat

namespace Heap

def newBool (h : Heap) (v : Bool) : Heap × Nat :=
  ({ h with bools := fun a => if a = h.nextBool then v else h.bools a, nextBool := h.nextBool + 1 },
    h.nextBool)

def newIsize (h : Heap) (v : Int) : Heap × Nat :=
  ({ h with isizes := fun a => if a = h.nextIsize then v else h.isizes a,
            nextIsize := h.nextIsize + 1 }, h.nextIsize)

def storeBool (h : Heap) (addr : Nat) (v : Bool) : Heap :=
  { h with bools := fun a => if a = addr then v else h.bools a }

/-- `fetch_add`, and `fetch_sub` with a negative `d`: the old value and the new heap. -/
def fetchAdd (h : Heap) (addr : Nat) (d : Int) : Int × Heap :=
  (h.isizes addr, { h with isizes := fun a => if a = addr then h.isizes a + d else h.isizes a })

end Heap

structure Trigger where
  kind : TriggerKind
  trigger : Nat
  deriving DecidableEq

def Trigger.new (h : Heap) (kind : TriggerKind) : Heap × Trigger :=
  let (h, cell) := h.newBool false
  (h, { kind, trigger := cell })

def Trigger.update (t : Trigger) (h : Heap) (oldVal newVal : Bool) : Heap :=
  if t.kind.fires oldVal newVal then h.storeBool t.trigger true else h

structure Master where
  trigger : Trigger
  ownSignal : Nat
  signal : Nat
  deriving DecidableEq

structure Slave where
  signal : Nat
  deriving DecidableEq

def Signal.new (h : Heap) (trigger : Trigger) : Heap × Master × Slave :=
  let (h, signal) := h.newIsize 0
  let (h, ownSignal) := h.newBool false
  (h, { trigger, ownSignal, signal }, { signal })

/-- `derive(Clone)`: every field is cloned, and cloning an `Arc` copies the pointer. -/
def Master.clone (m : Master) : Master :=
  { trigger := m.trigger, ownSignal := m.ownSignal, signal := m.signal }

def Slave.asserted (s : Slave) (h : Heap) : Bool := h.isizes s.signal ≠ 0

namespace Master

def assert (m : Master) (h : Heap) : Outcome Empty Heap Unit :=
  if h.bools m.ownSignal then .ok h ()
  else
    let h := h.storeBool m.ownSignal true
    let (oldVal, h) := h.fetchAdd m.signal 1
    if 0 ≤ oldVal then .ok (m.trigger.update h (oldVal ≠ 0) true) ()
    else .panic "assertion failed: old_val >= 0"

def clear (m : Master) (h : Heap) : Outcome Empty Heap Unit :=
  if !h.bools m.ownSignal then .ok h ()
  else
    let h := h.storeBool m.ownSignal false
    let (oldVal, h) := h.fetchAdd m.signal (-1)
    if 0 < oldVal then .ok (m.trigger.update h (oldVal ≠ 0) false) ()
    else .panic "assertion failed: old_val > 0"

def isAsserting (m : Master) (h : Heap) : Bool := h.bools m.ownSignal

end Master

inductive Call where
  | assert | clear
  deriving DecidableEq, Repr

def Call.level : Call → Bool
  | .assert => true
  | .clear => false

def Master.call (m : Master) (h : Heap) : Call → Outcome Empty Heap Unit
  | .assert => m.assert h
  | .clear => m.clear h

inductive Master.CloneOf (m : Master) : Master → Prop where
  | self : CloneOf m m
  | clone {c : Master} : CloneOf m c → CloneOf m c.clone

theorem Master.CloneOf.eq {m c : Master} (h : m.CloneOf c) : c = m := by
  induction h with
  | self => rfl
  | clone _ ih => rw [ih]; rfl

structure Irq.Sender where
  master : Master

def Irq.Sender.assert (s : Irq.Sender) (h : Heap) : Outcome Empty Heap Unit := s.master.assert h
def Irq.Sender.clear (s : Irq.Sender) (h : Heap) : Outcome Empty Heap Unit := s.master.clear h
def Irq.Sender.clone (s : Irq.Sender) : Irq.Sender := { master := s.master.clone }

def Irq.Sender.call (s : Irq.Sender) (h : Heap) : Call → Outcome Empty Heap Unit
  | .assert => s.assert h
  | .clear => s.clear h

/-- `gpio::Sender`. It cannot be cloned. -/
structure Gpio.Sender where
  master : Master

def Gpio.Sender.setHigh (s : Gpio.Sender) (h : Heap) : Outcome Empty Heap Unit := s.master.assert h
def Gpio.Sender.setLow (s : Gpio.Sender) (h : Heap) : Outcome Empty Heap Unit := s.master.clear h

def Gpio.Sender.call (s : Gpio.Sender) (h : Heap) : Call → Outcome Empty Heap Unit
  | .assert => s.setHigh h
  | .clear => s.setLow h

theorem Irq.Sender.call_eq (s : Irq.Sender) (h : Heap) (c : Call) :
    s.call h c = s.master.call h c := by
  cases c <;> rfl

theorem Gpio.Sender.call_eq (s : Gpio.Sender) (h : Heap) (c : Call) :
    s.call h c = s.master.call h c := by
  cases c <;> rfl

/-- The cells one group of handles shares. The counter is 1 exactly while the group's
`own_signal` is set, so neither assertion of the source can fire. -/
@[ext] structure Line where
  kind : TriggerKind
  ownSignal : Bool
  signal : Int
  trigger : Bool
  counted : signal = if ownSignal then 1 else 0

namespace Line

def new (kind : TriggerKind) : Line :=
  { kind, ownSignal := false, signal := 0, trigger := false, counted := rfl }

def assert (l : Line) : Line :=
  if own : l.ownSignal then l
  else
    { kind := l.kind, ownSignal := true, signal := l.signal + 1
      trigger := l.kind.fires (l.signal ≠ 0) true || l.trigger
      counted := by simp [l.counted, own] }

def clear (l : Line) : Line :=
  if own : l.ownSignal then
    { kind := l.kind, ownSignal := false, signal := l.signal - 1
      trigger := l.kind.fires (l.signal ≠ 0) false || l.trigger
      counted := by simp [l.counted, own] }
  else l

def call (l : Line) : Call → Line
  | .assert => l.assert
  | .clear => l.clear

def isAsserting (l : Line) : Bool := l.ownSignal
def asserted (l : Line) : Bool := l.signal ≠ 0
def check (l : Line) : Bool := l.trigger
def clearTrigger (l : Line) : Line := { l with trigger := false }

@[simp] theorem asserted_eq (l : Line) : l.asserted = l.ownSignal := by
  cases h : l.ownSignal <;> simp [asserted, l.counted, h]

@[simp] theorem assert_ownSignal (l : Line) : l.assert.ownSignal = true := by
  unfold assert
  split <;> simp_all

@[simp] theorem clear_ownSignal (l : Line) : l.clear.ownSignal = false := by
  unfold clear
  split <;> simp_all

@[simp] theorem assert_kind (l : Line) : l.assert.kind = l.kind := by
  unfold assert
  split <;> rfl

@[simp] theorem clear_kind (l : Line) : l.clear.kind = l.kind := by
  unfold clear
  split <;> rfl

@[simp] theorem call_ownSignal (l : Line) (c : Call) : (l.call c).ownSignal = c.level := by
  cases c <;> simp [call, Call.level]

@[simp] theorem clearTrigger_ownSignal (l : Line) : l.clearTrigger.ownSignal = l.ownSignal := rfl
@[simp] theorem clearTrigger_trigger (l : Line) : l.clearTrigger.trigger = false := rfl

theorem assert_eq_self_iff (l : Line) : l.assert = l ↔ l.ownSignal = true := by
  constructor
  · intro same
    rw [← same, assert_ownSignal]
  · intro own
    rw [assert, dif_pos own]

theorem clear_eq_self_iff (l : Line) : l.clear = l ↔ l.ownSignal = false := by
  constructor
  · intro same
    rw [← same, clear_ownSignal]
  · intro low
    rw [clear, dif_neg (by simp [low])]

theorem clear_trigger_hi (l : Line) (hi : l.kind = .hi) : l.clear.trigger = l.trigger := by
  unfold clear
  split <;> simp [hi, TriggerKind.fires]

end Line

/-- The group of `m` is in state `l` on the heap. -/
structure Master.Reads (m : Master) (h : Heap) (l : Line) : Prop where
  kind : m.trigger.kind = l.kind
  ownSignal : h.bools m.ownSignal = l.ownSignal
  signal : h.isizes m.signal = l.signal
  trigger : h.bools m.trigger.trigger = l.trigger
  apart : m.trigger.trigger ≠ m.ownSignal

structure Master.Frames (m : Master) (h h' : Heap) : Prop where
  bools : ∀ a, a ≠ m.ownSignal → a ≠ m.trigger.trigger → h'.bools a = h.bools a
  isizes : ∀ a, a ≠ m.signal → h'.isizes a = h.isizes a

theorem Trigger.update_bools (t : Trigger) (h : Heap) (oldVal newVal : Bool) (a : Nat) :
    (t.update h oldVal newVal).bools a =
      if a = t.trigger then t.kind.fires oldVal newVal || h.bools a else h.bools a := by
  unfold Trigger.update
  split
  · rename_i fires
    simp [Heap.storeBool, fires]
  · rename_i still
    simp [still]

@[simp] theorem Trigger.update_isizes (t : Trigger) (h : Heap) (oldVal newVal : Bool) :
    (t.update h oldVal newVal).isizes = h.isizes := by
  unfold Trigger.update
  split <;> rfl

theorem Master.assert_line {m : Master} {h : Heap} {l : Line} (reads : m.Reads h l) :
    (m.assert h).Ensures fun h' _ => m.Reads h' l.assert ∧ m.Frames h h' := by
  have apart := reads.apart
  unfold Master.assert Line.assert
  rw [reads.ownSignal]
  split
  · exact ⟨reads, fun _ _ _ => rfl, fun _ _ => rfl⟩
  · rename_i own
    have low : l.signal = 0 := by simpa [own] using l.counted
    simp only [Heap.fetchAdd, Heap.storeBool, reads.signal, low, Int.le_refl, if_true,
      Outcome.ensures_done]
    refine ⟨⟨reads.kind, ?_, ?_, ?_, apart⟩, ⟨?_, ?_⟩⟩
    · simp [Trigger.update_bools, apart.symm]
    · simp [reads.signal, low]
    · simp [Trigger.update_bools, apart, reads.kind, reads.trigger]
    · intro a ho ht
      simp [Trigger.update_bools, ho, ht]
    · intro a hs
      simp [hs]

theorem Master.clear_line {m : Master} {h : Heap} {l : Line} (reads : m.Reads h l) :
    (m.clear h).Ensures fun h' _ => m.Reads h' l.clear ∧ m.Frames h h' := by
  have apart := reads.apart
  unfold Master.clear Line.clear
  rw [reads.ownSignal]
  split
  · rename_i own
    have low : ¬ l.ownSignal = true := by simpa using own
    simp only [dif_neg low]
    exact ⟨reads, fun _ _ _ => rfl, fun _ _ => rfl⟩
  · rename_i own
    have set : l.ownSignal = true := by simpa using own
    have high : l.signal = 1 := by simpa [set] using l.counted
    simp only [dif_pos set, Heap.fetchAdd, Heap.storeBool, reads.signal, high, Int.zero_lt_one,
      if_true, Outcome.ensures_done]
    refine ⟨⟨reads.kind, ?_, ?_, ?_, apart⟩, ⟨?_, ?_⟩⟩
    · simp [Trigger.update_bools, apart.symm]
    · simp [reads.signal, high]
    · simp [Trigger.update_bools, apart, reads.kind, reads.trigger]
    · intro a ho ht
      simp [Trigger.update_bools, ho, ht]
    · intro a hs
      simp [hs]

/-- On the heap a call acts on its group as on a line, and on nothing else. -/
theorem Master.call_line {m : Master} {h : Heap} {l : Line} (reads : m.Reads h l) (c : Call) :
    (m.call h c).Ensures fun h' _ => m.Reads h' (l.call c) ∧ m.Frames h h' := by
  cases c with
  | assert => exact m.assert_line reads
  | clear => exact m.clear_line reads

end Clicky
