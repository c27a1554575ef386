import Mathlib.Data.Nat.ModEq
import Mathlib.Data.List.Pairwise

/-! A counter of whole units of time, brought up to date from time to time by the units that have
passed since it last was. It counts modulo `wrap`, and stays where it is when none have passed, or
as many as it cannot tell from none. -/
structure Ticker where
  count : Nat := 0
  last : Nat

namespace Ticker

variable (unit wrap : Nat)

/-- The counter does not move at an instant, seen from the one it was moved at last. -/
def Stands (last now : Nat) : Prop := (now - last) / unit % wrap = 0

instance (last now : Nat) : Decidable (Stands unit wrap last now) :=
  inferInstanceAs (Decidable (_ = _))

def tick (c : Ticker) (now : Nat) : Ticker :=
  if Stands unit wrap c.last now then c else { count := c.count + (now - c.last) / unit, last := now }

/-- The instant the counter was moved at last. -/
def reference : Nat → List Nat → Nat
  | last, [] => last
  | last, now :: ts => reference (if Stands unit wrap last now then last else now) ts

/-- What was cut off when the counter was moved. -/
def dropped : Nat → List Nat → Nat
  | _, [] => 0
  | last, now :: ts =>
    if Stands unit wrap last now then dropped last ts else (now - last) % unit + dropped now ts

/-- The parts cut off, and the part that is going to be, make up no unit that the counter could
tell. -/
def KeepsUp (start : Nat) (ts : List Nat) (now : Nat) : Prop :=
  (dropped unit wrap start ts + (now - reference unit wrap start ts) % unit) / unit % wrap = 0

theorem foldl_tick {start : Nat} {ts : List Nat} (ordered : (start :: ts).Pairwise (· ≤ ·))
    (count : Nat) :
    (ts.foldl (tick unit wrap) ⟨count, start⟩).last = reference unit wrap start ts ∧
      unit * (ts.foldl (tick unit wrap) ⟨count, start⟩).count + dropped unit wrap start ts + start =
        unit * count + (ts.foldl (tick unit wrap) ⟨count, start⟩).last := by
  induction ts generalizing start count with
  | nil => exact ⟨rfl, rfl⟩
  | cons now ts ih =>
    obtain ⟨first, others⟩ := List.pairwise_cons.mp ordered
    have later : start ≤ now := first now List.mem_cons_self
    rw [List.foldl_cons, tick, reference, dropped]
    by_cases stands : Stands unit wrap start now
    · simp only [if_pos stands]
      apply ih
      exact List.pairwise_cons.mpr ⟨fun t member => first t (List.mem_cons_of_mem now member),
        (List.pairwise_cons.mp others).2⟩
    · simp only [if_neg stands]
      obtain ⟨last, total⟩ := ih others (count + (now - start) / unit)
      have parts := Nat.div_add_mod (now - start) unit
      refine ⟨last, ?_⟩
      rw [Nat.mul_add] at total
      omega

theorem count_tick (c : Ticker) (now : Nat) :
    (c.tick unit wrap now).count ≡ c.count + (now - c.last) / unit [MOD wrap] := by
  unfold tick
  by_cases stands : Stands unit wrap c.last now
  · rw [if_pos stands]
    have none_passed : 0 ≡ (now - c.last) / unit [MOD wrap] := by
      rw [Nat.ModEq, Nat.zero_mod]
      exact stands.symm
    exact none_passed.add_left c.count
  · rw [if_neg stands]

theorem reference_le {start now : Nat} {ts : List Nat}
    (ordered : (start :: (ts ++ [now])).Pairwise (· ≤ ·)) : reference unit wrap start ts ≤ now := by
  induction ts generalizing start with
  | nil => exact (List.pairwise_cons.mp ordered).1 now List.mem_cons_self
  | cons t ts ih =>
    obtain ⟨first, others⟩ := List.pairwise_cons.mp ordered
    rw [reference]
    split
    · apply ih
      exact List.pairwise_cons.mpr ⟨fun u member => first u (List.mem_cons_of_mem t member),
        (List.pairwise_cons.mp others).2⟩
    · exact ih others

/-- The units that pass between the first instant and the last are counted exactly when the parts
that were cut off do not add up to one. -/
theorem count_iff {unit : Nat} (positive : 0 < unit) (wrap : Nat) {start now : Nat} {ts : List Nat}
    (ordered : (start :: (ts ++ [now])).Pairwise (· ≤ ·)) :
    ((ts.foldl (tick unit wrap) ⟨0, start⟩).tick unit wrap now).count ≡
        (now - start) / unit [MOD wrap] ↔ KeepsUp unit wrap start ts now := by
  have begun : (start :: ts).Pairwise (· ≤ ·) := by
    rw [← List.cons_append] at ordered
    exact (List.pairwise_append.mp ordered).1
  obtain ⟨last, total⟩ := foldl_tick unit wrap begun 0
  have late := reference_le unit wrap ordered
  have counted := count_tick unit wrap (ts.foldl (tick unit wrap) ⟨0, start⟩) now
  unfold KeepsUp
  rw [← last] at late ⊢
  generalize ts.foldl (tick unit wrap) ⟨0, start⟩ = c at counted late total ⊢
  generalize dropped unit wrap start ts = lost at total ⊢
  have passed : now - start = lost + (now - c.last) % unit + unit * ((now - c.last) / unit + c.count) := by
    have parts := Nat.div_add_mod (now - c.last) unit
    rw [Nat.mul_add]
    omega
  have units : (now - start) / unit =
      c.count + (now - c.last) / unit + (lost + (now - c.last) % unit) / unit := by
    rw [passed, Nat.add_mul_div_left _ _ positive]
    omega
  rw [units]
  constructor
  · intro right
    have shifted : c.count + (now - c.last) / unit + 0 ≡
        c.count + (now - c.last) / unit + (lost + (now - c.last) % unit) / unit [MOD wrap] :=
      counted.symm.trans right
    have same : 0 % wrap = (lost + (now - c.last) % unit) / unit % wrap :=
      Nat.ModEq.add_left_cancel' _ shifted
    exact same.symm.trans (Nat.zero_mod wrap)
  · intro kept
    have none_lost : (lost + (now - c.last) % unit) / unit ≡ 0 [MOD wrap] := by
      rw [Nat.ModEq, kept, Nat.zero_mod]
    exact counted.trans (none_lost.add_left _).symm

end Ticker
