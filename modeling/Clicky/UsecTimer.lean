import Clicky.CfgTimer
import Clicky.Lib.Runs
import Clicky.Lib.Ticker

/-! The microsecond timer, and what it and the configurable one make of the time between two reads.
Time is in nanoseconds. -/
namespace Clicky
open Runs

structure UsecTimer where
  val : U32 := 0
  last : Nat
  deriving DecidableEq, Repr

namespace UsecTimer

def r32 (s : UsecTimer) (now : Nat) (offset : U32) : Access UsecTimer U32 :=
  match offset with
  | 0x0 =>
    let elapsedAsMicros := BitVec.ofNat 32 ((now - s.last) / 1000)
    -- reads in a tight loop are less than a microsecond apart
    let s :=
      if elapsedAsMicros ≠ 0 then { val := s.val + elapsedAsMicros, last := now } else s
    .ok s s.val
  | _ => .raise s .unexpected

def w32 (s : UsecTimer) (offset _val : U32) : Access UsecTimer Unit :=
  match offset with
  | 0x0 => .raise s .invalidAccess
  | _ => .raise s .unexpected

def read (s : UsecTimer) (now : Nat) : Option UsecTimer := (s.r32 now 0x0).state?

/-- The microseconds that have passed, as far as 32 bits hold them. -/
def passed (start now : Nat) : U32 := BitVec.ofNat 32 ((now - start) / 1000)

/-- The last of a sequence of reads returns the time since the start. -/
def KeepsTime (start : Nat) (ts : List Nat) (now : Nat) : Prop :=
  ∃ s s', run read { last := start } ts = some s ∧ s.r32 now 0x0 = .ok s' (passed start now)

/-- The timer shows the count of a ticker. -/
def Shows (s : UsecTimer) (c : Ticker) : Prop := s.val = BitVec.ofNat 32 c.count ∧ s.last = c.last

theorem stands_iff (last now : Nat) :
    Ticker.Stands 1000 (2 ^ 32) last now ↔ BitVec.ofNat 32 ((now - last) / 1000) = 0 := by
  rw [← BitVec.toNat_inj, BitVec.toNat_ofNat]
  exact Iff.rfl

theorem r32_shows {s : UsecTimer} {c : Ticker} (shows : s.Shows c) (now : Nat) :
    ∃ s', s.r32 now 0x0 = .ok s' s'.val ∧ s'.Shows (c.tick 1000 (2 ^ 32) now) := by
  obtain ⟨count, last⟩ := shows
  refine ⟨_, rfl, ?_⟩
  rw [Ticker.tick]
  by_cases stands : Ticker.Stands 1000 (2 ^ 32) c.last now
  · have zero := (stands_iff _ _).mp stands
    rw [last, if_pos stands, if_neg (not_not.mpr zero)]
    exact ⟨count, last⟩
  · have nonzero := mt (stands_iff _ _).mpr stands
    rw [last, if_neg stands, if_pos nonzero]
    exact ⟨by rw [count, ← BitVec.ofNat_add], rfl⟩

theorem run_shows {s : UsecTimer} {c : Ticker} (shows : s.Shows c) (ts : List Nat) :
    ∃ s', run read s ts = some s' ∧ s'.Shows (ts.foldl (Ticker.tick 1000 (2 ^ 32)) c) := by
  induction ts generalizing s c with
  | nil => exact ⟨s, rfl, shows⟩
  | cons now ts ih =>
    obtain ⟨mid, first, counted⟩ := r32_shows shows now
    obtain ⟨s', others, shown⟩ := ih counted
    refine ⟨s', ?_, shown⟩
    rw [run, read, first]
    exact others

/-- What is shown is the time since the start exactly when the ticker counts it. -/
theorem shown_iff (count start now : Nat) :
    BitVec.ofNat 32 count = passed start now ↔ count ≡ (now - start) / 1000 [MOD 2 ^ 32] := by
  rw [passed, ← BitVec.toNat_inj, BitVec.toNat_ofNat, BitVec.toNat_ofNat]
  exact Iff.rfl

theorem keepsTime_iff {start now : Nat} {ts : List Nat}
    (ordered : (start :: (ts ++ [now])).Pairwise (· ≤ ·)) :
    KeepsTime start ts now ↔ Ticker.KeepsUp 1000 (2 ^ 32) start ts now := by
  have fresh : ({ last := start } : UsecTimer).Shows ⟨0, start⟩ := ⟨rfl, rfl⟩
  obtain ⟨s, ran, shows⟩ := run_shows fresh ts
  obtain ⟨s', returned, counted⟩ := r32_shows shows now
  rw [← Ticker.count_iff (by decide) _ ordered, ← shown_iff, ← counted.1]
  constructor
  · rintro ⟨t, t', same, right⟩
    cases ran.symm.trans same
    have values := returned.symm.trans right
    injection values with _ value
    exact Except.ok.inj value
  · intro right
    exact ⟨s, s', ran, by rw [returned, right]⟩

end UsecTimer

namespace CfgTimer

/-- The registers are brought up to date, whichever of them is read. -/
def read (s : CfgTimer) (r : Nat × U32) : Option CfgTimer := (s.r32 r.1 r.2).state?

/-- It counts down. -/
def KeepsTime (irq : Line) (start : Nat) (reads : List (Nat × U32)) (now : Nat) : Prop :=
  ∃ s s', run read { irq, last := start } reads = some s ∧
    s.r32 now 0x4 = .ok s' (-UsecTimer.passed start now)

def Shows (s : CfgTimer) (c : Ticker) : Prop := s.val = -BitVec.ofNat 32 c.count ∧ s.last = c.last

theorem neg_none : (0 : U32) = -BitVec.ofNat 32 0 := by decide

theorem updateRegs_shows {s : CfgTimer} {c : Ticker} (shows : s.Shows c) (now : Nat) :
    (s.updateRegs now).Shows (c.tick 1000 (2 ^ 32) now) := by
  obtain ⟨count, last⟩ := shows
  rw [Ticker.tick, updateRegs]
  by_cases stands : Ticker.Stands 1000 (2 ^ 32) c.last now
  · have zero := (UsecTimer.stands_iff _ _).mp stands
    rw [last, if_pos stands, if_neg (not_not.mpr zero)]
    exact ⟨count, last⟩
  · have nonzero := mt (UsecTimer.stands_iff _ _).mpr stands
    rw [last, if_neg stands, if_pos nonzero]
    refine ⟨?_, rfl⟩
    rw [count, BitVec.ofNat_add, BitVec.neg_add, BitVec.sub_eq_add_neg]

theorem read_shows {s : CfgTimer} {c : Ticker} (shows : s.Shows c) (r : Nat × U32) :
    ∃ s', s.read r = some s' ∧ s'.Shows (c.tick 1000 (2 ^ 32) r.1) := by
  have updated := updateRegs_shows shows r.1
  unfold read r32
  split <;> exact ⟨_, rfl, updated⟩

theorem r32_val (s : CfgTimer) (now : Nat) : ∃ s', s.r32 now 0x4 = .ok s' (s.updateRegs now).val :=
  ⟨_, rfl⟩

theorem run_shows {s : CfgTimer} {c : Ticker} (shows : s.Shows c) (reads : List (Nat × U32)) :
    ∃ s', run read s reads = some s' ∧
      s'.Shows ((reads.map Prod.fst).foldl (Ticker.tick 1000 (2 ^ 32)) c) := by
  induction reads generalizing s c with
  | nil => exact ⟨s, rfl, shows⟩
  | cons r reads ih =>
    obtain ⟨mid, first, counted⟩ := read_shows shows r
    obtain ⟨s', others, shown⟩ := ih counted
    refine ⟨s', ?_, shown⟩
    rw [run, first]
    exact others

theorem keepsTime_iff (irq : Line) {start now : Nat} {reads : List (Nat × U32)}
    (ordered : (start :: (reads.map Prod.fst ++ [now])).Pairwise (· ≤ ·)) :
    KeepsTime irq start reads now ↔
      Ticker.KeepsUp 1000 (2 ^ 32) start (reads.map Prod.fst) now := by
  have fresh : ({ irq, last := start } : CfgTimer).Shows ⟨0, start⟩ := ⟨neg_none, rfl⟩
  obtain ⟨s, ran, shows⟩ := run_shows fresh reads
  obtain ⟨s', returned⟩ := s.r32_val now
  rw [(updateRegs_shows shows now).1] at returned
  rw [← Ticker.count_iff (by decide) _ ordered, ← UsecTimer.shown_iff]
  constructor
  · rintro ⟨t, t', same, right⟩
    cases ran.symm.trans same
    have values := returned.symm.trans right
    injection values with _ value
    have negated := (BitVec.neg_eq_iff_eq_neg.mp (Except.ok.inj value))
    exact negated.trans BitVec.neg_neg
  · intro right
    exact ⟨s, s', ran, by rw [returned, right]⟩

end CfgTimer

/-- Both timers cut the time off to whole microseconds at every read, and start afresh from there.
They keep time as long as the parts cut off do not add up to a microsecond. -/
theorem timers_keep_time_iff {start now : Nat} (reads : List (Nat × U32))
    (ordered : (start :: (reads.map Prod.fst ++ [now])).Pairwise (· ≤ ·)) :
    (UsecTimer.KeepsTime start (reads.map Prod.fst) now ↔
        Ticker.KeepsUp 1000 (2 ^ 32) start (reads.map Prod.fst) now) ∧
      ∀ irq, CfgTimer.KeepsTime irq start reads now ↔
        Ticker.KeepsUp 1000 (2 ^ 32) start (reads.map Prod.fst) now :=
  ⟨UsecTimer.keepsTime_iff ordered, fun irq => CfgTimer.keepsTime_iff irq ordered⟩

theorem read_on_the_tick :
    (UsecTimer.KeepsTime 0 [1000] 2500 ↔ Ticker.KeepsUp 1000 (2 ^ 32) 0 [1000] 2500) ∧
      ∀ irq, CfgTimer.KeepsTime irq 0 [(1000, 0x4)] 2500 ↔
        Ticker.KeepsUp 1000 (2 ^ 32) 0 [1000] 2500 :=
  timers_keep_time_iff [(1000, 0x4)] (by decide)

/-- A read after a microsecond and a half, and one after three. -/
theorem reads_lose_time : ¬ UsecTimer.KeepsTime 0 [1500] 3000 ∧
    ¬ CfgTimer.KeepsTime (.new .hi) 0 [(1500, 0x4)] 3000 := by
  have behind : ¬ Ticker.KeepsUp 1000 (2 ^ 32) 0 [1500] 3000 := by
    unfold Ticker.KeepsUp
    decide
  have ordered : (0 :: ([1500] ++ [3000])).Pairwise (· ≤ ·) := by decide
  constructor
  · exact fun keeps => behind ((UsecTimer.keepsTime_iff ordered).mp keeps)
  · exact fun keeps => behind ((CfgTimer.keepsTime_iff _ ordered).mp keeps)

end Clicky
