import Clicky.Memory
import Clicky.Signal

/-! The click wheel: the callback that turns it, and the device that the guest reads its position
from. The two share the lines and the position. -/
namespace Clicky

structure Controls where
  action : Line
  up : Line
  down : Line
  left : Line
  right : Line
  wheelActive : Line
  wheelData : U8 := 0

namespace Controls

/-- The callback for a scroll, with the movement as it is after it has been scaled and cast to a
signed byte. A byte that wraps around is reduced to one of the 96 clicks of a turn. -/
def scroll (c : Controls) (delta : BitVec 8) : Controls :=
  { c with
    wheelActive := if c.wheelActive.isAsserting then c.wheelActive.clear else c.wheelActive.assert
    wheelData := (c.wheelData + delta) % 96 }

end Controls

structure OptoWheel where
  irq : Line
  controls : Option Controls := none
  hold : Option Line := none
  controlsStatus : U32 := 0

namespace OptoWheel

def notRegistered : String := "no controls registered with i2c"
def doesNotFit : String := "value does not fit into bit range"

def registerControls (s : OptoWheel) (controls : Controls) (hold : Line) : OptoWheel :=
  { s with controls := some controls, hold := some hold }

/-- The position has seven bits of the word. -/
def keypad (c : Controls) (hold : Line) : U32 :=
  (((((((((0 : U32).setBits 0 7 (if hold.asserted then 0x1a else 0)).setBit 8 c.action.asserted).setBit
    9 c.right.asserted).setBit 10 c.left.asserted).setBit 11 c.down.asserted).setBit
    12 c.up.asserted).setBits 16 22 (c.wheelData.setWidth 32)).setBit 30 true).setBit 31 hold.asserted

def r32 (s : OptoWheel) (offset : U32) : Access OptoWheel U32 :=
  match offset with
  | 0x00 => .raise s (.stubRead .debug 0)
  | 0x04 => .raise s (.stubRead .debug (s.controlsStatus ||| 0x04000000))
  | 0x20 => .raise s .unimplemented
  | 0x24 => .raise s .unimplemented
  | 0x40 =>
    match s.controls, s.hold with
    | some controls, some hold =>
      if controls.wheelData.toNat < 2 ^ (22 + 1 - 16) then
        .raise s (.stubRead .debug (keypad controls hold))
      else .panic doesNotFit
    | _, _ => .raise s (.fatal notRegistered)
  | _ => .raise s .unexpected

def w32 (s : OptoWheel) (offset val : U32) : Access OptoWheel Unit :=
  match offset with
  | 0x00 => .raise { s with irq := s.irq.clear } (.stubWrite .debug)
  | 0x04 => .raise { s with controlsStatus := val } (.stubWrite .debug)
  | 0x20 => .raise s (.stubWrite .debug)
  | 0x24 => .raise s (.stubWrite .debug)
  | 0x40 => .raise { s with irq := s.irq.clear } (.stubWrite .debug)
  | _ => .raise s .unexpected

instance : Memory OptoWheel where
  r32 := r32
  w32 := w32

end OptoWheel

namespace Controls

/-- A scroll goes below the first click, before the byte is reduced. -/
def Below (c : Controls) (delta : BitVec 8) : Prop := (c.wheelData.toNat : Int) + delta.toInt < 0

instance (c : Controls) (delta : BitVec 8) : Decidable (c.Below delta) :=
  inferInstanceAs (Decidable (_ < _))

/-- How often that happens. -/
def timesBelow : Controls → List (BitVec 8) → Nat
  | _, [] => 0
  | c, delta :: ds => (if c.Below delta then 1 else 0) + (c.scroll delta).timesBelow ds

def scrolls (c : Controls) (ds : List (BitVec 8)) : Controls := ds.foldl scroll c

/-- How far the wheel is turned in all. -/
def movement : List (BitVec 8) → Int
  | [] => 0
  | delta :: ds => delta.toInt + movement ds

/-- The position is where a wheel of 96 clicks would be. -/
def InPlace (c c' : Controls) (ds : List (BitVec 8)) : Prop :=
  (c'.wheelData.toNat : Int) = (c.wheelData.toNat + movement ds) % 96

theorem scroll_lt (c : Controls) (delta : BitVec 8) : (c.scroll delta).wheelData.toNat < 96 := by
  have reduced : (c.scroll delta).wheelData.toNat = (c.wheelData + delta).toNat % 96 :=
    BitVec.toNat_umod
  rw [reduced]
  exact Nat.mod_lt _ (by decide)

theorem scrolls_lt {c : Controls} (low : c.wheelData.toNat < 96) (ds : List (BitVec 8)) :
    (c.scrolls ds).wheelData.toNat < 96 := by
  induction ds generalizing c with
  | nil => exact low
  | cons delta ds ih => exact ih (c.scroll_lt delta)

/-- What is below the first click wraps around to 256, which leaves 64 too many. -/
theorem toNat_scroll {c : Controls} (low : c.wheelData.toNat < 96) (delta : BitVec 8) :
    ((c.scroll delta).wheelData.toNat : Int) =
      (c.wheelData.toNat + delta.toInt + 64 * if c.Below delta then 1 else 0) % 96 := by
  have reduced : (c.scroll delta).wheelData.toNat = (c.wheelData + delta).toNat % 96 :=
    BitVec.toNat_umod
  have bound := delta.isLt
  have signed := BitVec.toInt_eq_toNat_cond delta
  rw [reduced, BitVec.toNat_add]
  by_cases below : c.Below delta
  · rw [if_pos below]
    unfold Below at below
    split at signed <;> omega
  · rw [if_neg below]
    unfold Below at below
    split at signed <;> omega

theorem toNat_scrolls {c : Controls} (low : c.wheelData.toNat < 96) (ds : List (BitVec 8)) :
    ((c.scrolls ds).wheelData.toNat : Int) =
      (c.wheelData.toNat + movement ds + 64 * c.timesBelow ds) % 96 := by
  induction ds generalizing c with
  | nil =>
    simp only [scrolls, List.foldl_nil, movement, timesBelow]
    omega
  | cons delta ds ih =>
    have first := toNat_scroll low delta
    have rest := ih (c.scroll_lt delta)
    rw [scrolls, List.foldl_cons]
    rw [scrolls] at rest
    rw [rest, first, movement, timesBelow]
    split <;> omega

/-- The byte that the wheel is kept in has no whole number of turns: each scroll below the first
click puts the position 64 clicks off, and three of them bring it back. It is below 96 at any time,
and fits the field that it is read from. -/
theorem wheel_in_place_iff {c : Controls} (low : c.wheelData.toNat < 96) (ds : List (BitVec 8)) :
    (c.InPlace (c.scrolls ds) ds ↔ 3 ∣ c.timesBelow ds) ∧ (c.scrolls ds).wheelData.toNat < 96 ∧
      ∀ (s : OptoWheel) (hold : Line),
        ∃ e, (s.registerControls (c.scrolls ds) hold).r32 0x40 =
          .raise (s.registerControls (c.scrolls ds) hold) e := by
  have turned := toNat_scrolls low ds
  have inside := scrolls_lt low ds
  refine ⟨?_, inside, fun s hold => ⟨_, if_pos ?_⟩⟩
  · unfold InPlace
    rw [turned]
    omega
  · exact Nat.lt_trans inside (by decide)

def atRest : Controls where
  action := .new .hi
  up := .new .hi
  down := .new .hi
  left := .new .hi
  right := .new .hi
  wheelActive := .new .hi

theorem forward_in_place :
    (atRest.InPlace (atRest.scrolls [2, 4]) [2, 4] ↔ 3 ∣ atRest.timesBelow [2, 4]) ∧
      (atRest.scrolls [2, 4]).wheelData.toNat < 96 ∧
      ∀ (s : OptoWheel) (hold : Line),
        ∃ e, (s.registerControls (atRest.scrolls [2, 4]) hold).r32 0x40 =
          .raise (s.registerControls (atRest.scrolls [2, 4]) hold) e :=
  wheel_in_place_iff (by decide) [2, 4]

/-- One click back from the first is the last but 32. -/
theorem one_back_astray : ¬ atRest.InPlace (atRest.scrolls [-1]) [-1] := by
  unfold InPlace
  decide

end Controls
end Clicky
