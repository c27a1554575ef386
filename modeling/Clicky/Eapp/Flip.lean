import Clicky.Eapp.DmaOverlay
import Clicky.Lib.Blocks
import Clicky.Lib.Sweep

/-! The framebuffer as it is in memory, row by row, and the flip of a copy of it. -/
namespace Clicky.Flat

variable {α : Type}

def indexOutOfBounds : String := "index out of bounds"

/-- `slice::swap`. -/
def swap (fb : List α) (a b : Nat) : Except String (List α) :=
  match fb[a]?, fb[b]? with
  | some p, some q => .ok ((fb.set a q).set b p)
  | _, _ => .error indexOutOfBounds

/-- The products are at most the indices, so that they are in range where the indices are. -/
def flipVerticalInPlace (fb : List α) (width height : Nat) : Except String (List α) :=
  (List.range (height / 2)).foldlM (fun fb y =>
    let top := y * width
    let bottom := (height - 1 - y) * width
    (List.range width).foldlM (fun fb col => swap fb (top + col) (bottom + col)) fb) fb

theorem swap_ok {fb : List α} {a b : Nat} (first : a < fb.length) (second : b < fb.length) :
    ∃ out, swap fb a b = .ok out ∧ out.Perm fb ∧ ∀ i : Nat,
      out[i]? = if i = b then fb[a]? else if i = a then fb[b]? else fb[i]? := by
  refine ⟨(fb.set a fb[b]).set b fb[a], ?_, List.set_set_perm first second, fun i => ?_⟩
  · rw [swap, List.getElem?_eq_getElem first, List.getElem?_eq_getElem second]
  · rw [List.getElem?_set, List.getElem?_set, List.length_set, if_pos second, if_pos first,
      List.getElem?_eq_getElem first, List.getElem?_eq_getElem second]
    simp only [eq_comm]

/-- Row `y` has been exchanged with its mirror row up to the place `done`. -/
structure FlippedTo (fb : List α) (width height done : Nat) (out : List α) : Prop where
  perm : out.Perm fb
  each : ∀ y < height, ∀ x < width, out[y * width + x]? =
    if y * width + x < done ∨ (height - 1 - y) * width + x < done then
      fb[(height - 1 - y) * width + x]?
    else fb[y * width + x]?

theorem flippedTo_swap {fb out : List α} {width height y x : Nat}
    (full : fb.length = width * height) (row : y < height / 2) (column : x < width)
    (flipped : FlippedTo fb width height (y * width + x) out) :
    ∃ out', swap out (y * width + x) ((height - 1 - y) * width + x) = .ok out' ∧
      FlippedTo fb width height (y * width + x + 1) out' := by
  have size : out.length = height * width := by rw [flipped.perm.length_eq, full, Nat.mul_comm]
  have upper : y < height := by omega
  have lower : height - 1 - y < height := by omega
  obtain ⟨out', ok, perm, each⟩ := swap_ok (size ▸ Nat.place_lt upper column)
    (size ▸ Nat.place_lt lower column)
  refine ⟨out', ok, perm.trans flipped.perm, fun r inside c beside => ?_⟩
  -- Neither place of the two has been exchanged before.
  have back : height - 1 - (height - 1 - y) = y := by omega
  have order : y * width + x < (height - 1 - y) * width + x :=
    Nat.add_lt_add_right (Nat.mul_lt_mul_of_pos_right (by omega) (by omega)) x
  have top := flipped.each y upper x column
  have bottom := flipped.each (height - 1 - y) lower x column
  rw [if_neg (by omega)] at top
  rw [back, if_neg (by omega)] at bottom
  rw [each, top, bottom]
  by_cases atBottom : r * width + c = (height - 1 - y) * width + x
  · obtain ⟨rfl, rfl⟩ := (Nat.place_eq_iff beside column).mp atBottom
    rw [if_pos rfl, back, if_pos (by omega)]
  · rw [if_neg atBottom]
    by_cases atTop : r * width + c = y * width + x
    · obtain ⟨rfl, rfl⟩ := (Nat.place_eq_iff beside column).mp atTop
      rw [if_pos rfl, if_pos (by omega)]
    · have mirrored : (height - 1 - r) * width + c ≠ y * width + x := by
        intro same
        obtain ⟨rfl, rfl⟩ := (Nat.place_eq_iff beside column).mp same
        apply atBottom
        congr 2
        omega
      have later (place : Nat) (differs : place ≠ y * width + x) :
          place < y * width + x + 1 ↔ place < y * width + x := by omega
      rw [if_neg atTop, flipped.each r inside c beside]
      simp only [later _ atTop, later _ mirrored]

theorem flipVerticalInPlace_ok {fb : List α} {width height : Nat}
    (full : fb.length = width * height) :
    ∃ out, flipVerticalInPlace fb width height = .ok out ∧ out.Perm fb ∧
      ∀ y < height, ∀ x < width, out[y * width + x]? = fb[(height - 1 - y) * width + x]? := by
  have start : FlippedTo fb width height 0 fb := ⟨List.Perm.refl fb, fun y _ x _ => by simp⟩
  obtain ⟨out, ran, flipped⟩ := List.foldlM_grid_ok (FlippedTo fb width height) start
    fun y row x column out => flippedTo_swap full row column
  refine ⟨out, ran, flipped.perm, fun y row x column => ?_⟩
  rw [flipped.each y row x column]
  simp only [Nat.place_lt_iff column]
  by_cases outer : y < height / 2 ∨ height - 1 - y < height / 2
  · rw [if_pos outer]
  · have middle : height - 1 - y = y := by omega
    rw [if_neg outer, middle]

/-- A second flip undoes the first. -/
theorem flipVerticalInPlace_twice {fb out : List α} {width height : Nat}
    (full : fb.length = width * height) (ok : flipVerticalInPlace fb width height = .ok out) :
    flipVerticalInPlace out width height = .ok fb := by
  obtain ⟨_, ok', perm, each⟩ := flipVerticalInPlace_ok full
  cases ok.symm.trans ok'
  have size : out.length = width * height := perm.length_eq.trans full
  obtain ⟨again, ok, perm', each'⟩ := flipVerticalInPlace_ok size
  have same : again = fb := by
    refine List.ext_places (perm'.length_eq.trans size) full fun y row x column => ?_
    have back : height - 1 - (height - 1 - y) = y := by omega
    rw [each' y row x column, each _ (by omega) x column, back]
  rw [ok, same]

def flat (fb : Framebuffer) : List Rgba8 :=
  (List.finRange fbHeight).flatMap fun y => (List.finRange fbWidth).map fun x => fb (y, x)

theorem length_flat (fb : Framebuffer) : (flat fb).length = fbWidth * fbHeight := by
  rw [flat, List.length_flatMap_const fun y _ => by rw [List.length_map, List.length_finRange],
    List.length_finRange, Nat.mul_comm]

theorem getElem?_flat (fb : Framebuffer) (p : Pixel) :
    (flat fb)[p.1.val * fbWidth + p.2.val]? = some (fb p) := by
  have columns : 0 < fbWidth := by decide
  have column : (p.1.val * fbWidth + p.2.val) % fbWidth = p.2.val := by
    rw [Nat.mul_add_mod_self_right, Nat.mod_eq_of_lt p.2.isLt]
  have row : (p.1.val * fbWidth + p.2.val) / fbWidth = p.1.val := by
    rw [Nat.mul_comm, Nat.mul_add_div columns, Nat.div_eq_of_lt p.2.isLt, Nat.add_zero]
  rw [flat, List.getElem?_flatMap_const columns fun y _ => by
    rw [List.length_map, List.length_finRange], row, column]
  simp

/-- A list of all pixels is the framebuffer with these pixels. -/
theorem eq_flat {fb : Framebuffer} {l : List Rgba8} (full : l.length = fbWidth * fbHeight)
    (each : ∀ p : Pixel, l[p.1.val * fbWidth + p.2.val]? = some (fb p)) : l = flat fb :=
  List.ext_places full (length_flat fb) fun y row x column => by
    rw [each (⟨y, row⟩, ⟨x, column⟩), getElem?_flat fb (⟨y, row⟩, ⟨x, column⟩)]

theorem flipVerticalInPlace_flat (fb : Framebuffer) :
    flipVerticalInPlace (flat fb) fbWidth fbHeight = .ok (flat (Clicky.flipVerticalInPlace fb)) := by
  obtain ⟨out, ok, perm, each⟩ := flipVerticalInPlace_ok (length_flat fb)
  rw [ok]
  refine congrArg _ (eq_flat (perm.length_eq.trans (length_flat fb)) fun p => ?_)
  have row : fbHeight - 1 - p.1.val = (mirror p).1.val := (Fin.val_rev p.1).symm ▸ by omega
  rw [each _ p.1.isLt _ p.2.isLt, flipVerticalInPlace_eq, row]
  exact getElem?_flat fb (mirror p)

/-- The internal framebuffer, and the copy that is shown. -/
structure Presentation where
  framebuffer : List Rgba8
  out : List Rgba8
  deriving DecidableEq

def present (framebuffer : List Rgba8) (presentVflip ndcFrame : Bool) :
    Except String Presentation := do
  let copied : Presentation := { framebuffer, out := framebuffer }
  if presentVflip && !ndcFrame then
    let out ← flipVerticalInPlace copied.out fbWidth fbHeight
    return { copied with out }
  else return copied

theorem present_flat (s : LiveGlState) : present (flat s.framebuffer) s.presentVflip s.ndcFrame =
    .ok { framebuffer := flat s.framebuffer, out := flat s.present } := by
  unfold present LiveGlState.present LiveGlState.flips
  split
  · dsimp only
    rw [flipVerticalInPlace_flat]
    rfl
  · rfl

/-- A flip moves all pixels to the mirror row, and what is shown is made from a copy. -/
theorem flip_exact {width height : Nat} {fb : List α} (full : fb.length = width * height)
    (s : LiveGlState) :
    (∃ out, flipVerticalInPlace fb width height = .ok out ∧ out.Perm fb ∧
      (∀ x < width, ∀ y < height, out[(height - 1 - y) * width + x]? = fb[y * width + x]?) ∧
      flipVerticalInPlace out width height = .ok fb) ∧
    present (flat s.framebuffer) s.presentVflip s.ndcFrame =
      .ok { framebuffer := flat s.framebuffer, out := flat s.present } ∧
    s.completeFrame.1.framebuffer = s.framebuffer := by
  refine ⟨?_, present_flat s, s.completeFrame_frame.2.1⟩
  obtain ⟨out, ok, perm, each⟩ := flipVerticalInPlace_ok full
  refine ⟨out, ok, perm, fun x column y row => ?_, flipVerticalInPlace_twice full ok⟩
  have back : height - 1 - (height - 1 - y) = y := by omega
  rw [each _ (by omega) x column, back]

theorem three_rows_flipped :
    (∃ out, flipVerticalInPlace [1, 2, 3, 4, 5, 6] 2 3 = .ok out ∧ out.Perm [1, 2, 3, 4, 5, 6] ∧
      (∀ x < 2, ∀ y < 3, out[(3 - 1 - y) * 2 + x]? = [1, 2, 3, 4, 5, 6][y * 2 + x]?) ∧
      flipVerticalInPlace out 2 3 = .ok [1, 2, 3, 4, 5, 6]) ∧
    present (flat (LiveGlState.new true false false).framebuffer) true false =
      .ok { framebuffer := flat (LiveGlState.new true false false).framebuffer,
            out := flat (LiveGlState.new true false false).present } ∧
    (LiveGlState.new true false false).completeFrame.1.framebuffer =
      (LiveGlState.new true false false).framebuffer :=
  flip_exact (by decide) (.new true false false)

end Clicky.Flat
