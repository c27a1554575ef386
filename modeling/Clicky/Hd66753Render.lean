import Clicky.Hd66753
import Clicky.Lib.Blocks

/-! What the window shows of the LCD controller's memory. -/
namespace Clicky
open Runs

def cgramWidth : Nat := 168

/-- The four shades, from black to white. -/
def palette (idx : BitVec 2) : U32 :=
  (#v[0xff000000, 0xff686868, 0xffb8b8b9, 0xffffffff] : Vector U32 (2 ^ 2)).get idx.toFin

/-- The `i`-th of the eight pixels of a word. -/
def pixelOf (w : U16) (i : Nat) : BitVec 2 := (w >>> (i * 2)).setWidth 2

namespace Hd66753

def assertionFailed : String := "assertion failed: `(left == right)`"

def height (s : Hd66753) : Nat :=
  match s.ireg.nl with
  | 0b11111 => 132
  | nl => (nl.toNat + 1) * 8

/-- The words of a row that are shown, from left to right. -/
def wordsOf (sgs : Bool) (row : List U16) : List U16 :=
  if sgs then row.take (cgramWidth * 2 / 8 / 2) else (row.take (cgramWidth * 2 / 8 / 2)).reverse

def pixelsOf (ireg : InternalRegs) (w : U16) : List U32 :=
  (List.range 8).map fun i =>
    let i := if ireg.sgs then i else 7 - i
    let idx := pixelOf w i
    if ireg.rev then palette idx else palette (3 - idx)

/-- The whole of the buffer is replaced by what is shown. -/
def renderCallback (s : Hd66753) (buf : List U32) : Outcome Empty (List U32) (Nat × Nat) :=
  let rows := (s.cgram.toList.chunksExact (emuCgramWidth * 2 / 8 / 2)).take s.height
  let cgramWindow := rows.flatMap (wordsOf s.ireg.sgs)
  let newBuf := cgramWindow.flatMap (pixelsOf s.ireg)
  let buf := buf.drop buf.length ++ newBuf
  if buf.length = cgramWidth * s.height then .ok buf (cgramWidth, s.height)
  else .panic assertionFailed

/-- A pixel of the screen: the column is counted from the other side of the memory unless `SGS` is
set, and the shade is inverted unless `REV` is. -/
def Shows (s : Hd66753) (x y : Nat) (shade : U32) : Prop :=
  let column := if s.ireg.sgs then x else cgramWidth - 1 - x
  ∃ w, s.cgram.toList[y * 0x20 + column / 8]? = some w ∧
    shade = palette (if s.ireg.rev then pixelOf w (column % 8) else ~~~pixelOf w (column % 8))

def Renders (s : Hd66753) (buf : List U32) : Prop :=
  ∃ buf', s.renderCallback buf = .ok buf' (cgramWidth, s.height) ∧
    buf'.length = cgramWidth * s.height ∧
    ∀ x < cgramWidth, ∀ y < s.height, ∃ shade, buf'[y * cgramWidth + x]? = some shade ∧
      s.Shows x y shade

/-- The controller drives no more lines than its memory has. -/
def FewLines (s : Hd66753) : Prop := s.ireg.nl.toNat ≤ 15 ∨ s.ireg.nl = 0b11111

/-- What the guest writes, and the window asking for a picture. -/
inductive LcdCall where
  | w32 (offset val : U32)
  | render (buf : List U32)

/-- The emulator stops at a fatal exception. -/
def lcdStep (s : Hd66753) : LcdCall → Option Hd66753
  | .w32 offset val =>
    match s.w32 offset val with
    | .ok s _ => some s
    | .raise s e => if e.harmless then some s else none
    | .panic _ => none
  | .render buf =>
    match s.renderCallback buf with
    | .done _ _ => some s
    | .panic _ => none

def RendersRight (s : Hd66753) : LcdCall → Prop
  | .w32 _ _ => True
  | .render buf => s.Renders buf

def EnoughRows (s : Hd66753) : LcdCall → Prop
  | .w32 _ _ => True
  | .render _ => s.FewLines

theorem height_le_iff (s : Hd66753) : s.height ≤ cgramHeight ↔ s.FewLines := by
  have lines : cgramHeight = 132 := rfl
  unfold height FewLines
  split
  · exact iff_of_true (Nat.le_refl _) (.inr ‹_›)
  · rename_i other
    rw [lines]
    constructor
    · intro short
      exact .inl (by omega)
    · rintro (few | all)
      · omega
      · exact absurd all other

theorem length_cgram (s : Hd66753) : s.cgram.toList.length = cgramHeight * 32 :=
  Vector.length_toList

theorem length_wordsOf {row : List U16} (full : row.length = 32) (sgs : Bool) :
    (wordsOf sgs row).length = 21 := by
  cases sgs <;> simp [wordsOf, cgramWidth, full]

@[simp] theorem length_pixelsOf (ireg : InternalRegs) (w : U16) : (pixelsOf ireg w).length = 8 := by
  simp [pixelsOf]

theorem getElem?_wordsOf {row : List U16} (full : row.length = 32) (sgs : Bool) {k : Nat}
    (inside : k < 21) : (wordsOf sgs row)[k]? = row[if sgs then k else 20 - k]? := by
  have shown : (row.take 21).length = 21 := by
    rw [List.length_take, full]
    rfl
  cases sgs with
  | true =>
    change (row.take 21)[k]? = _
    rw [List.getElem?_take, if_pos inside]
    rfl
  | false =>
    change (row.take 21).reverse[k]? = _
    rw [List.getElem?_reverse (by omega), shown, List.getElem?_take, if_pos (by omega)]
    rfl

theorem invert_palette (idx : BitVec 2) : palette (3 - idx) = palette (~~~idx) := by
  revert idx
  decide

theorem getElem?_pixelsOf (ireg : InternalRegs) (w : U16) {i : Nat} (inside : i < 8) :
    (pixelsOf ireg w)[i]? = some (palette
      (if ireg.rev then pixelOf w (if ireg.sgs then i else 7 - i)
        else ~~~pixelOf w (if ireg.sgs then i else 7 - i))) := by
  rw [pixelsOf, List.getElem?_map, List.getElem?_range inside, Option.map_some]
  cases ireg.rev with
  | true => rfl
  | false => exact congrArg some (invert_palette _)

/-- The picture before the buffer takes it. -/
def picture (s : Hd66753) : List U32 :=
  (((s.cgram.toList.chunksExact 32).take s.height).flatMap (wordsOf s.ireg.sgs)).flatMap
    (pixelsOf s.ireg)

theorem renderCallback_eq (s : Hd66753) (buf : List U32) :
    s.renderCallback buf =
      if s.picture.length = cgramWidth * s.height then .ok s.picture (cgramWidth, s.height)
      else .panic assertionFailed := by
  unfold renderCallback
  rw [List.drop_length]
  rfl

/-- The rows that are there, and of those as many as are asked for. -/
theorem mem_rows {s : Hd66753} {row : List U16}
    (member : row ∈ (s.cgram.toList.chunksExact 32).take s.height) : row.length = 32 := by
  have found := List.mem_of_mem_take member
  obtain ⟨k, inside, rfl⟩ := List.mem_map.mp found
  have below := List.mem_range.mp inside
  have size := s.length_cgram
  apply List.length_slice
  omega

theorem length_rows (s : Hd66753) :
    ((s.cgram.toList.chunksExact 32).take s.height).length = min s.height cgramHeight := by
  rw [List.length_take, List.chunksExact, List.length_map, List.length_range, length_cgram,
    Nat.mul_div_cancel _ (by decide)]

theorem length_picture (s : Hd66753) : s.picture.length = min s.height cgramHeight * 21 * 8 := by
  rw [picture, List.length_flatMap_const fun w _ => length_pixelsOf s.ireg w,
    List.length_flatMap_const fun row member => length_wordsOf (mem_rows member) _, length_rows]

theorem getElem?_picture (s : Hd66753) (i : Nat) :
    s.picture[i]? =
      (((s.cgram.toList.chunksExact 32).take s.height)[i / 8 / 21]?.bind fun row =>
        (wordsOf s.ireg.sgs row)[i / 8 % 21]?).bind fun w => (pixelsOf s.ireg w)[i % 8]? := by
  rw [picture, List.getElem?_flatMap_const (by decide) fun w _ => length_pixelsOf s.ireg w,
    List.getElem?_flatMap_const (by decide) fun row member => length_wordsOf (mem_rows member) _]

/-- Where in the memory the pixels are: row by row, and in a row word by word. -/
theorem picture_shows {s : Hd66753} (few : s.height ≤ cgramHeight) {x y : Nat}
    (column : x < cgramWidth) (line : y < s.height) :
    ∃ shade, s.picture[y * cgramWidth + x]? = some shade ∧ s.Shows x y shade := by
  have width : cgramWidth = 168 := rfl
  have lines : cgramHeight = 132 := rfl
  have size := s.length_cgram
  rw [width] at column ⊢
  have block : (y * 168 + x) / 8 / 21 = y := by omega
  have place : (y * 168 + x) / 8 % 21 = x / 8 := by omega
  have bit : (y * 168 + x) % 8 = x % 8 := by omega
  have within : x / 8 < 21 := by omega
  have full : (s.cgram.toList.slice (y * 32) 32).length = 32 := List.length_slice (by omega)
  have row : ((s.cgram.toList.chunksExact 32).take s.height)[y]? =
      some (s.cgram.toList.slice (y * 32) 32) := by
    rw [List.getElem?_take, if_pos line, List.getElem?_chunksExact, if_pos (by omega)]
  have found : s.picture[y * 168 + x]? =
      (s.cgram.toList[y * 32 + if s.ireg.sgs then x / 8 else 20 - x / 8]?).bind fun w =>
        (pixelsOf s.ireg w)[x % 8]? := by
    rw [getElem?_picture, block, place, bit, row, Option.bind_some, getElem?_wordsOf full _ within,
      List.getElem?_slice, if_pos (by split <;> omega)]
  let from_left := if s.ireg.sgs then x else cgramWidth - 1 - x
  have word : (if s.ireg.sgs then x / 8 else 20 - x / 8) = from_left / 8 := by
    simp only [from_left, width]
    split <;> omega
  have field : (if s.ireg.sgs then x % 8 else 7 - x % 8) = from_left % 8 := by
    simp only [from_left, width]
    split <;> omega
  have inside : y * 32 + from_left / 8 < s.cgram.toList.length := by
    simp only [from_left, width]
    split <;> omega
  rw [word, List.getElem?_eq_getElem inside, Option.bind_some,
    getElem?_pixelsOf _ _ (Nat.mod_lt x (by decide)), field] at found
  exact ⟨_, found, _, List.getElem?_eq_getElem inside, by split <;> rfl⟩

theorem picture_full_iff (s : Hd66753) :
    s.picture.length = cgramWidth * s.height ↔ s.height ≤ cgramHeight := by
  have lines : cgramHeight = 132 := rfl
  have width : cgramWidth = 168 := rfl
  rw [length_picture, lines, width]
  omega

theorem renders_iff (s : Hd66753) (buf : List U32) : s.Renders buf ↔ s.FewLines := by
  rw [← height_le_iff, ← picture_full_iff]
  constructor
  · rintro ⟨buf', shown, _⟩
    by_contra short
    rw [renderCallback_eq, if_neg short] at shown
    cases shown
  · intro whole
    have few := s.picture_full_iff.mp whole
    refine ⟨s.picture, ?_, whole, fun x column y line => picture_shows few column line⟩
    rw [renderCallback_eq, if_pos whole]

/-- In a run of writes and of pictures of them, the pictures are right as long as the lines that
the controller is told to drive are there. -/
theorem pictures_right_iff (calls : List LcdCall) :
    BeforeEach lcdStep RendersRight ({} : Hd66753) calls ↔
      BeforeEach lcdStep EnoughRows ({} : Hd66753) calls := by
  apply beforeEach_iff (I := fun _ => True) (fun _ _ _ _ _ => trivial) _ calls trivial
  intro s call _
  cases call with
  | w32 offset val => exact Iff.rfl
  | render buf => exact s.renders_iff buf

/-- The register for the driver's output is chosen, and seventeen groups of lines. -/
def chooseLines : List LcdCall := [.w32 0x8 0x00, .w32 0x8 0x01, .w32 0x10 0x00, .w32 0x10 0x10]

theorem many_lines_panic :
    ¬ BeforeEach lcdStep RendersRight ({} : Hd66753) (chooseLines ++ [.render []]) := by
  intro right
  have chosen : ∃ s, run lcdStep ({} : Hd66753) chooseLines = some s ∧ s.ireg.nl = 16 :=
    ⟨_, rfl, rfl⟩
  obtain ⟨s, reached, many⟩ := chosen
  have shown : s.Renders [] := (right.after reached).1
  rcases (s.renders_iff []).mp shown with few | all
  · rw [many] at few
    exact absurd few (by decide)
  · rw [many] at all
    exact absurd all (by decide)

end Hd66753
end Clicky
