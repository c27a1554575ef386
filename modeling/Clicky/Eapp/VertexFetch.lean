import Clicky.Eapp.TextureUpload
import Clicky.Lib.Extent

/-! Vertices in the memory of a game: read all in one piece, or one after the other. -/
namespace Clicky

def decodeFixed1616 (word : U32) : Float32 := Float32.ofInt word.toInt / 65536

abbrev VertexPoint := Float32 × Float32

namespace VertexFetch

def indexOutOfBounds : String := "index out of bounds"

/-- Multiplication that is not checked. -/
def mulUsize (a b : Nat) : Attempt String Nat :=
  if a * b < 2 ^ 64 then pure (a * b) else Attempt.fail multiplyOverflow

/-- `checked_mul(..)?`. -/
def checkedMul (a b : Nat) : Attempt String Nat := if a * b < 2 ^ 64 then pure (a * b) else failure

def byteAt (bytes : List U8) (i : Nat) : Attempt String U8 :=
  match bytes[i]? with
  | some b => pure b
  | none => Attempt.fail indexOutOfBounds

def wordAt (bytes : List U8) (base : Nat) : Attempt String U32 := do
  let b0 ← byteAt bytes base
  let b1 ← byteAt bytes (base + 1)
  let b2 ← byteAt bytes (base + 2)
  let b3 ← byteAt bytes (base + 3)
  return BitVec.ofLeBytes 32 [b0, b1, b2, b3]

/-- The first two components of a vertex. -/
def pointAt (components : Nat) (bytes : List U8) (base : Nat) : Attempt String VertexPoint := do
  let x := decodeFixed1616 (← wordAt bytes base)
  if components ≥ 2 then
    let y := decodeFixed1616 (← wordAt bytes (base + 4))
    return (x, y)
  else return (x, 0)

/-- The distance between vertices, where zero means that there is nothing between them. -/
def strideOf (strideBytes tightStride : Nat) : Nat :=
  if strideBytes = 0 then tightStride else max strideBytes tightStride

end VertexFetch

namespace EappBus
open VertexFetch

variable {imageSize : Nat}

/-- A point has 8 bytes. -/
def readFixedArrayIndices (b : EappBus imageSize) (hostLimit : Nat) (guestPtr : U32)
    (components strideBytes : Nat) (indices : List Nat) : Attempt String (List VertexPoint) := do
  let tightStride ← mulUsize components 4
  let stride := strideOf strideBytes tightStride
  withCapacity hostLimit (indices.length * 8)
  indices.mapM fun index => do
    let start ← checkedMul index stride
    let bytes ← b.readGuestBytes hostLimit (guestPtr + BitVec.ofNat 32 start) tightStride
    guard (¬ (bytes.length < tightStride ∨ bytes.length < 8))
    pointAt components bytes 0

def readFixedArrayRange (b : EappBus imageSize) (hostLimit : Nat) (guestPtr : U32)
    (components strideBytes firstVertex vertexCount : Nat) : Attempt String (List VertexPoint) := do
  let tightStride ← mulUsize components 4
  let stride := strideOf strideBytes tightStride
  let start ← checkedMul firstVertex stride
  let total ← checkedMul vertexCount stride
  let bytes ← b.readGuestBytes hostLimit (guestPtr + BitVec.ofNat 32 start) total
  withCapacity hostLimit (vertexCount * 8)
  (List.range vertexCount).mapM fun v => do
    let base ← mulUsize v stride
    pointAt components bytes base

end EappBus

namespace VertexFetch

theorem gives_mulUsize {a b : Nat} (small : a * b < 2 ^ 64) : (mulUsize a b).Gives (a * b) := by
  rw [mulUsize, if_pos small]
  rfl

theorem gives_checkedMul {a b : Nat} (small : a * b < 2 ^ 64) : (checkedMul a b).Gives (a * b) := by
  rw [checkedMul, if_pos small]
  rfl

theorem gives_byteAt {bytes : List U8} {i : Nat} (inside : i < bytes.length) :
    (byteAt bytes i).Gives bytes[i] := by
  rw [byteAt, List.getElem?_eq_getElem inside]
  rfl

theorem gives_wordAt {bytes : List U8} {base : Nat} (inside : base + 4 ≤ bytes.length) :
    (wordAt bytes base).Gives (.ofLeBytes 32 (bytes.slice base 4)) := by
  have zeroth := gives_byteAt (Nat.lt_of_lt_of_le (by omega : base < base + 4) inside)
  rw [Attempt.Gives, wordAt, zeroth.run_bind, (gives_byteAt (by omega)).run_bind,
    (gives_byteAt (by omega)).run_bind, (gives_byteAt (by omega)).run_bind, List.slice_four inside]
  rfl

end VertexFetch

namespace EappBus
open VertexFetch

variable {imageSize : Nat} {b : EappBus imageSize}

/-- The point of a vertex with two components or more at an address. -/
def pointFrom (b : EappBus imageSize) (addr : U32) : VertexPoint :=
  (decodeFixed1616 (.ofLeBytes 32 (b.bytesAt addr 4)),
    decodeFixed1616 (.ofLeBytes 32 (b.bytesAt (addr + 4) 4)))

theorem gives_pointAt {components : Nat} (two : 2 ≤ components) {addr : U32} {len base : Nat}
    (inside : base + 8 ≤ len) : (pointAt components (b.bytesAt addr len) base).Gives
      (b.pointFrom (addr + BitVec.ofNat 32 base)) := by
  have size := b.length_bytesAt addr len
  have second : addr + BitVec.ofNat 32 (base + 4) = addr + BitVec.ofNat 32 base + 4 := by
    rw [BitVec.ofNat_add, BitVec.add_assoc]
    rfl
  rw [Attempt.Gives, pointAt, (gives_wordAt (by omega)).run_bind, if_pos two,
    (gives_wordAt (by omega)).run_bind, slice_bytesAt b addr (by omega),
    slice_bytesAt b addr (by omega), second]
  rfl

/-- Where a vertex is. -/
def vertexAddr (guestPtr : U32) (stride v : Nat) : U32 := guestPtr + BitVec.ofNat 32 (v * stride)

theorem vertexAddr_add (guestPtr : U32) (stride first v : Nat) :
    vertexAddr guestPtr stride (first + v) =
      vertexAddr guestPtr stride first + BitVec.ofNat 32 (v * stride) := by
  rw [vertexAddr, vertexAddr, Nat.add_mul, BitVec.ofNat_add, BitVec.add_assoc]

theorem le_strideOf (strideBytes tightStride : Nat) :
    tightStride ≤ strideOf strideBytes tightStride := by
  unfold strideOf
  split
  · exact Nat.le_refl tightStride
  · exact Nat.le_max_right _ _

theorem readFixedArrayIndices_overflow {components : Nat} (huge : ¬ components * 4 < 2 ^ 64)
    (b : EappBus imageSize) (hostLimit : Nat) (guestPtr : U32) (strideBytes : Nat)
    (indices : List Nat) : b.readFixedArrayIndices hostLimit guestPtr components strideBytes indices =
      Attempt.fail multiplyOverflow := by
  rw [readFixedArrayIndices, mulUsize, if_neg huge]
  rfl

theorem readFixedArrayRange_overflow {components : Nat} (huge : ¬ components * 4 < 2 ^ 64)
    (b : EappBus imageSize) (hostLimit : Nat) (guestPtr : U32) (strideBytes first count : Nat) :
    b.readFixedArrayRange hostLimit guestPtr components strideBytes first count =
      Attempt.fail multiplyOverflow := by
  rw [readFixedArrayRange, mulUsize, if_neg huge]
  rfl

/-- If the components of all vertices are mapped, then so is what lies between them, and after the
last of them. -/
def PaddingMapped (b : EappBus imageSize) (guestPtr : U32)
    (components strideBytes first count : Nat) : Prop :=
  let stride := strideOf strideBytes (components * 4)
  (∀ v < count, b.Mapped (vertexAddr guestPtr stride (first + v)) (components * 4)) →
    b.Mapped (vertexAddr guestPtr stride first) (count * stride)

theorem components_mapped {guestPtr : U32} {tight stride first count : Nat} (within : tight ≤ stride)
    (mapped : b.Mapped (vertexAddr guestPtr stride first) (count * stride)) {v : Nat}
    (inside : v < count) : b.Mapped (vertexAddr guestPtr stride (first + v)) tight := by
  intro i component
  have before := Nat.mul_le_mul_right stride inside
  rw [Nat.succ_mul] at before
  rw [vertexAddr_add, BitVec.add_assoc, ← BitVec.ofNat_add]
  exact mapped _ (by omega)

theorem forall_mem_range' {first count : Nat} (p : Nat → Prop) :
    (∀ v ∈ List.range' first count, p v) ↔ ∀ v < count, p (first + v) := by
  rw [List.range'_eq_map_range, List.forall_mem_map]
  exact forall_congr' fun v => imp_congr_left List.mem_range

/-- What needs more comes to the same as what needs less exactly if there is no more to it. -/
theorem some_ite_eq_iff {α : Type} {a : α} {more less : Prop} [Decidable more] [Decidable less]
    (weaker : more → less) :
    (if more then some a else none) = (if less then some a else none) ↔ (less → more) := by
  by_cases enough : less
  · rw [if_pos enough, ite_eq_left_iff]
    constructor
    · intro same _
      by_contra missing
      exact nomatch same missing
    · exact fun all missing => absurd (all enough) missing
  · rw [if_neg enough, if_neg fun all => enough (weaker all)]
    exact iff_of_true rfl fun holds => absurd holds enough

section
variable {hostLimit : Nat} {guestPtr : U32} {components strideBytes : Nat} (two : 2 ≤ components)
include two

theorem readVertex_run (limit : components * 4 < 2 ^ 63) (granted : components * 4 ≤ hostLimit)
    (addr : U32) :
    (do
      let bytes ← b.readGuestBytes hostLimit addr (components * 4)
      guard (¬ (bytes.length < components * 4 ∨ bytes.length < 8))
      pointAt components bytes 0 : Attempt String VertexPoint).run =
        .ok (if b.Mapped addr (components * 4) then some (b.pointFrom addr) else none) := by
  split
  · rename_i mapped
    have size := b.length_bytesAt addr (components * 4)
    have whole : ¬ ((b.bytesAt addr (components * 4)).length < components * 4 ∨
        (b.bytesAt addr (components * 4)).length < 8) := by omega
    have here : 0 + 8 ≤ components * 4 := by omega
    have point : (pointAt components (b.bytesAt addr (components * 4)) 0).Gives
        (b.pointFrom (addr + BitVec.ofNat 32 0)) := gives_pointAt two here
    have start : addr + BitVec.ofNat 32 0 = addr := BitVec.add_zero addr
    rw [start] at point
    rw [(gives_bytesAt limit granted mapped).run_bind, guard, if_pos whole]
    exact point
  · rename_i unmapped
    exact Attempt.run_bind_none (readGuestBytes_unmapped limit granted unmapped) _

/-- Vertices are found one after the other if the components of each are mapped. -/
theorem readFixedArrayIndices_run {indices : List Nat} (small : components * 4 < 2 ^ 64)
    (few : indices.length * 8 < 2 ^ 63) (points : indices.length * 8 ≤ hostLimit)
    (fits : ∀ v ∈ indices, v * strideOf strideBytes (components * 4) < 2 ^ 64)
    (narrow : indices ≠ [] → components * 4 < 2 ^ 63 ∧ components * 4 ≤ hostLimit) :
    (b.readFixedArrayIndices hostLimit guestPtr components strideBytes indices).run =
      .ok (if ∀ v ∈ indices,
          b.Mapped (vertexAddr guestPtr (strideOf strideBytes (components * 4)) v) (components * 4) then
        some (indices.map fun v =>
          b.pointFrom (vertexAddr guestPtr (strideOf strideBytes (components * 4)) v))
      else none) := by
  rw [readFixedArrayIndices, (gives_mulUsize small).run_bind]
  dsimp only
  rw [(gives_withCapacity few points).run_bind, ← List.mapM_ite]
  apply Attempt.run_mapM
  intro v member
  obtain ⟨limit, granted⟩ := narrow (List.ne_nil_of_mem member)
  rw [(gives_checkedMul (fits v member)).run_bind]
  exact readVertex_run two limit granted _

section
variable {first count : Nat} (small : components * 4 < 2 ^ 64)
  (fits : (first + count) * strideOf strideBytes (components * 4) < 2 ^ 63)
include small fits

/-- Vertices are found in one piece if all of it is mapped. -/
theorem readFixedArrayRange_run
    (granted : count * strideOf strideBytes (components * 4) ≤ hostLimit) :
    (b.readFixedArrayRange hostLimit guestPtr components strideBytes first count).run =
      .ok (if b.Mapped (vertexAddr guestPtr (strideOf strideBytes (components * 4)) first)
          (count * strideOf strideBytes (components * 4)) then
        some ((List.range' first count).map fun v =>
          b.pointFrom (vertexAddr guestPtr (strideOf strideBytes (components * 4)) v))
      else none) := by
  have tight := le_strideOf strideBytes (components * 4)
  rw [Nat.add_mul] at fits
  have few : count * 8 ≤ count * strideOf strideBytes (components * 4) :=
    Nat.mul_le_mul_left _ (by omega)
  rw [readFixedArrayRange, (gives_mulUsize small).run_bind]
  dsimp only
  rw [(gives_checkedMul (by omega)).run_bind, (gives_checkedMul (by omega)).run_bind]
  split
  · rename_i mapped
    have gives : (b.readGuestBytes hostLimit
        (guestPtr + BitVec.ofNat 32 (first * strideOf strideBytes (components * 4)))
        (count * strideOf strideBytes (components * 4))).Gives _ :=
      gives_bytesAt (by omega) granted mapped
    rw [gives.run_bind, (gives_withCapacity (by omega) (Nat.le_trans few granted)).run_bind,
      List.range'_eq_map_range, List.map_map]
    apply Attempt.gives_mapM
    intro v member
    have before := Nat.mul_le_mul_right (strideOf strideBytes (components * 4))
      (List.mem_range.mp member)
    rw [Nat.succ_mul] at before
    rw [Attempt.Gives, (gives_mulUsize (by omega)).run_bind, Function.comp_apply, vertexAddr_add]
    exact gives_pointAt two (by omega)
  · rename_i unmapped
    exact Attempt.run_bind_none (readGuestBytes_unmapped (by omega) granted unmapped) _

omit two in
theorem readFixedArrayRange_refused
    (refused : hostLimit < count * strideOf strideBytes (components * 4)) :
    b.readFixedArrayRange hostLimit guestPtr components strideBytes first count =
      Attempt.fail allocationFailed := by
  rw [Nat.add_mul] at fits
  refine OptionT.ext ?_
  rw [readFixedArrayRange, (gives_mulUsize small).run_bind]
  dsimp only
  rw [(gives_checkedMul (by omega)).run_bind, (gives_checkedMul (by omega)).run_bind,
    readGuestBytes_refused (by omega) refused]
  rfl

/-- What the vertices need, next to the one piece they are in. -/
theorem vertices_small : count * 8 < 2 ^ 63 ∧ (0 < count → components * 4 < 2 ^ 63) ∧
    ∀ v ∈ List.range' first count, v * strideOf strideBytes (components * 4) < 2 ^ 63 := by
  have tight := le_strideOf strideBytes (components * 4)
  have few : count * 8 ≤ (first + count) * strideOf strideBytes (components * 4) :=
    Nat.mul_le_mul (Nat.le_add_left _ _) (by omega)
  refine ⟨by omega, fun some_read => ?_, fun v member => ?_⟩
  · have one : 1 * strideOf strideBytes (components * 4) ≤
        (first + count) * strideOf strideBytes (components * 4) :=
      Nat.mul_le_mul_right _ (by omega)
    omega
  · have below : v ≤ first + count := Nat.le_of_lt (List.mem_range'_1.mp member).2
    have offset := Nat.mul_le_mul_right (strideOf strideBytes (components * 4)) below
    omega

theorem readFixedArrayIndices_range'_run (points : count * 8 ≤ hostLimit)
    (vertex : 0 < count → components * 4 ≤ hostLimit) :
    (b.readFixedArrayIndices hostLimit guestPtr components strideBytes (List.range' first count)).run =
      .ok (if ∀ v ∈ List.range' first count,
          b.Mapped (vertexAddr guestPtr (strideOf strideBytes (components * 4)) v) (components * 4) then
        some ((List.range' first count).map fun v =>
          b.pointFrom (vertexAddr guestPtr (strideOf strideBytes (components * 4)) v))
      else none) := by
  obtain ⟨few, narrow, offsets⟩ := vertices_small two small fits
  refine readFixedArrayIndices_run two small ?_ ?_ (fun v member => ?_) fun some_index => ?_
  · rwa [List.length_range']
  · rwa [List.length_range']
  · exact Nat.lt_trans (offsets v member) (by decide)
  · have some_count : 0 < count := Nat.pos_of_ne_zero fun zero => some_index (by rw [zero]; rfl)
    exact ⟨narrow some_count, vertex some_count⟩

/-- There is no buffer for the points, or none for the first vertex. -/
theorem readFixedArrayIndices_range'_refused (some_read : 0 < count)
    (refused : hostLimit < count * 8 ∨ hostLimit < components * 4) :
    b.readFixedArrayIndices hostLimit guestPtr components strideBytes (List.range' first count) =
      Attempt.fail allocationFailed := by
  obtain ⟨few, narrow, offsets⟩ := vertices_small two small fits
  refine OptionT.ext ?_
  rw [readFixedArrayIndices, (gives_mulUsize small).run_bind]
  dsimp only
  rw [List.length_range']
  by_cases points : count * 8 ≤ hostLimit
  · have vertex := refused.resolve_left (Nat.not_lt.mpr points)
    obtain ⟨rest, rfl⟩ := Nat.exists_eq_succ_of_ne_zero (Nat.pos_iff_ne_zero.mp some_read)
    have start := offsets first List.mem_cons_self
    rw [(gives_withCapacity few points).run_bind, List.range'_succ, List.mapM_cons, OptionT.run_bind,
      (gives_checkedMul (Nat.lt_trans start (by decide))).run_bind,
      readGuestBytes_refused (narrow some_read) vertex]
    rfl
  · rw [withCapacity_refused few (Nat.lt_of_not_le points)]
    rfl

end

theorem range_eq_indices_of_granted {first count : Nat} (small : components * 4 < 2 ^ 64)
    (fits : (first + count) * strideOf strideBytes (components * 4) < 2 ^ 63)
    (granted : count * strideOf strideBytes (components * 4) ≤ hostLimit) :
    b.readFixedArrayRange hostLimit guestPtr components strideBytes first count =
        b.readFixedArrayIndices hostLimit guestPtr components strideBytes (List.range' first count) ↔
      b.PaddingMapped guestPtr components strideBytes first count := by
  have tight := le_strideOf strideBytes (components * 4)
  have points : count * 8 ≤ count * strideOf strideBytes (components * 4) :=
    Nat.mul_le_mul_left _ (by omega)
  have vertex : 0 < count → components * 4 ≤ hostLimit := fun some_read =>
    Nat.le_trans tight (Nat.le_trans (Nat.le_mul_of_pos_left _ some_read) granted)
  have each : (∀ v ∈ List.range' first count,
      b.Mapped (vertexAddr guestPtr (strideOf strideBytes (components * 4)) v) (components * 4)) ↔
      ∀ v < count, b.Mapped
        (vertexAddr guestPtr (strideOf strideBytes (components * 4)) (first + v)) (components * 4) :=
    forall_mem_range' _
  have between : b.Mapped (vertexAddr guestPtr (strideOf strideBytes (components * 4)) first)
        (count * strideOf strideBytes (components * 4)) → ∀ v < count, b.Mapped
        (vertexAddr guestPtr (strideOf strideBytes (components * 4)) (first + v)) (components * 4) :=
    fun mapped _ inside => components_mapped tight mapped inside
  rw [OptionT.ext_iff, readFixedArrayRange_run two small fits granted,
    readFixedArrayIndices_range'_run two small fits (Nat.le_trans points granted) vertex,
    Except.ok.injEq]
  simp only [each]
  unfold PaddingMapped
  exact some_ite_eq_iff between

/-- Both ways of reading come to the same exactly if no padding is missing at the edge of what is
mapped, or else if the host grants neither the one piece nor what the vertices need. -/
theorem range_eq_indices_iff {first count : Nat}
    (fits : (first + count) * strideOf strideBytes (components * 4) < 2 ^ 63)
    (b : EappBus imageSize) (hostLimit : Nat) (guestPtr : U32) :
    b.readFixedArrayRange hostLimit guestPtr components strideBytes first count =
        b.readFixedArrayIndices hostLimit guestPtr components strideBytes (List.range' first count) ↔
      (count * strideOf strideBytes (components * 4) ≤ hostLimit →
        b.PaddingMapped guestPtr components strideBytes first count) ∧
      (hostLimit < count * strideOf strideBytes (components * 4) →
        hostLimit < count * 8 ∨ hostLimit < components * 4) := by
  have tight := le_strideOf strideBytes (components * 4)
  by_cases small : components * 4 < 2 ^ 64
  · by_cases granted : count * strideOf strideBytes (components * 4) ≤ hostLimit
    · rw [forall_prop_of_true granted,
        and_iff_left fun refused => absurd granted (Nat.not_le.mpr refused)]
      exact range_eq_indices_of_granted two small fits granted
    · have refused := Nat.lt_of_not_le granted
      rw [forall_prop_of_true refused, and_iff_right fun all => absurd all granted,
        readFixedArrayRange_refused small fits refused]
      have some_read : 0 < count := Nat.pos_of_ne_zero fun none_read => by
        rw [none_read, Nat.zero_mul] at refused
        cases refused
      by_cases both : hostLimit < count * 8 ∨ hostLimit < components * 4
      · rw [readFixedArrayIndices_range'_refused two small fits some_read both]
        exact iff_of_true rfl both
      · refine iff_of_false (fun same => ?_) both
        have run := congrArg OptionT.run same
        rw [readFixedArrayIndices_range'_run two small fits (by omega) fun _ => by omega] at run
        cases run
  · rw [readFixedArrayRange_overflow small, readFixedArrayIndices_overflow small]
    have none_read : count = 0 := by
      by_contra some_read
      have one : 1 * strideOf strideBytes (components * 4) ≤
          (first + count) * strideOf strideBytes (components * 4) :=
        Nat.mul_le_mul_right _ (by omega)
      omega
    subst none_read
    have nothing : 0 * strideOf strideBytes (components * 4) = 0 := Nat.zero_mul _
    refine iff_of_true rfl ⟨fun _ _ i inside => ?_, fun refused => ?_⟩
    · exact absurd (nothing ▸ inside) (Nat.not_lt_zero i)
    · exact absurd (nothing ▸ refused) (Nat.not_lt_zero hostLimit)

end

/-- One vertex of a stride of 12 bytes, in an image that ends with its second component. -/
def lastVertexBus : EappBus 8 := .start ⟨[0, 0, 1, 0, 0, 0, 2, 0], rfl⟩

theorem last_vertex_range_eq_indices_iff :
    lastVertexBus.readFixedArrayRange (2 ^ 32) 0x18000000 2 12 0 1 =
        lastVertexBus.readFixedArrayIndices (2 ^ 32) 0x18000000 2 12 (List.range' 0 1) ↔
      (1 * 12 ≤ 2 ^ 32 → lastVertexBus.PaddingMapped 0x18000000 2 12 0 1) ∧
      (2 ^ 32 < 1 * 12 → 2 ^ 32 < 1 * 8 ∨ 2 ^ 32 < 2 * 4) :=
  range_eq_indices_iff (by decide) (by decide) lastVertexBus (2 ^ 32) 0x18000000

theorem last_vertex_range :
    lastVertexBus.readFixedArrayRange (2 ^ 32) 0x18000000 2 12 0 1 = failure := rfl

theorem last_vertex_indices :
    lastVertexBus.readFixedArrayIndices (2 ^ 32) 0x18000000 2 12 [0] =
      pure [(decodeFixed1616 0x10000, decodeFixed1616 0x20000)] := rfl

/-- The array ends with what is mapped, and the padding after it does not. The host grants both
buffers. -/
theorem last_vertex_lost :
    ¬ ∀ (b : EappBus 8) guestPtr components strideBytes first count, 2 ≤ components →
      (first + count) * strideOf strideBytes (components * 4) ≤ 2 ^ 32 →
      b.readFixedArrayRange (2 ^ 32) guestPtr components strideBytes first count =
        b.readFixedArrayIndices (2 ^ 32) guestPtr components strideBytes (List.range' first count) := by
  intro agree
  have same := agree lastVertexBus 0x18000000 2 12 0 1 (Nat.le_refl 2) (by decide)
  rw [last_vertex_range] at same
  exact nomatch same.trans last_vertex_indices

end EappBus

end Clicky
