import Clicky.Lib.Extent

/-! Lists made of blocks of one length: cutting a list up into them, and finding an element by its
block and its place in the block. -/
namespace List

variable {α β : Type}

/-- What is left at the end, and too short for a block, is dropped. -/
def chunksExact (l : List α) (size : Nat) : List (List α) :=
  (range (l.length / size)).map fun k => l.slice (k * size) size

theorem getElem?_chunksExact (l : List α) (size k : Nat) :
    (l.chunksExact size)[k]? =
      if k < l.length / size then some (l.slice (k * size) size) else none := by
  by_cases inside : k < l.length / size
  · simp [chunksExact, inside]
  · simp [chunksExact, inside]

theorem length_flatMap_const {l : List α} {f : α → List β} {size : Nat}
    (same : ∀ a ∈ l, (f a).length = size) : (l.flatMap f).length = l.length * size := by
  induction l with
  | nil => simp
  | cons a l ih =>
    have first := same a mem_cons_self
    have rest := ih fun b member => same b (mem_cons_of_mem a member)
    simp only [flatMap_cons, length_append, length_cons, first, rest, Nat.succ_mul]
    omega

/-- Element `i` is in block `i / size`. -/
theorem getElem?_flatMap_const {l : List α} {f : α → List β} {size : Nat} (positive : 0 < size)
    (same : ∀ a ∈ l, (f a).length = size) (i : Nat) :
    (l.flatMap f)[i]? = l[i / size]?.bind fun a => (f a)[i % size]? := by
  induction l generalizing i with
  | nil => simp
  | cons a l ih =>
    have first := same a mem_cons_self
    have later := ih fun b member => same b (mem_cons_of_mem a member)
    by_cases here : i < size
    · have zero : i / size = 0 := Nat.div_eq_of_lt here
      have place : i % size = i := Nat.mod_eq_of_lt here
      simp [zero, place, getElem?_append_left, first, here]
    · have back : i = i - size + size := by omega
      have block : i / size = (i - size) / size + 1 := by
        rw [back, Nat.add_div_right _ positive, Nat.add_sub_cancel]
      have place : i % size = (i - size) % size := by
        rw [back, Nat.add_mod_right, Nat.add_sub_cancel]
      have right : (f a).length ≤ i := by omega
      rw [flatMap_cons, getElem?_append_right right, first, later, block, place]
      rfl

/-- A block is found where the blocks before it end. -/
theorem slice_flatten {l : List (List α)} {k : Nat} {block : List α} (found : l[k]? = some block) :
    l.flatten.slice (l.take k).flatten.length block.length = block := by
  induction l generalizing k with
  | nil => cases found
  | cons first l ih =>
    rw [flatten_cons]
    cases k with
    | zero =>
      cases found
      simp [slice]
    | succ k =>
      have rest := ih found
      rw [slice] at rest ⊢
      rw [take_succ_cons, flatten_cons, length_append, drop_append,
        drop_eq_nil_of_le (Nat.le_add_right _ _), nil_append, Nat.add_sub_cancel_left]
      exact rest

/-- The blocks of one length that the elements of a list become. -/
theorem slice_flatMap_const {l : List α} {f : α → List β} {size : Nat}
    (same : ∀ a ∈ l, (f a).length = size) {k : Nat} {a : α} (found : l[k]? = some a) :
    (l.flatMap f).slice (k * size) size = f a := by
  have block : (l.map f)[k]? = some (f a) := by rw [getElem?_map, found, Option.map_some]
  have inside : k < l.length := (getElem?_eq_some_iff.mp found).1
  have before : ((l.map f).take k).flatten.length = k * size := by
    rw [← map_take, ← flatMap_def, length_flatMap_const fun b member => same b (mem_of_mem_take member),
      length_take, Nat.min_eq_left (Nat.le_of_lt inside)]
  have cut := slice_flatten block
  rw [before, same a (mem_of_getElem? found)] at cut
  exact cut

/-- Blocks of one length are cut up where they were put together. -/
theorem chunksExact_flatMap_const {l : List α} {f : α → List β} {size : Nat} (positive : 0 < size)
    (same : ∀ a ∈ l, (f a).length = size) : (l.flatMap f).chunksExact size = l.map f := by
  have count : (l.flatMap f).length / size = l.length := by
    rw [length_flatMap_const same, Nat.mul_div_cancel _ positive]
  refine ext_getElem? fun k => ?_
  rw [getElem?_chunksExact, count, getElem?_map]
  by_cases inside : k < l.length
  · have found : l[k]? = some l[k] := getElem?_eq_getElem inside
    rw [if_pos inside, found, Option.map_some, slice_flatMap_const same found]
  · rw [if_neg inside, getElem?_eq_none (Nat.le_of_not_lt inside), Option.map_none]

end List
