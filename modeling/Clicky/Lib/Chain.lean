import Mathlib.Init

/-! Linked lists in a memory: at an address there may be a cell, with an item and the address of
the next cell, and one address is that of no cell. -/
namespace Chain

variable {A I : Type}

/-- From `head` on, the cells at the addresses hold the items, up to the null address. -/
def Linked (cell : A → Option (I × A)) (null head : A) : List (A × I) → Prop
  | [] => head = null
  | (a, item) :: nodes => head = a ∧ a ≠ null ∧
      ∃ next, cell a = some (item, next) ∧ Linked cell null next nodes

/-- Walk along a list. There is none where no cell is found, or where it goes on for too long. -/
def walk [DecidableEq A] (cell : A → Option (I × A)) (null : A) : Nat → A → Option (List (A × I))
  | 0, head => if head = null then some [] else none
  | fuel + 1, head =>
    if head = null then some []
    else (cell head).bind fun (item, next) => (walk cell null fuel next).map ((head, item) :: ·)

variable {cell cell' : A → Option (I × A)} {null head : A} {nodes : List (A × I)}

theorem Linked.walk [DecidableEq A] (linked : Linked cell null head nodes) {fuel : Nat}
    (enough : nodes.length ≤ fuel) : walk cell null fuel head = some nodes := by
  induction nodes generalizing head fuel with
  | nil => cases fuel <;> exact if_pos linked
  | cons node nodes ih =>
    obtain ⟨a, item⟩ := node
    obtain ⟨rfl, nonnull, next, here, rest⟩ := linked
    cases fuel with
    | zero => exact absurd enough (Nat.not_succ_le_zero _)
    | succ fuel =>
      rw [Chain.walk, if_neg nonnull, here, Option.bind_some]
      dsimp only
      rw [ih rest (Nat.le_of_succ_le_succ enough)]
      rfl

/-- A list stays as it is where its own cells do. -/
theorem Linked.congr (linked : Linked cell null head nodes)
    (same : ∀ node ∈ nodes, cell' node.1 = cell node.1) : Linked cell' null head nodes := by
  induction nodes generalizing head with
  | nil => exact linked
  | cons node nodes ih =>
    obtain ⟨a, item⟩ := node
    obtain ⟨first, nonnull, next, here, rest⟩ := linked
    refine ⟨first, nonnull, next, (same _ List.mem_cons_self).trans here, ?_⟩
    exact ih rest fun node member => same node (.tail _ member)

theorem Linked.push (linked : Linked cell null head nodes) {a : A} {item : I} (nonnull : a ≠ null)
    (here : cell a = some (item, head)) : Linked cell null a ((a, item) :: nodes) :=
  ⟨rfl, nonnull, head, here, linked⟩

end Chain
