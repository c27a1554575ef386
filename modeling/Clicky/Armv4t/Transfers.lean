import Clicky.Armv4t.Thumb

/-! The loops of the instructions that transfer a list of registers. -/
namespace Clicky.Armv4t
open CpuM

@[simp] theorem mem_registerList {list : BitVec 16} {r : Register} :
    r ∈ registerList list ↔ list.getLsbD r.val = true := by
  simp only [registerList, List.mem_map, List.mem_filter, List.mem_finRange, true_and]
  constructor
  · rintro ⟨r, listed, rfl⟩
    exact listed
  · intro listed
    exact ⟨⟨r.val, BitVec.lt_of_getLsbD listed⟩, listed, rfl⟩

theorem nodup_registerList (list : BitVec 16) : (registerList list).Nodup :=
  List.Pairwise.map _ (fun _ _ apart same => apart (Fin.ext (by simpa using congrArg Fin.val same)))
    ((List.nodup_finRange 16).filter _)

theorem registerList_lt {list : BitVec 16} : ∀ r ∈ registerList list, r.val < 16 := by
  intro r listed
  exact BitVec.lt_of_getLsbD (mem_registerList.mp listed)

theorem length_registerList_le (list : BitVec 16) : (registerList list).length ≤ 16 := by
  rw [registerList, List.length_map]
  exact (List.length_filter_le _ _).trans_eq List.length_finRange

theorem countP_or_of_apart {α : Type} {p q : α → Bool} (apart : ∀ a, p a = true → q a = false)
    (list : List α) : list.countP (fun a => p a || q a) = list.countP p + list.countP q := by
  induction list with
  | nil => rfl
  | cons a list ih =>
    rw [List.countP_cons, List.countP_cons, List.countP_cons, ih]
    cases left : p a with
    | false => simp [Nat.add_assoc]
    | true => simp [apart a left, Nat.add_right_comm]

/-- Two lists without a register in common, one after the other or together. -/
theorem length_registerList_or {a b : BitVec 16} (apart : a &&& b = 0) :
    (registerList (a ||| b)).length = (registerList a).length + (registerList b).length := by
  have either (r : Fin 16) (left : a.getLsbD r.val = true) : b.getLsbD r.val = false := by
    simpa [left] using congrArg (·.getLsbD r.val) apart
  simpa [registerList, ← List.countP_eq_length_filter] using countP_or_of_apart either (List.finRange 16)

section transfers

variable {each each' : Register → Nat → CpuM Unit} {list : List Register}

theorem transfers_congr (same : ∀ r ∈ list, ∀ idx, each r idx = each' r idx) (idx : Nat) :
    transfers each list idx = transfers each' list idx := by
  induction list generalizing idx with
  | nil => rfl
  | cons r rs ih =>
    simp only [transfers, same r List.mem_cons_self idx,
      ih fun r listed => same r (List.mem_cons_of_mem _ listed)]

/-- What commutes with each of the transfers can as well come before them. -/
theorem transfers_comm {part : CpuM Unit}
    (comm : ∀ r ∈ list, ∀ idx, (do each r idx; part) = (do part; each' r idx)) (idx : Nat) :
    (do transfers each list idx; part) = (do part; transfers each' list idx) := by
  induction list generalizing idx with
  | nil => simp [transfers]
  | cons r rs ih =>
    have first := comm r List.mem_cons_self idx
    have rest := ih (fun r listed => comm r (List.mem_cons_of_mem _ listed)) (idx + 1)
    simp only [transfers, bind_assoc]
    rw [rest, ← bind_assoc, first, bind_assoc]

/-- A register that none of the transfers uses can as well be set before them. -/
theorem transfers_then_set {each each' : Register → Nat → CpuM Unit} {list : List Register}
    {r : Register} {val : U32}
    (comm : ∀ q ∈ list, ∀ idx, (do each q idx; setReg r val) = (do setReg r val; each' q idx))
    (idx : Nat) (s : RegFile) :
    (transfers each list idx s >>= fun p => .done (true, p.2.setIndex r val)) =
      transfers each' list idx (s.setIndex r val) >>= fun p => .done (true, p.2) := by
  have swapped := congrFun (transfers_comm comm idx) s
  simp only [bind_run, setReg_run, Dialogue.done_bind] at swapped
  rw [← swapped, bind_assoc]
  rfl

end transfers

namespace Thumb

/-- The registers that a `PUSH` of these low registers stores. -/
def pushed (rlist : BitVec 8) (lr : Bool) : BitVec 16 := rlist.setWidth 16 ||| if lr then 0x4000 else 0

theorem length_pushed (rlist : BitVec 8) (lr : Bool) : (registerList (pushed rlist lr)).length =
    (registerList (rlist.setWidth 16)).length + if lr then 1 else 0 := by
  have apart : rlist.setWidth 16 &&& (if lr then 0x4000 else 0) = 0 := by
    revert rlist lr
    decide
  rw [pushed, length_registerList_or apart]
  cases lr <;> rfl

theorem ne_of_pushed (rlist : BitVec 8) (lr : Bool) {r : Register}
    (listed : r ∈ registerList (pushed rlist lr)) : r ≠ .sp ∧ r ≠ .pc := by
  rw [mem_registerList] at listed
  constructor <;> rintro rfl
  · change (pushed rlist lr).getLsbD 13 = true at listed
    cases lr <;> simp [pushed] at listed
  · change (pushed rlist lr).getLsbD 15 = true at listed
    cases lr <;> simp [pushed] at listed

end Thumb

end Clicky.Armv4t
