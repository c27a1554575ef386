import Clicky.Armv4t.DataProc
import Clicky.Armv4t.Step
import Clicky.Armv4t.Transfers

/-! Registers that are saved by one block transfer and restored by another. -/
namespace Clicky.Armv4t
open CpuM Dialogue

/-- An aligned access passes the wrapper as it is. -/
theorem alignmentWrapper_w32 {addr : U32} (aligned : addr &&& ~~~3 = addr) (val : U32) :
    alignmentWrapper (.w32 addr val) = .ask (.w32 addr val) .done := by
  change Dialogue.ask (MemOp.w32 (addr &&& ~~~3) val) Dialogue.done = _
  rw [aligned]

theorem alignmentWrapper_r32 {addr : U32} (aligned : addr &&& ~~~3 = addr) :
    alignmentWrapper (.r32 addr) = .ask (.r32 addr) .done := by
  unfold alignmentWrapper alignmentWrapper.r32Aligned
  dsimp only
  rw [aligned]
  simp only [if_true]

section words

variable {σ : Type} (answer : (op : MemOp) → σ → Outcome Empty σ op.Answer)

/-- A memory that keeps the words it is given, in a region of aligned addresses. -/
structure KeepsWords (inside : U32 → Prop) (word : σ → U32 → U32) : Prop where
  aligned : ∀ addr, inside addr → addr &&& ~~~3 = addr
  read : ∀ addr mem, inside addr → answer (.r32 addr) mem = .ok mem (word mem addr)
  write : ∀ addr val mem, inside addr → ∃ mem', answer (.w32 addr val) mem = .ok mem' () ∧
    word mem' addr = val ∧
    ∀ other, inside other → other ≠ addr → word mem' other = word mem other

/-- A memory that has nothing but words. -/
def wordMemory (op : MemOp) (mem : U32 → U32) : Outcome Empty (U32 → U32) op.Answer :=
  match op with
  | .r8 _ | .r16 _ | .x16 _ => .ok mem 0
  | .r32 addr | .x32 addr => .ok mem (mem addr)
  | .w32 addr val => .ok (Function.update mem addr val) ()
  | .w8 _ _ | .w16 _ _ => .ok mem ()

theorem keepsWords_wordMemory :
    KeepsWords wordMemory (fun addr => addr &&& ~~~3 = addr) (fun mem addr => mem addr) where
  aligned _ within := within
  read _ _ _ := rfl
  write _ _ _ _ :=
    ⟨_, rfl, Function.update_self .., fun _ _ apart => Function.update_of_ne apart ..⟩

/-- The word at an index of a block. -/
def slot (start : U32) (idx : Nat) : U32 := start + BitVec.ofNat 32 (idx * 4)

theorem slot_inj {start : U32} {i j : Nat} (small : i < 2 ^ 30) (small' : j < 2 ^ 30)
    (same : slot start i = slot start j) : i = j := by
  have offset := congrArg BitVec.toNat same
  simp only [slot, BitVec.toNat_add, BitVec.toNat_ofNat] at offset
  omega

variable {answer} {inside : U32 → Prop} {word : σ → U32 → U32} (keeps : KeepsWords answer inside word)
  {each : Register → Nat → CpuM Unit} {start : U32}
include keeps

theorem stores_run {vals : Register → U32} {s : RegFile} {list : List Register} {k : Nat}
    (store : ∀ r ∈ list, ∀ idx,
      each r idx s = .ask (.w32 (slot start idx) (vals r)) fun _ => .done ((), s))
    (frame : ∀ i < list.length, inside (slot start (k + i))) (small : k + list.length < 2 ^ 30)
    (mem : σ) :
    ∃ mem', ((transfers each list k).aligned s).run answer mem = .ok mem' ((), s) ∧
      (∀ i (bound : i < list.length), word mem' (slot start (k + i)) = vals list[i]) ∧
      ∀ addr, inside addr → (∀ i < list.length, addr ≠ slot start (k + i)) →
        word mem' addr = word mem addr := by
  induction list generalizing k mem with
  | nil => exact ⟨mem, rfl, by simp, fun _ _ _ => rfl⟩
  | cons r rs ih =>
    rw [List.length_cons] at frame small
    have first : inside (slot start k) := frame 0 (Nat.succ_pos _)
    obtain ⟨mem₁, wrote, kept, others⟩ := keeps.write (slot start k) (vals r) mem first
    obtain ⟨mem₂, ran, stored, apart⟩ := ih (fun r listed => store r (List.mem_cons_of_mem _ listed))
      (k := k + 1) (fun i bound => by simpa [Nat.add_assoc, Nat.add_comm 1] using frame (i + 1) (by omega))
      (by omega) mem₁
    have next (i : Nat) : k + 1 + i = k + (i + 1) := by omega
    refine ⟨mem₂, ?_, fun i bound => ?_, fun addr within outside => ?_⟩
    · change ((each r k s >>= fun p => transfers each rs (k + 1) p.2).interpret alignmentWrapper).run
        answer mem = _
      rw [store r List.mem_cons_self]
      simpa [alignmentWrapper_w32 (keeps.aligned _ first), wrote, CpuM.aligned] using ran
    · cases i with
      | zero =>
        have before : word mem₂ (slot start k) = word mem₁ (slot start k) :=
          apart _ first fun i bound same => by
            have := slot_inj (by omega) (by omega) same
            omega
        exact before.trans kept
      | succ i =>
        rw [← next, List.getElem_cons_succ]
        exact stored i (Nat.lt_of_succ_lt_succ bound)
    · rw [apart addr within fun i bound => by
        rw [next]
        exact outside (i + 1) (Nat.succ_lt_succ bound)]
      exact others addr within (outside 0 (Nat.succ_pos _))

/-- The registers of a list, loaded one after the other. -/
def RegFile.loaded (s : RegFile) (vals : Nat → U32) : List Register → Nat → RegFile
  | [], _ => s
  | r :: rs, idx => (s.setIndex r (vals idx)).loaded vals rs (idx + 1)

omit keeps

section loaded

variable {vals : Nat → U32} {list : List Register}

theorem RegFile.loaded_of_notMem (general : ∀ r ∈ list, r.val < 16) {r' : Register} (apart : r' ∉ list)
    (s : RegFile) (k : Nat) : (s.loaded vals list k).index r' = s.index r' := by
  induction list generalizing s k with
  | nil => rfl
  | cons r rs ih =>
    rw [List.mem_cons, not_or] at apart
    rw [loaded, ih (fun r listed => general r (List.mem_cons_of_mem _ listed)) apart.2,
      s.index_setIndex_of_ne (general r List.mem_cons_self) (Ne.symm apart.1)]

theorem RegFile.loaded_getElem (general : ∀ r ∈ list, r.val < 16) (nodup : list.Nodup) (s : RegFile)
    (k : Nat) {i : Nat} (bound : i < list.length) : (s.loaded vals list k).index list[i] = vals (k + i) := by
  induction list generalizing s k i with
  | nil => cases bound
  | cons r rs ih =>
    have later := fun r listed => general r (List.mem_cons_of_mem _ listed)
    rw [List.nodup_cons] at nodup
    cases i with
    | zero =>
      rw [loaded, List.getElem_cons_zero, RegFile.loaded_of_notMem later nodup.1]
      exact s.index_setIndex_self r (vals k)
    | succ i =>
      rw [loaded, List.getElem_cons_succ, ih later nodup.2 _ _ (Nat.lt_of_succ_lt_succ bound)]
      congr 1
      omega

end loaded

include keeps

theorem loads_run {list : List Register} {k : Nat}
    (load : ∀ r ∈ list, ∀ idx s,
      each r idx s = .ask (.r32 (slot start idx)) fun val => .done ((), s.setIndex r val))
    (frame : ∀ i < list.length, inside (slot start (k + i))) (s : RegFile) (mem : σ) :
    ((transfers each list k).aligned s).run answer mem =
      .ok mem ((), s.loaded (fun idx => word mem (slot start idx)) list k) := by
  induction list generalizing k s with
  | nil => rfl
  | cons r rs ih =>
    rw [List.length_cons] at frame
    have first : inside (slot start k) := frame 0 (Nat.succ_pos _)
    have rest := ih (fun r listed => load r (List.mem_cons_of_mem _ listed)) (k := k + 1)
      (fun i bound => by simpa [Nat.add_assoc, Nat.add_comm 1] using frame (i + 1) (by omega))
      (s.setIndex r (word mem (slot start k)))
    change ((each r k s >>= fun p => transfers each rs (k + 1) p.2).interpret alignmentWrapper).run
      answer mem = _
    rw [load r List.mem_cons_self]
    simpa [alignmentWrapper_r32 (keeps.aligned _ first), keeps.read _ _ first, RegFile.loaded, CpuM.aligned]
      using rest

end words

namespace Arm

/-- What the base of a block transfer becomes. -/
def blockEnd (inst base : U32) : U32 :=
  let size := BitVec.ofNat 32 ((registerList (inst.extractLsb' 0 16)).length * 4)
  if inst.getBit 23 then base + size else base - size

/-- The lowest address of a block transfer. -/
def blockStart (inst base : U32) : U32 :=
  (if inst.getBit 23 then base else blockEnd inst base) +
    if inst.getBit 24 = inst.getBit 23 then 4 else 0

/-- A block transfer that writes its base back, and does not concern other modes. -/
def Plain (inst : U32) : Prop := inst.getBit 22 = false ∧ inst.getBit 21 = true

theorem idxAddr_eq (inst base : U32) (idx : Nat) :
    (if inst.getBit 23 then base else blockEnd inst base) +
        BitVec.ofNat 32 ((idx + if inst.getBit 24 = inst.getBit 23 then 1 else 0) * 4) =
      slot (blockStart inst base) idx := by
  rw [slot, blockStart]
  by_cases before : inst.getBit 24 = inst.getBit 23
  · rw [if_pos before, if_pos before, BitVec.add_assoc, Nat.add_mul, BitVec.ofNat_add, BitVec.add_comm 4]
    rfl
  · rw [if_neg before, if_neg before, Nat.add_zero]
    exact congrArg (· + _) (BitVec.add_zero _).symm

theorem blockXfer_store {inst : U32} (plain : Plain inst) (store : inst.getBit 20 = false) (pc : U32)
    {s : RegFile} {base : U32} (found : s.index (regField inst 16) = base) : blockXfer inst pc s =
      transfers (fun r idx => do
          let val ← blockVal pc true (regField inst 16) r idx base
          w32 (slot (blockStart inst base) idx) val)
        (registerList (inst.extractLsb' 0 16)) 0
        (s.setIndex (regField inst 16) (blockEnd inst base)) := by
  subst found
  simp only [← idxAddr_eq]
  simp [blockXfer, plain.1, plain.2, store, blockEnd]

theorem blockXfer_load {inst : U32} (plain : Plain inst) (load : inst.getBit 20 = true) (pc : U32)
    {s : RegFile} {base : U32} (found : s.index (regField inst 16) = base) : blockXfer inst pc s =
      transfers (fun r idx => do
          let val ← r32 (slot (blockStart inst base) idx)
          setReg r val)
        (registerList (inst.extractLsb' 0 16)) 0
        (s.setIndex (regField inst 16) (blockEnd inst base)) := by
  subst found
  simp only [← idxAddr_eq]
  simp [blockXfer, plain.1, plain.2, load, blockEnd, when]

/-- A block store, and the load that goes back over what it has stored. -/
structure Pairs (store load : U32) : Prop where
  stores : Plain store ∧ store.getBit 20 = false
  loads : Plain load ∧ load.getBit 20 = true
  before : load.getBit 24 = !store.getBit 24
  upwards : load.getBit 23 = !store.getBit 23
  base : regField load 16 = regField store 16
  list : load.extractLsb' 0 16 = store.extractLsb' 0 16

theorem Pairs.blockEnd {store load : U32} (pair : Pairs store load) (base : U32) :
    Arm.blockEnd load (Arm.blockEnd store base) = base := by
  unfold Arm.blockEnd
  rw [pair.upwards, pair.list]
  cases store.getBit 23 with
  | true => exact BitVec.add_sub_cancel _ _
  | false => exact BitVec.sub_add_cancel _ _

theorem Pairs.blockStart {store load : U32} (pair : Pairs store load) (base : U32) :
    Arm.blockStart load (Arm.blockEnd store base) = Arm.blockStart store base := by
  unfold Arm.blockStart
  rw [pair.blockEnd, pair.upwards, pair.before]
  cases up : store.getBit 23 <;> cases store.getBit 24 <;> simp

section

variable {σ : Type} {answer : (op : MemOp) → σ → Outcome Empty σ op.Answer} {inside : U32 → Prop}
  {word : σ → U32 → U32}

/-- What is saved by a block store is restored by the load that goes back over it, and the base with
it, whatever came between them left in the other registers and elsewhere in the memory. -/
theorem save_restore (keeps : KeepsWords answer inside word) {store load : U32}
    (pair : Pairs store load) {s : RegFile} {base : Register} {list : List Register} {start : U32}
    (isBase : base = regField store 16) (isList : list = registerList (store.extractLsb' 0 16))
    (isStart : start = blockStart store (s.index base)) (free : base ∉ list ∧ Register.pc ∉ list)
    (frame : ∀ i < list.length, inside (slot start i)) (mem : σ) (pc : U32) :
    ∃ s₁ mem₁, ((blockXfer store pc).aligned s).run answer mem = .ok mem₁ ((), s₁) ∧
      (∀ addr, inside addr → (∀ i < list.length, addr ≠ slot start i) → word mem₁ addr = word mem addr) ∧
      ∀ s₂ mem₂ pc₂, s₂.index base = s₁.index base →
        (∀ i < list.length, word mem₂ (slot start i) = word mem₁ (slot start i)) →
        ∃ s₃, ((blockXfer load pc₂).aligned s₂).run answer mem₂ = .ok mem₂ ((), s₃) ∧
          s₃.index base = s.index base ∧ (∀ r ∈ list, s₃.index r = s.index r) ∧
          ∀ r, r ≠ base → r ∉ list → s₃.index r = s₂.index r := by
  have general : base.val < 16 := isBase ▸ Register.ofBits_lt _
  have lower : ∀ r ∈ list, r.val < 16 := isList ▸ registerList_lt
  have nodup : list.Nodup := isList ▸ nodup_registerList _
  have short : list.length ≤ 16 := isList ▸ length_registerList_le _
  have frame' : ∀ i < list.length, inside (slot start (0 + i)) := by simpa using frame
  let s₁ := s.setIndex base (blockEnd store (s.index base))
  have saves : ∀ r ∈ list, ∀ idx, (do
        let val ← blockVal pc true base r idx (s.index base)
        w32 (slot start idx) val : CpuM Unit) s₁ =
      .ask (.w32 (slot start idx) (s.index r)) fun _ => .done ((), s₁) := by
    intro r listed idx
    have other : r ≠ base := fun same => free.1 (same ▸ listed)
    have inner : r ≠ .pc := fun same => free.2 (same ▸ listed)
    simp [blockVal, other, inner, w32, s₁, s.index_setIndex_of_ne general (Ne.symm other)]
  obtain ⟨mem₁, ran, stored, apart⟩ := stores_run keeps (k := 0) saves frame' (by omega) mem
  refine ⟨s₁, mem₁, ?_, fun addr within outside => apart addr within (by simpa using outside), ?_⟩
  · rw [CpuM.aligned, blockXfer_store pair.stores.1 pair.stores.2 pc (congrArg s.index isBase.symm),
      ← isBase, ← isList, ← isStart]
    exact ran
  · intro s₂ mem₂ pc₂ found kept
    rw [RegFile.index_setIndex_self] at found
    have restores : ∀ r ∈ list, ∀ idx s', (do
          let val ← r32 (slot start idx)
          setReg r val : CpuM Unit) s' =
        .ask (.r32 (slot start idx)) fun val => .done ((), s'.setIndex r val) := fun _ _ _ _ => rfl
    have loads := loads_run keeps (k := 0) restores frame' (s₂.setIndex base (s.index base)) mem₂
    let s₃ := (s₂.setIndex base (s.index base)).loaded (fun idx => word mem₂ (slot start idx)) list 0
    refine ⟨s₃, ?_, ?_, fun r listed => ?_, fun r other unlisted => ?_⟩
    · have found' : s₂.index (regField load 16) = blockEnd store (s.index base) := by
        rw [pair.base, ← isBase, found]
      rw [CpuM.aligned, blockXfer_load pair.loads.1 pair.loads.2 pc₂ found', pair.base, pair.list,
        ← isBase, pair.blockStart, pair.blockEnd, ← isList, ← isStart]
      exact loads
    · rw [RegFile.loaded_of_notMem lower free.1, RegFile.index_setIndex_self]
    · obtain ⟨i, bound, rfl⟩ := List.getElem_of_mem listed
      rw [RegFile.loaded_getElem lower nodup, Nat.zero_add, kept i bound]
      simpa using stored i bound
    · rw [RegFile.loaded_of_notMem lower unlisted, s₂.index_setIndex_of_ne general (Ne.symm other)]

end

/-- `STMDB SP!, {R4, LR}` and `LDMIA SP!, {R4, LR}`. -/
theorem save_restore_push : ∃ s₁ mem₁,
    ((blockXfer 0xe92d4010 0x100).aligned RegFile.newEmpty).run wordMemory (fun _ => 0) =
      .ok mem₁ ((), s₁) := by
  have pair : Pairs 0xe92d4010 0xe8bd4010 :=
    ⟨⟨⟨rfl, rfl⟩, rfl⟩, ⟨⟨rfl, rfl⟩, rfl⟩, rfl, rfl, rfl, rfl⟩
  obtain ⟨s₁, mem₁, ran, _⟩ := save_restore keepsWords_wordMemory pair (s := RegFile.newEmpty) rfl rfl
    rfl (by decide) (by decide) (fun _ => 0) 0x100
  exact ⟨s₁, mem₁, ran⟩

end Arm

end Clicky.Armv4t
