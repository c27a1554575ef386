import Clicky.Eapp.InputEvents
import Clicky.Lib.Alternate
import Clicky.Lib.Runs

/-! Which button events reach a game, over any sequence of calls, writes and allocations. -/
namespace Clicky
open Runs

def hasChanged (current previous : U8) (id : Nat) : Bool :=
  current.getLsbD id != previous.getLsbD id

/-- How many buttons have changed. -/
def changedButtons (current previous : U8) : Nat :=
  (buttonIds.filter (hasChanged current previous)).length

def edges (current previous : U8) : List InputEvent :=
  inputEvents (current &&& ~~~previous) (previous &&& ~~~current)

theorem buttonEvents_edges (current previous : U8) {id : Nat} (button : id < 8) :
    buttonEvents (current &&& ~~~previous) (previous &&& ~~~current) id =
      if current.getLsbD id != previous.getLsbD id then
        [⟨BitVec.ofNat 8 id, if current.getLsbD id then pressKind else releaseKind⟩]
      else [] := by
  unfold buttonEvents
  rw [BitVec.getLsbD_and, BitVec.getLsbD_and, BitVec.getLsbD_not, BitVec.getLsbD_not]
  cases current.getLsbD id <;> cases previous.getLsbD id <;> simp [button]

theorem flatMap_eq_map_filter {A B : Type} {g : A → List B} {p : A → Bool} {f : A → B} {l : List A}
    (one : ∀ a ∈ l, g a = if p a then [f a] else []) : l.flatMap g = (l.filter p).map f := by
  induction l with
  | nil => rfl
  | cons a l ih =>
    rw [List.flatMap_cons, ih fun b member => one b (.tail _ member), one a List.mem_cons_self,
      List.filter_cons]
    split <;> rfl

/-- What the change of a button comes to. -/
def edge (current : U8) (id : Nat) : InputEvent :=
  ⟨BitVec.ofNat 8 id, if current.getLsbD id then pressKind else releaseKind⟩

theorem edges_eq (current previous : U8) :
    edges current previous = (buttonIds.filter (hasChanged current previous)).map (edge current) := by
  refine flatMap_eq_map_filter fun id member => ?_
  have button : id < 8 := (by decide : ∀ id ∈ buttonIds, id < 8) id member
  exact buttonEvents_edges current previous button

theorem length_edges (current previous : U8) :
    (edges current previous).length = changedButtons current previous := by
  rw [edges_eq, List.length_map]
  rfl

theorem edges_ascending (current previous : U8) :
    ((edges current previous).map InputEvent.id).Pairwise (· < ·) := by
  have all : (buttonIds.map (BitVec.ofNat 8)).Pairwise (· < ·) := by decide
  rw [edges_eq, List.map_map]
  exact all.sublist (List.filter_sublist.map _)

/-- The events of one button, as what they say of it. -/
def kinds (events : List InputEvent) (id : Nat) : List U8 :=
  (events.filter fun event => event.id == BitVec.ofNat 8 id).map InputEvent.kind

theorem kinds_append (events more : List InputEvent) (id : Nat) :
    kinds (events ++ more) id = kinds events id ++ kinds more id := by
  rw [kinds, List.filter_append, List.map_append]
  rfl

theorem kinds_edges (current previous : U8) {id : Nat} (button : id ∈ buttonIds) :
    kinds (edges current previous) id =
      if hasChanged current previous id then [(edge current id).kind] else [] := by
  have one : ∀ id ∈ buttonIds,
      (buttonIds.filter fun i => BitVec.ofNat 8 i == BitVec.ofNat 8 id) = [id] := by decide
  have same : (buttonIds.filter (hasChanged current previous)).filter
      (fun i => BitVec.ofNat 8 i == BitVec.ofNat 8 id) = [id].filter (hasChanged current previous) := by
    rw [← one id button, List.filter_filter, List.filter_filter]
    exact List.filter_congr fun _ _ => Bool.and_comm _ _
  rw [kinds, edges_eq, List.filter_map, List.map_map]
  refine (congrArg (List.map _) same).trans ?_
  by_cases changed : hasChanged current previous id = true
  · rw [List.filter_cons_of_pos changed, if_pos changed]
    rfl
  · rw [List.filter_cons_of_neg changed, if_neg changed]
    rfl

namespace InputImports

variable {imageSize : Nat}

theorem buildInputEventList_eq (s : InputImports imageSize) (sample : InputSample) :
    s.buildInputEventList sample =
      { s with inputEventPrevMask := sample.current }.pushEvents (sample.frameCounter.setWidth 32) 0
        (edges sample.current s.inputEventPrevMask).reverse := by
  unfold buildInputEventList
  dsimp only
  split
  · rename_i still
    rw [edges, still.1, still.2]
    rfl
  · rfl

/-- Where the heap ends is in the work RAM. -/
def HeapInside (s : InputImports imageSize) : Prop := EappBus.InWorkRam s.nextAlloc 0

/-- The word for the head of the list is in the work RAM. If a button has changed, the game gets a
list, its nodes fit on the heap, and they are apart from that word. -/
structure Deliverable (s : InputImports imageSize) (sample : InputSample) : Prop where
  head : sample.Delivers → EappBus.InWorkRam sample.headAddr 4
  delivers : changedButtons sample.current s.inputEventPrevMask ≠ 0 → sample.Delivers
  room : s.HasRoom (changedButtons sample.current s.inputEventPrevMask)
  apart : changedButtons sample.current s.inputEventPrevMask ≠ 0 →
    sample.headAddr.toNat + 4 ≤ s.nextAlloc.toNat ∨
      s.nextAlloc.toNat + 16 * changedButtons sample.current s.inputEventPrevMask ≤
        sample.headAddr.toNat

theorem writeBitsTo_frame {s s' : InputImports imageSize} {ptr bits : U32} {u : Unit}
    (done : s.writeBitsTo ptr bits = .ok s' u) :
    s'.nextAlloc = s.nextAlloc ∧ s'.inputEventPrevMask = s.inputEventPrevMask := by
  unfold writeBitsTo onBus at done
  split at done
  · obtain ⟨_, _, written, same⟩ := Outcome.bind_eq_ok.mp done
    obtain ⟨_, _, rfl⟩ := Outcome.zoom_eq_done.mp written
    cases same
    exact ⟨rfl, rfl⟩
  · cases done
    exact ⟨rfl, rfl⟩

/-- The head is written after the nodes, and does not touch them. -/
theorem EventStack.delivered {s : InputImports imageSize} {low : Nat} {head headAddr : U32}
    {nodes : List (U32 × InputEvent)} (stack : s.EventStack low head nodes)
    (above : RamRegion.base .workRam ≤ low) (heap : s.HeapInside) (few : nodes.length ≤ 5)
    (within : EappBus.InWorkRam headAddr 4)
    (apart : nodes ≠ [] → headAddr.toNat + 4 ≤ low ∨ s.nextAlloc.toNat ≤ headAddr.toNat) :
    ∃ bus, s.bus.writeGuestU32 headAddr head = .ok bus true ∧
      bus.eventListAt headAddr = some nodes := by
  obtain ⟨bus, written, mem⟩ := EappBus.writeGuestU32_workRam head (within.inside s.bus)
  refine ⟨bus, written, ?_⟩
  have four : (head.toLeBytes 4).length = 4 := head.length_toLeBytes 4
  have linked : Chain.Linked bus.eventCell 0 head nodes := by
    refine stack.linked.congr fun node member => ?_
    obtain ⟨first, last⟩ := stack.placed node member
    have inside : EappBus.InWorkRam node.1 16 :=
      ⟨Nat.le_trans above first, Nat.le_trans last heap.2⟩
    have base := inside.1
    have base' := within.1
    have away := apart (List.ne_nil_of_mem member)
    rw [EappBus.eventCell_workRam inside, EappBus.eventCell_workRam inside, mem,
      EappBus.nodeIn_overwrite_apart]
    rw [four]
    omega
  have reads : (bus.readGuestU32 headAddr).toOption = some head := by
    have fits : headAddr.toNat - RamRegion.base .workRam + (head.toLeBytes 4).length ≤
        (s.bus.bytes .workRam).length := by
      have whole : (s.bus.bytes .workRam).length = workRamSize := s.bus.workRam.size_mem
      have base := within.1
      have last := within.2
      rw [whole, four]
      omega
    have gives := EappBus.gives_readGuestU32 (within.inside bus)
    have here := List.slice_overwrite fits
    rw [four] at here
    rw [mem, here, BitVec.ofLeBytes_toLeBytes _ (by decide)] at gives
    exact gives.toOption
  unfold EappBus.eventListAt
  rw [reads]
  exact linked.walk few

/-- With room on the heap, what has changed since the call before is in a list. -/
theorem buildInputEventList_stack {s : InputImports imageSize} {sample : InputSample}
    (room : s.HasRoom (changedButtons sample.current s.inputEventPrevMask)) :
    ∃ s' head nodes, s.buildInputEventList sample = .ok s' head ∧
      s'.EventStack s.nextAlloc.toNat head nodes ∧
      nodes.map Prod.snd = edges sample.current s.inputEventPrevMask ∧
      s'.nextAlloc.toNat =
        s.nextAlloc.toNat + 16 * changedButtons sample.current s.inputEventPrevMask ∧
      s'.inputEventPrevMask = sample.current := by
  have count := length_edges sample.current s.inputEventPrevMask
  rw [buildInputEventList_eq]
  have empty : EventStack { s with inputEventPrevMask := sample.current } s.nextAlloc.toNat 0 [] :=
    ⟨rfl, nofun, .nil⟩
  have enough : HasRoom { s with inputEventPrevMask := sample.current }
      (edges sample.current s.inputEventPrevMask).reverse.length := by
    rw [List.length_reverse, count]
    exact room
  obtain ⟨s', head, nodes, done, stack, listed, top, mask⟩ :=
    empty.pushAll room.1 (Nat.le_refl _) (sample.frameCounter.setWidth 32) enough
  refine ⟨s', head, nodes, done, stack, ?_, ?_, mask⟩
  · rw [listed, List.reverse_reverse]
    exact List.append_nil _
  · rw [top, List.length_reverse, count]

/-- What the game gets is the list of what has changed. -/
theorem deliver_list {s s' : InputImports imageSize} {sample : InputSample} {u : Unit} {low : Nat}
    {head : U32} {nodes : List (U32 × InputEvent)} (stack : s.EventStack low head nodes)
    (above : RamRegion.base .workRam ≤ low) (heap : s.HeapInside) (few : nodes.length ≤ 5)
    (within : sample.Delivers → EappBus.InWorkRam sample.headAddr 4)
    (apart : nodes ≠ [] →
      sample.headAddr.toNat + 4 ≤ low ∨ s.nextAlloc.toNat ≤ sample.headAddr.toNat)
    (done : s.deliver sample head = .ok s' u) :
    s'.nextAlloc = s.nextAlloc ∧ s'.inputEventPrevMask = s.inputEventPrevMask ∧
      (sample.Delivers → s'.bus.eventListAt sample.headAddr = some nodes) := by
  unfold deliver at done
  split at done
  · rename_i delivers
    obtain ⟨bus, written, listed⟩ := stack.delivered above heap few (within delivers) apart
    rw [onBus, written] at done
    cases done
    exact ⟨rfl, rfl, fun _ => listed⟩
  · rename_i withheld
    cases done
    exact ⟨rfl, rfl, fun delivers => absurd delivers withheld⟩

theorem nodup_of_falling {nodes : List (U32 × InputEvent)}
    (falling : nodes.Pairwise fun m n => n.1.toNat < m.1.toNat) : (nodes.map Prod.fst).Nodup := by
  refine List.pairwise_map.mpr (falling.imp fun {m n} below same => ?_)
  rw [same] at below
  exact absurd below (Nat.lt_irrefl _)

theorem changedButtons_le (current previous : U8) : changedButtons current previous ≤ 5 :=
  List.length_filter_le _ buttonIds

/-- A call that can deliver what has changed does so. -/
theorem Deliverable.handled {s s' : InputImports imageSize} {sample : InputSample} {r : U32}
    (deliverable : s.Deliverable sample) (done : s.handleInputEvents sample = .ok s' r) :
    s'.HeapInside ∧ s'.inputEventPrevMask = sample.current ∧
      (sample.Delivers → ∃ nodes, s'.bus.eventListAt sample.headAddr = some nodes ∧
        nodes.map Prod.snd = edges sample.current s.inputEventPrevMask ∧
        (nodes.map Prod.fst).Nodup) := by
  obtain ⟨s₁, _, first, done⟩ := Outcome.bind_eq_ok.mp done
  obtain ⟨s₂, _, second, done⟩ := Outcome.bind_eq_ok.mp done
  obtain ⟨s₃, head, built, done⟩ := Outcome.bind_eq_ok.mp done
  obtain ⟨s₄, _, delivered, done⟩ := Outcome.bind_eq_ok.mp done
  cases done
  obtain ⟨heap₁, mask₁⟩ := writeBitsTo_frame first
  obtain ⟨heap₂, mask₂⟩ := writeBitsTo_frame second
  have heap := heap₂.trans heap₁
  have mask := mask₂.trans mask₁
  have room : s₂.HasRoom (changedButtons sample.current s₂.inputEventPrevMask) := by
    unfold HasRoom
    rw [heap, mask]
    exact deliverable.room
  obtain ⟨s₃', head', nodes, built', stack, listed, top, current⟩ := buildInputEventList_stack room
  cases built.symm.trans built'
  rw [mask] at listed top
  rw [heap] at top stack
  have count : nodes.length = changedButtons sample.current s.inputEventPrevMask := by
    rw [← List.length_map Prod.snd, listed, length_edges]
  have few : nodes.length ≤ 5 := count.trans_le (changedButtons_le _ _)
  have apart (some_node : nodes ≠ []) : sample.headAddr.toNat + 4 ≤ s.nextAlloc.toNat ∨
      s₃.nextAlloc.toNat ≤ sample.headAddr.toNat := by
    rw [top]
    exact deliverable.apart fun none => some_node (List.eq_nil_of_length_eq_zero (count.trans none))
  have heap₃ : s₃.HeapInside := by
    obtain ⟨low, high⟩ := deliverable.room
    exact ⟨by omega, by omega⟩
  obtain ⟨heap₄, mask₄, list⟩ :=
    deliver_list stack deliverable.room.1 heap₃ few deliverable.head apart delivered
  refine ⟨?_, mask₄.trans current, fun delivers => ?_⟩
  · unfold HeapInside
    rw [heap₄]
    exact heap₃
  · exact ⟨nodes, list delivers, listed, nodup_of_falling stack.falling⟩

end InputImports

inductive InputAction where
  | inputEvents (sample : InputSample)
  | allocate (len : U32)
  | write (width : Width) (offset : U32) (val : BitVec width.bits)

/-- The input imports, and the events that the game has been given. -/
structure InputRun (imageSize : Nat) where
  imports : InputImports imageSize
  delivered : List InputEvent := []

namespace InputRun

variable {imageSize : Nat}

def received (imports : InputImports imageSize) (sample : InputSample) : List InputEvent :=
  if sample.Delivers then
    ((imports.bus.eventListAt sample.headAddr).getD []).map Prod.snd
  else []

def step (s : InputRun imageSize) : InputAction → Option (InputRun imageSize)
  | .inputEvents sample => (s.imports.handleInputEvents sample).state?.map fun imports =>
    { imports, delivered := s.delivered ++ received imports sample }
  | .allocate len => (s.imports.alloc len).state?.map fun imports => { s with imports }
  | .write width offset val => (s.imports.bus.write width offset val).state?.map fun bus =>
    { s with imports := { s.imports with bus } }

def start (bus : EappBus imageSize) : InputRun imageSize := { imports := { bus } }

/-- A list as the game expects it. -/
def GoodList (bus : EappBus imageSize) (headAddr : U32) : Prop :=
  ∃ nodes, bus.eventListAt headAddr = some nodes ∧ (nodes.map Prod.fst).Nodup ∧
    (nodes.map fun node => node.2.id).Pairwise (· < ·)

/-- The events of each button alternate, and where the game was given a list, the last event of a
button is a press exactly if it is down. -/
def DeliversEdges (s : InputRun imageSize) : InputAction → Prop
  | .inputEvents sample => ∀ s', s.step (.inputEvents sample) = some s' →
      (∀ id ∈ buttonIds, (kinds s'.delivered id).Alternates pressKind releaseKind) ∧
        (sample.Delivers → GoodList s'.imports.bus sample.headAddr ∧
          ∀ id ∈ buttonIds, (kinds s'.delivered id).getLast? = some pressKind ↔
            sample.current.getLsbD id = true)
  | _ => True

def CanDeliver (s : InputRun imageSize) : InputAction → Prop
  | .inputEvents sample => s.imports.Deliverable sample
  | _ => True

/-- What the game has been given of a button is where the mask has it. -/
def Tracks (events : List InputEvent) (mask : U8) (id : Nat) : Prop :=
  (kinds events id).Alternates pressKind releaseKind ∧
    (kinds events id).turn pressKind releaseKind =
      if mask.getLsbD id then releaseKind else pressKind

structure Tracked (s : InputRun imageSize) : Prop where
  heap : s.imports.HeapInside
  buttons : ∀ id ∈ buttonIds, Tracks s.delivered s.imports.inputEventPrevMask id

theorem Tracks.edges {events : List InputEvent} {current previous : U8} {id : Nat}
    (tracks : Tracks events previous id) (button : id ∈ buttonIds) :
    Tracks (events ++ edges current previous) current id := by
  obtain ⟨alternates, turn⟩ := tracks
  have differ : pressKind ≠ releaseKind := by decide
  unfold Tracks
  rw [kinds_append, kinds_edges current previous button]
  by_cases changed : hasChanged current previous id = true
  · have opposite : previous.getLsbD id = !current.getLsbD id := by
      revert changed
      unfold hasChanged
      cases current.getLsbD id <;> cases previous.getLsbD id <;> decide
    rw [opposite] at turn
    rw [if_pos changed, List.alternates_concat, edge]
    cases down : current.getLsbD id with
    | true =>
      rw [down] at turn
      exact ⟨⟨alternates, turn.symm⟩, List.turn_concat_first differ turn _⟩
    | false =>
      rw [down] at turn
      exact ⟨⟨alternates, turn.symm⟩, List.turn_concat_second differ turn _⟩
  · have same : previous.getLsbD id = current.getLsbD id := by
      revert changed
      unfold hasChanged
      cases current.getLsbD id <;> cases previous.getLsbD id <;> decide
    rw [if_neg changed, List.append_nil, ← same]
    exact ⟨alternates, turn⟩

/-- The last event of a button is a press exactly if the mask has it. -/
theorem Tracks.last {events : List InputEvent} {mask : U8} {id : Nat} (tracks : Tracks events mask id) :
    (kinds events id).getLast? = some pressKind ↔ mask.getLsbD id = true := by
  obtain ⟨alternates, turn⟩ := tracks
  rw [alternates.getLast?_eq_iff (by decide), turn]
  cases mask.getLsbD id <;> decide

/-- What the game is given by a call that can deliver it. -/
theorem received_eq {s s' : InputImports imageSize} {sample : InputSample} {r : U32}
    (deliverable : s.Deliverable sample) (done : s.handleInputEvents sample = .ok s' r) :
    received s' sample = edges sample.current s.inputEventPrevMask := by
  obtain ⟨_, _, list⟩ := deliverable.handled done
  unfold received
  split
  · rename_i delivers
    obtain ⟨nodes, listed, same, _⟩ := list delivers
    rw [listed]
    exact same
  · rename_i withheld
    have still : changedButtons sample.current s.inputEventPrevMask = 0 := by
      by_contra changed
      exact withheld (deliverable.delivers changed)
    exact (List.length_eq_zero_iff.mp ((length_edges _ _).trans still)).symm

theorem Tracked.inputEvents {s : InputRun imageSize} {imports : InputImports imageSize}
    {sample : InputSample} {r : U32} (tracked : s.Tracked)
    (deliverable : s.imports.Deliverable sample)
    (done : s.imports.handleInputEvents sample = .ok imports r) :
    Tracked { imports, delivered := s.delivered ++ received imports sample } := by
  obtain ⟨heap, mask, _⟩ := deliverable.handled done
  refine ⟨heap, fun id button => ?_⟩
  dsimp only
  rw [received_eq deliverable done, mask]
  exact (tracked.buttons id button).edges button

theorem handled_of_step {s s' : InputRun imageSize} {sample : InputSample}
    (next : s.step (.inputEvents sample) = some s') : ∃ imports r,
      s.imports.handleInputEvents sample = .ok imports r ∧
        s' = { imports, delivered := s.delivered ++ received imports sample } := by
  rw [step] at next
  cases ran : s.imports.handleInputEvents sample with
  | done imports r =>
    rw [ran] at next
    cases next
    cases r with
    | error impossible => exact impossible.elim
    | ok r => exact ⟨imports, r, rfl, rfl⟩
  | panic m =>
    rw [ran] at next
    cases next

theorem Tracked.deliversEdges {s : InputRun imageSize} {action : InputAction} (tracked : s.Tracked)
    (can : s.CanDeliver action) : s.DeliversEdges action := by
  cases action with
  | inputEvents sample =>
    intro s' next
    obtain ⟨imports, r, done, rfl⟩ := handled_of_step next
    have after := tracked.inputEvents can done
    obtain ⟨_, mask, list⟩ := InputImports.Deliverable.handled can done
    refine ⟨fun id button => (after.buttons id button).1, fun delivers => ⟨?_, fun id button => ?_⟩⟩
    · obtain ⟨nodes, listed, same, apart⟩ := list delivers
      refine ⟨nodes, listed, apart, ?_⟩
      have ascending := edges_ascending sample.current s.imports.inputEventPrevMask
      rw [← same, List.map_map] at ascending
      exact ascending
    · rw [(after.buttons id button).last]
      dsimp only
      rw [mask]
  | allocate | write => trivial

theorem le_saturatingAdd (a b : U32) : a.toNat ≤ (saturatingAdd a b).toNat := by
  unfold saturatingAdd
  split
  · rename_i small
    rw [BitVec.toNat_add_of_lt small]
    exact Nat.le_add_right _ _
  · exact Nat.le_pred_of_lt a.isLt

theorem heapInside_alloc {s s' : InputImports imageSize} {len : U32} (heap : s.HeapInside)
    (done : (s.alloc len).state? = some s') :
    s'.HeapInside ∧ s'.inputEventPrevMask = s.inputEventPrevMask := by
  unfold InputImports.alloc allocZeroed at done
  split at done
  · cases done
  · dsimp only at done
    split at done
    · rename_i fits
      cases done
      have top := GuestHeap.workRamEnd_toNat
      have base := EappBus.workRam_base
      have size : workRamSize = 0x4000000 := rfl
      rw [BitVec.le_def, top] at fits
      refine ⟨⟨Nat.le_trans heap.1 (le_saturatingAdd _ _), ?_⟩, rfl⟩
      rw [base, size]
      exact fits
    · cases done
      exact ⟨heap, rfl⟩

theorem Tracked.step {s s' : InputRun imageSize} {action : InputAction} (tracked : s.Tracked)
    (can : s.CanDeliver action) (next : s.step action = some s') : s'.Tracked := by
  cases action with
  | inputEvents sample =>
    obtain ⟨imports, r, done, rfl⟩ := handled_of_step next
    exact tracked.inputEvents can done
  | allocate len =>
    obtain ⟨imports, allocated, rfl⟩ := Option.map_eq_some_iff.mp next
    obtain ⟨heap, mask⟩ := heapInside_alloc tracked.heap allocated
    refine ⟨heap, fun id button => ?_⟩
    dsimp only
    rw [mask]
    exact tracked.buttons id button
  | write width offset val =>
    obtain ⟨bus, _, rfl⟩ := Option.map_eq_some_iff.mp next
    exact ⟨tracked.heap, tracked.buttons⟩

theorem tracked_start (bus : EappBus imageSize) : (start bus).Tracked := by
  have heap : EappBus.InWorkRam (workRamBase + 0x1000) 0 := ⟨by decide, by decide⟩
  have up : ∀ id, (0 : U8).getLsbD id = false := fun id => BitVec.getLsbD_zero
  refine ⟨heap, fun id _ => ⟨trivial, ?_⟩⟩
  change pressKind = if (0 : U8).getLsbD id then releaseKind else pressKind
  rw [up id]
  rfl

/-- In a run in which each call can deliver what has changed, the game gets each change of a button
once, in order. -/
theorem edges_delivered (bus : EappBus imageSize) (actions : List InputAction)
    (can : BeforeEach step CanDeliver (start bus) actions) :
    BeforeEach step DeliversEdges (start bus) actions :=
  can.mono_of_invariant (I := Tracked) (fun _ _ _ tracked here next => tracked.step here next)
    (fun _ _ tracked here => tracked.deliversEdges here) (tracked_start bus)

def noImage : EappBus 0 := .start (Ram.new 0)

/-- A call without pointers for the mask, with the menu button up or down. -/
def menuAt (r4 : U32) (menu : Bool) : InputSample := { args := ⟨0, 0, 0, 0⟩, r4, host := { menu } }

theorem press_delivered :
    BeforeEach step DeliversEdges (start noImage) [.inputEvents (menuAt 0x10000000 true)] :=
  edges_delivered noImage _
    ⟨{ head := fun _ => ⟨by decide, by decide⟩
       delivers := fun _ => by decide
       room := ⟨by decide, by decide⟩
       apart := fun _ => .inl (by decide) }, fun _ _ => trivial⟩

theorem writeBitsTo_null (s : InputImports imageSize) (bits : U32) :
    s.writeBitsTo 0 bits = .ok s () := if_neg (not_not_intro rfl)

theorem handled_without_pointers (s : InputImports imageSize) (sample : InputSample)
    (pointers : sample.args.r0 = 0 ∧ sample.args.r1 = 0)
    (room : s.HasRoom (changedButtons sample.current s.inputEventPrevMask))
    (within : sample.Delivers → EappBus.InWorkRam sample.headAddr 4) :
    ∃ s', s.handleInputEvents sample = .ok s' sample.bits ∧ s'.inputEventPrevMask = sample.current ∧
      s'.nextAlloc.toNat =
        s.nextAlloc.toNat + 16 * changedButtons sample.current s.inputEventPrevMask := by
  obtain ⟨s', head, nodes, built, _, _, top, mask⟩ := InputImports.buildInputEventList_stack room
  rw [InputImports.handleInputEvents, pointers.1, writeBitsTo_null, Outcome.bind_ok, pointers.2,
    writeBitsTo_null, Outcome.bind_ok, built, Outcome.bind_ok, InputImports.deliver]
  split
  · rename_i delivers
    obtain ⟨bus, written, _⟩ :=
      EappBus.writeGuestU32_workRam head ((within delivers).inside s'.bus)
    rw [InputImports.onBus, written]
    exact ⟨{ s' with bus }, rfl, mask, top⟩
  · exact ⟨s', rfl, mask, top⟩

theorem press_withheld : ∃ s₁, (start noImage).imports.handleInputEvents (menuAt 0 true) =
    .ok s₁ (menuAt 0 true).bits ∧ s₁.inputEventPrevMask = 2 ∧ s₁.nextAlloc.toNat = 0x10001010 := by
  obtain ⟨s₁, done, mask, top⟩ := handled_without_pointers (start noImage).imports (menuAt 0 true)
    ⟨rfl, rfl⟩ ⟨by decide, by decide⟩ fun delivers => absurd delivers (by decide)
  exact ⟨s₁, done, mask.trans (by decide), top.trans (by decide)⟩

theorem release_deliverable {s : InputImports 0} (mask : s.inputEventPrevMask = 2)
    (top : s.nextAlloc.toNat = 0x10001010) : s.Deliverable (menuAt 0x10000000 false) := by
  have changed : changedButtons (menuAt 0x10000000 false).current 2 = 1 := by decide
  have room : s.HasRoom 1 := by
    unfold InputImports.HasRoom EappBus.InWorkRam
    rw [top]
    exact ⟨by decide, by decide⟩
  refine ⟨fun _ => ⟨by decide, by decide⟩, fun _ => by decide, ?_, fun _ => .inl ?_⟩
  · rw [mask, changed]
    exact room
  · rw [top]
    decide

/-- The menu button goes down in a call where the game has no list, and up in one where it has:
the game is given a release without a press. -/
theorem press_lost :
    ¬ BeforeEach step DeliversEdges (start noImage)
      [.inputEvents (menuAt 0 true), .inputEvents (menuAt 0x10000000 false)] := by
  rintro ⟨_, later⟩
  obtain ⟨s₁, first, mask, top⟩ := press_withheld
  have deliverable := release_deliverable mask top
  obtain ⟨s₂, second, _⟩ := handled_without_pointers s₁ (menuAt 0x10000000 false) ⟨rfl, rfl⟩
    deliverable.room deliverable.head
  have up : (menuAt 0x10000000 false).current = 0 := by decide
  have given := received_eq deliverable second
  rw [mask, up] at given
  obtain ⟨delivers, _⟩ := later _ (by rw [step, first]; rfl)
  obtain ⟨alternates, _⟩ := delivers _ (by rw [step]; dsimp only; rw [second]; rfl)
  have menu := alternates 1 (by decide)
  dsimp only at menu
  rw [given] at menu
  exact absurd menu.1 (by decide)

end InputRun

end Clicky
