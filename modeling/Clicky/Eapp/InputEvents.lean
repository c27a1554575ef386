import Clicky.Eapp.Alloc
import Clicky.Eapp.Coherence
import Clicky.Eapp.GuestMemory
import Clicky.Lib.Chain

/-! The buttons as a game asks for them: a mask of those that are down, and a list in its memory of
those that have changed. -/
namespace Clicky

structure EappInputState where
  up : Bool := false
  down : Bool := false
  left : Bool := false
  right : Bool := false
  action : Bool := false
  menu : Bool := false
  deriving DecidableEq, Repr

/-- What the entries of the input script add that are active in a frame: buttons held down, raw
bits, and ids of events. -/
structure InputScript where
  held : EappInputState := {}
  bits : U32 := 0
  events : List U8 := []
  deriving DecidableEq, Repr

/-- The arguments and registers of one call, with what the host has at that time. -/
structure InputSample where
  args : GuestArgs
  r4 : U32
  host : EappInputState
  script : InputScript := {}
  frameCounter : BitVec 64 := 0

structure InputEvent where
  id : U8
  kind : U8
  deriving DecidableEq, Repr

def EappInputState.held (state script : EappInputState) : EappInputState :=
  { up := state.up || script.up
    down := state.down || script.down
    left := state.left || script.left
    right := state.right || script.right
    action := state.action || script.action
    menu := state.menu || script.menu }

def bitIf {w : Nat} (b : Bool) (n : Nat) : BitVec w := if b then 1 <<< n else 0

def inputStateBits (state : EappInputState) : U32 :=
  bitIf state.up 0 ||| bitIf state.down 1 ||| bitIf state.left 2 ||| bitIf state.right 3 |||
    bitIf state.action 4 ||| bitIf state.menu 5

def inputEventIdMask (state : EappInputState) (scripted : List U8) : U8 :=
  scripted.foldl (fun (mask id : U8) => if 1 ≤ id ∧ id ≤ 5 then mask ||| 1 <<< id.toNat else mask)
    (bitIf state.menu 1 ||| bitIf state.action 2 ||| bitIf state.left 3 ||| bitIf state.right 4 |||
      bitIf (state.up || state.down) 5)

namespace InputSample

def state (sample : InputSample) : EappInputState := sample.host.held sample.script.held

def bits (sample : InputSample) : U32 := inputStateBits sample.state ||| sample.script.bits

def current (sample : InputSample) : U8 := inputEventIdMask sample.state sample.script.events

/-- The game gets its list where this is an address in the work RAM. -/
def Delivers (sample : InputSample) : Prop := workRamBase ≤ sample.r4 ∧ sample.r4 < workRamEnd

instance (sample : InputSample) : Decidable sample.Delivers := inferInstanceAs (Decidable (_ ∧ _))

def headAddr (sample : InputSample) : U32 := sample.r4 + 0x30

end InputSample

/-- The buttons that have events. -/
def buttonIds : List Nat := [1, 2, 3, 4, 5]

def pressKind : U8 := 2
def releaseKind : U8 := 1

/-- What has changed of one button. -/
def buttonEvents (pressed released : U8) (id : Nat) : List InputEvent :=
  (if pressed.getLsbD id then [⟨BitVec.ofNat 8 id, pressKind⟩] else []) ++
    if released.getLsbD id then [⟨BitVec.ofNat 8 id, releaseKind⟩] else []

def inputEvents (pressed released : U8) : List InputEvent :=
  buttonIds.flatMap (buttonEvents pressed released)

/-- What of the emulator the input imports use. -/
structure InputImports (imageSize : Nat) where
  bus : EappBus imageSize
  nextAlloc : U32 := workRamBase + 0x1000
  inputEventPrevMask : U8 := 0

namespace InputImports

variable {imageSize : Nat}

def alloc (s : InputImports imageSize) (len : U32) : Outcome Empty (InputImports imageSize) U32 :=
  (allocZeroed s.nextAlloc len).zoom fun nextAlloc => { s with nextAlloc }

def onBus {α : Type} (s : InputImports imageSize)
    (f : EappBus imageSize → Outcome Empty (EappBus imageSize) α) :
    Outcome Empty (InputImports imageSize) α :=
  (f s.bus).zoom fun bus => { s with bus }

/-- A node in front of the list at `next`. -/
def pushEvent (frame : U32) (s : InputImports imageSize) (next : U32) (event : InputEvent) :
    Outcome Empty (InputImports imageSize) U32 :=
  (s.alloc 0x10).bind fun s node =>
    (s.onBus (·.writeGuestBytes node [event.id, event.kind])).bind fun s _ =>
      (s.onBus (·.writeGuestU32 (node + 4) frame)).bind fun s _ =>
        (s.onBus (·.writeGuestU32 (node + 8) next)).bind fun s _ => .ok s node

def pushEvents (frame : U32) (s : InputImports imageSize) (next : U32) :
    List InputEvent → Outcome Empty (InputImports imageSize) U32
  | [] => .ok s next
  | event :: events => (s.pushEvent frame next event).bind fun s node => s.pushEvents frame node events

def buildInputEventList (s : InputImports imageSize) (sample : InputSample) :
    Outcome Empty (InputImports imageSize) U32 :=
  let current := sample.current
  let previous := s.inputEventPrevMask
  let s := { s with inputEventPrevMask := current }
  let pressed := current &&& ~~~previous
  let released := previous &&& ~~~current
  if pressed = 0 ∧ released = 0 then .ok s 0
  else s.pushEvents (sample.frameCounter.setWidth 32) 0 (inputEvents pressed released).reverse

def writeBitsTo (s : InputImports imageSize) (ptr bits : U32) :
    Outcome Empty (InputImports imageSize) Unit :=
  if ptr ≠ 0 then (s.onBus (·.writeGuestU32 ptr bits)).map fun _ => () else .ok s ()

def deliver (s : InputImports imageSize) (sample : InputSample) (eventList : U32) :
    Outcome Empty (InputImports imageSize) Unit :=
  if sample.Delivers then
    (s.onBus (·.writeGuestU32 sample.headAddr eventList)).map fun _ => ()
  else .ok s ()

/-- InputEvents:0. -/
def handleInputEvents (s : InputImports imageSize) (sample : InputSample) :
    Outcome Empty (InputImports imageSize) U32 :=
  (s.writeBitsTo (sample.args.r0) sample.bits).bind fun s _ =>
    (s.writeBitsTo (sample.args.r1) sample.bits).bind fun s _ =>
      (s.buildInputEventList sample).bind fun s eventList =>
        (s.deliver sample eventList).map fun _ => sample.bits

end InputImports

namespace EappBus

variable {imageSize : Nat}

/-- A node of the list, the way the game reads it: the event, and where the next node is. -/
def eventNode (b : EappBus imageSize) (addr : U32) : Attempt String (InputEvent × U32) := do
  let id ← attempt (b.r8 addr)
  let kind ← attempt (b.r8 (addr + 1))
  let next ← b.readGuestU32 (addr + 8)
  return (⟨id, kind⟩, next)

def eventCell (b : EappBus imageSize) (addr : U32) : Option (InputEvent × U32) :=
  (b.eventNode addr).toOption

/-- A list has one node for each of the five buttons at most. -/
def eventListAt (b : EappBus imageSize) (headAddr : U32) : Option (List (U32 × InputEvent)) :=
  (b.readGuestU32 headAddr).toOption.bind (Chain.walk b.eventCell 0 5)

/-- Where a node is in the bytes of the work RAM, it is what they say. -/
def nodeIn (mem : List U8) (pos : Nat) : InputEvent × U32 :=
  (⟨.ofLeBytes 8 (mem.slice pos 1), .ofLeBytes 8 (mem.slice (pos + 1) 1)⟩,
    .ofLeBytes 32 (mem.slice (pos + 8) 4))

/-- An address in the work RAM, with room for some bytes after it. -/
def InWorkRam (addr : U32) (len : Nat) : Prop :=
  RamRegion.base .workRam ≤ addr.toNat ∧ addr.toNat + len ≤ RamRegion.base .workRam + workRamSize

theorem workRam_base : RamRegion.base .workRam = 0x10000000 := rfl

theorem InWorkRam.inside {addr : U32} {len : Nat} (within : InWorkRam addr len)
    (b : EappBus imageSize) : b.Inside .workRam addr len := within

theorem InWorkRam.shorter {addr : U32} {len len' : Nat} (within : InWorkRam addr len)
    (shorter : len' ≤ len) : InWorkRam addr len' :=
  ⟨within.1, Nat.le_trans (Nat.add_le_add_left shorter _) within.2⟩

/-- An address further on, still in the work RAM. -/
theorem InWorkRam.add {addr : U32} {len : Nat} (within : InWorkRam addr len) (n : U32) (len' : Nat)
    (further : n.toNat + len' ≤ len) : InWorkRam (addr + n) len' ∧
      (addr + n).toNat - RamRegion.base .workRam =
        addr.toNat - RamRegion.base .workRam + n.toNat := by
  obtain ⟨above, below⟩ := within
  have base := workRam_base
  have size : workRamSize = 0x4000000 := rfl
  have small : addr.toNat + n.toNat < 2 ^ 32 := by omega
  have sum : (addr + n).toNat = addr.toNat + n.toNat := BitVec.toNat_add_of_lt small
  unfold InWorkRam
  rw [sum]
  exact ⟨⟨by omega, by omega⟩, by omega⟩

theorem eventCell_workRam {b : EappBus imageSize} {addr : U32} (within : InWorkRam addr 16) :
    b.eventCell addr =
      some (nodeIn (b.bytes .workRam) (addr.toNat - RamRegion.base .workRam)) := by
  obtain ⟨in_second, second⟩ := within.add 1 1 (by decide)
  obtain ⟨in_third, third⟩ := within.add 8 4 (by decide)
  have id := gives_r8 ((within.shorter (by decide)).inside b)
  have kind := gives_r8 (in_second.inside b)
  have next := gives_readGuestU32 (in_third.inside b)
  rw [second] at kind
  rw [third] at next
  refine Attempt.Gives.toOption ((Attempt.gives_bind _ _ _).mpr ⟨_, id, ?_⟩)
  refine (Attempt.gives_bind _ _ _).mpr ⟨_, kind, ?_⟩
  exact (Attempt.gives_bind _ _ _).mpr ⟨_, next, (Attempt.gives_pure _ _).mpr rfl⟩

/-- The bytes of the work RAM with a node written into them. -/
def withNode (mem : List U8) (pos : Nat) (event : InputEvent) (frame next : U32) : List U8 :=
  (((mem.overwrite pos (event.id.toLeBytes 1)).overwrite (pos + 1)
    (event.kind.toLeBytes 1)).overwrite (pos + 4) (frame.toLeBytes 4)).overwrite (pos + 8)
      (next.toLeBytes 4)

theorem nodeIn_withNode {mem : List U8} {pos : Nat} (fits : pos + 16 ≤ mem.length)
    (event : InputEvent) (frame next : U32) :
    nodeIn (withNode mem pos event frame next) pos = (event, next) := by
  have one (v : U8) : (v.toLeBytes 1).length = 1 := v.length_toLeBytes 1
  have four (v : U32) : (v.toLeBytes 4).length = 4 := v.length_toLeBytes 4
  have id : (withNode mem pos event frame next).slice pos 1 = event.id.toLeBytes 1 := by
    unfold withNode
    rw [List.slice_overwrite_apart (.inl (by omega)), List.slice_overwrite_apart (.inl (by omega)),
      List.slice_overwrite_apart (.inl (by omega))]
    exact List.slice_overwrite (by rw [one]; omega)
  have kind : (withNode mem pos event frame next).slice (pos + 1) 1 = event.kind.toLeBytes 1 := by
    unfold withNode
    rw [List.slice_overwrite_apart (.inl (by omega)), List.slice_overwrite_apart (.inl (by omega))]
    exact List.slice_overwrite
      (by rw [one, List.length_overwrite]; omega)
  have link : (withNode mem pos event frame next).slice (pos + 8) 4 = next.toLeBytes 4 := by
    unfold withNode
    exact List.slice_overwrite
      (by rw [four]; simp only [List.length_overwrite]; omega)
  unfold nodeIn
  rw [id, kind, link, BitVec.ofLeBytes_toLeBytes _ (by decide),
    BitVec.ofLeBytes_toLeBytes _ (by decide), BitVec.ofLeBytes_toLeBytes _ (by decide)]

theorem nodeIn_overwrite_apart {mem : List U8} {pos q : Nat} {ys : List U8}
    (apart : q + 16 ≤ pos ∨ pos + ys.length ≤ q) : nodeIn (mem.overwrite pos ys) q = nodeIn mem q := by
  unfold nodeIn
  rw [List.slice_overwrite_apart (by omega), List.slice_overwrite_apart (by omega),
    List.slice_overwrite_apart (by omega)]

theorem nodeIn_withNode_apart {mem : List U8} {pos q : Nat} (below : q + 16 ≤ pos)
    (event : InputEvent) (frame next : U32) :
    nodeIn (withNode mem pos event frame next) q = nodeIn mem q := by
  unfold withNode
  rw [nodeIn_overwrite_apart (.inl (by omega)), nodeIn_overwrite_apart (.inl (by omega)),
    nodeIn_overwrite_apart (.inl (by omega)), nodeIn_overwrite_apart (.inl below)]

end EappBus

namespace InputImports

variable {imageSize : Nat}

/-- There is room on the heap for some more nodes. -/
def HasRoom (s : InputImports imageSize) (count : Nat) : Prop :=
  EappBus.InWorkRam s.nextAlloc (16 * count)

theorem alloc_node {s : InputImports imageSize} {count : Nat} (room : s.HasRoom (count + 1)) :
    ∃ stop : U32, stop.toNat = s.nextAlloc.toNat + 16 ∧
      s.alloc 0x10 = .ok { s with nextAlloc := stop } s.nextAlloc := by
  have fits : GuestHeap.Fits { nextAlloc := s.nextAlloc } (.hle 0x10) := by
    have end_ := GuestHeap.workRamEnd_toNat
    have base := EappBus.workRam_base
    have size : workRamSize = 0x4000000 := rfl
    have len : (AllocRequest.hle 0x10).blockLen = 16 := rfl
    have below := room.2
    unfold GuestHeap.Fits
    dsimp only
    omega
  obtain ⟨stop, top, done⟩ := GuestHeap.allocZeroed_fits (r := .hle 0x10) (by decide) fits
  refine ⟨stop, top, ?_⟩
  change (allocZeroed s.nextAlloc 0x10).zoom _ = _
  rw [show allocZeroed s.nextAlloc 0x10 = .ok stop s.nextAlloc from done]
  rfl

/-- The node is pushed where the heap ends, and the heap grows by it. -/
theorem pushEvent_workRam {s : InputImports imageSize} {count : Nat} (room : s.HasRoom (count + 1))
    (frame next : U32) (event : InputEvent) :
    ∃ s', s.pushEvent frame next event = .ok s' s.nextAlloc ∧
      s'.nextAlloc.toNat = s.nextAlloc.toNat + 16 ∧
      s'.inputEventPrevMask = s.inputEventPrevMask ∧
      s'.bus.bytes .workRam = EappBus.withNode (s.bus.bytes .workRam)
        (s.nextAlloc.toNat - RamRegion.base .workRam) event frame next := by
  obtain ⟨stop, top, allocated⟩ := alloc_node room
  have within : EappBus.InWorkRam s.nextAlloc 16 := room.shorter (by omega)
  obtain ⟨in_kind, kind_at⟩ := within.add 1 1 (by decide)
  obtain ⟨in_frame, frame_at⟩ := within.add 4 4 (by decide)
  obtain ⟨in_next, next_at⟩ := within.add 8 4 (by decide)
  obtain ⟨b₁, first, mem₁⟩ := EappBus.writeGuestByte_workRam event.id [event.kind]
    ((within.shorter (by decide)).inside s.bus)
  obtain ⟨b₂, second, mem₂⟩ := EappBus.writeGuestByte_workRam event.kind [] (in_kind.inside b₁)
  obtain ⟨b₃, third, mem₃⟩ := EappBus.writeGuestU32_workRam frame (in_frame.inside b₂)
  obtain ⟨b₄, fourth, mem₄⟩ := EappBus.writeGuestU32_workRam next (in_next.inside b₃)
  rw [kind_at, mem₁] at mem₂
  rw [frame_at, mem₂] at mem₃
  rw [next_at, mem₃] at mem₄
  refine ⟨{ s with bus := b₄, nextAlloc := stop }, ?_, top, rfl, mem₄⟩
  have bytes : s.bus.writeGuestBytes s.nextAlloc [event.id, event.kind] = .ok b₂ true :=
    first.trans second
  simp only [pushEvent, allocated, onBus, bytes, third, fourth, Outcome.bind_ok, Outcome.zoom_done]

/-- The list at `head` is in nodes between `low` and the end of the heap, the first one last. -/
structure EventStack (s : InputImports imageSize) (low : Nat) (head : U32)
    (nodes : List (U32 × InputEvent)) : Prop where
  linked : Chain.Linked s.bus.eventCell 0 head nodes
  placed : ∀ node ∈ nodes, low ≤ node.1.toNat ∧ node.1.toNat + 16 ≤ s.nextAlloc.toNat
  falling : nodes.Pairwise fun m n => n.1.toNat < m.1.toNat

theorem EventStack.push {s : InputImports imageSize} {low : Nat} {head : U32}
    {nodes : List (U32 × InputEvent)} (stack : s.EventStack low head nodes)
    (above : RamRegion.base .workRam ≤ low) (below : low ≤ s.nextAlloc.toNat) {count : Nat}
    (room : s.HasRoom (count + 1)) (frame : U32) (event : InputEvent) :
    ∃ s', s.pushEvent frame head event = .ok s' s.nextAlloc ∧
      s'.EventStack low s.nextAlloc ((s.nextAlloc, event) :: nodes) ∧
      s'.nextAlloc.toNat = s.nextAlloc.toNat + 16 ∧
      s'.inputEventPrevMask = s.inputEventPrevMask := by
  obtain ⟨s', done, top, mask, mem⟩ := pushEvent_workRam room frame head event
  refine ⟨s', done, ⟨?_, ?_, ?_⟩, top, mask⟩
  · have base := EappBus.workRam_base
    have within : EappBus.InWorkRam s.nextAlloc 16 := room.shorter (by omega)
    have fits : s.nextAlloc.toNat - RamRegion.base .workRam + 16 ≤ (s.bus.bytes .workRam).length := by
      have whole : (s.bus.bytes .workRam).length = workRamSize := s.bus.workRam.size_mem
      have last := within.2
      rw [whole]
      omega
    refine Chain.Linked.push (stack.linked.congr fun node member => ?_) ?_ ?_
    · obtain ⟨first, last⟩ := stack.placed node member
      have inside : EappBus.InWorkRam node.1 16 :=
        ⟨Nat.le_trans above first, Nat.le_trans last (Nat.le_trans (Nat.le_add_right _ _) within.2)⟩
      rw [EappBus.eventCell_workRam inside, EappBus.eventCell_workRam inside, mem,
        EappBus.nodeIn_withNode_apart (by omega)]
    · intro zero
      have first := within.1
      rw [zero, base] at first
      exact absurd first (by decide)
    · rw [EappBus.eventCell_workRam within, mem, EappBus.nodeIn_withNode fits]
  · intro node member
    rw [top]
    rcases List.mem_cons.mp member with rfl | older
    · exact ⟨below, Nat.le_refl _⟩
    · obtain ⟨first, last⟩ := stack.placed node older
      exact ⟨first, by omega⟩
  · refine List.pairwise_cons.mpr ⟨fun node member => ?_, stack.falling⟩
    obtain ⟨_, last⟩ := stack.placed node member
    dsimp only
    omega

theorem EventStack.pushAll {s : InputImports imageSize} {low : Nat} {head : U32}
    {nodes : List (U32 × InputEvent)} (stack : s.EventStack low head nodes)
    (above : RamRegion.base .workRam ≤ low) (below : low ≤ s.nextAlloc.toNat) (frame : U32)
    {events : List InputEvent} (room : s.HasRoom events.length) :
    ∃ s' head' nodes', s.pushEvents frame head events = .ok s' head' ∧
      s'.EventStack low head' nodes' ∧
      nodes'.map Prod.snd = events.reverse ++ nodes.map Prod.snd ∧
      s'.nextAlloc.toNat = s.nextAlloc.toNat + 16 * events.length ∧
      s'.inputEventPrevMask = s.inputEventPrevMask := by
  induction events generalizing s head nodes with
  | nil => exact ⟨s, head, nodes, rfl, stack, rfl, rfl, rfl⟩
  | cons event events ih =>
    obtain ⟨s₁, done, stack₁, top, mask⟩ := stack.push above below room frame event
    have room₁ : s₁.HasRoom events.length := by
      obtain ⟨first, last⟩ := room
      rw [List.length_cons] at last
      exact ⟨by omega, by omega⟩
    obtain ⟨s', head', nodes', rest, stack', listed, top', mask'⟩ := ih stack₁ (by omega) room₁
    refine ⟨s', head', nodes', ?_, stack', ?_, ?_, mask'.trans mask⟩
    · rw [pushEvents, done]
      exact rest
    · rw [listed, List.map_cons, List.reverse_cons, List.append_assoc]
      rfl
    · rw [top', top, List.length_cons]
      omega

end InputImports

end Clicky
