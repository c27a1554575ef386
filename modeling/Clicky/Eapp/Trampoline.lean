import Clicky.Eapp.ImageLoad
import Clicky.Lib.Patch

/-! How the imports of a game are bound: each gets a trampoline of its own, the address of which
goes to the literal that the game calls through. -/
namespace Clicky

def imageRamSlack : Nat := 2 * 1024 * 1024

/-- The image as the game sees it. What follows it is zero. -/
def imageRam (patchedImage : List U8) :
    Access (Ram (patchedImage.length + imageRamSlack)) Unit :=
  let mappedImageLen := patchedImage.length + imageRamSlack
  ((Ram.new mappedImageLen).bulkWrite 0 (List.replicate mappedImageLen 0)).bind
    fun imageRam _ => imageRam.bulkWrite 0 patchedImage

/-- The part of `from_image` that has to do with the image: the table of the imports, and the bus. -/
def fromImage (image : List U8) (modules : List EappImportModule) :
    Outcome EappBuildError ImportTable ((size : Nat) × EappBus size) :=
  (Outcome.forEach bindModule { patchedImage := image } modules).bind fun t _ =>
    match imageRam t.patchedImage with
    | .panic m => .panic m
    | .done ram _ => .ok t ⟨_, .start ram⟩

namespace ImportTable

/-- `trampoline_to_import.get`. Of several entries for an address the last one counts. -/
def importIdx (t : ImportTable) (pc : U32) : Option Nat :=
  (t.trampolineToImport.reverse.find? fun e => e.1 == pc).map Prod.snd

/-- The import that the game calls when it gets to an address. -/
def importAt (t : ImportTable) (pc : U32) : Option BoundImport :=
  (t.importIdx pc).bind fun i => t.imports[i]?

end ImportTable

/-- The trampoline of import `k`. -/
def trampolineAt (k : Nat) : U32 := trampolineBase + trampolineStride * BitVec.ofNat 32 k

theorem trampolineAt_succ (k : Nat) : trampolineAt (k + 1) = trampolineAt k + trampolineStride := by
  rw [trampolineAt, trampolineAt, BitVec.ofNat_add, BitVec.mul_add, ← BitVec.add_assoc]
  rfl

/-- There is room for 2²⁷ trampolines. -/
theorem trampolineAt_inj {j k : Nat} (first : j < 2 ^ 27) (second : k < 2 ^ 27)
    (same : trampolineAt j = trampolineAt k) : j = k := by
  have values := congrArg BitVec.toNat same
  simp only [trampolineAt, trampolineBase, trampolineStride, BitVec.toNat_add, BitVec.toNat_mul,
    BitVec.toNat_ofNat, BitVec.ofNat_eq_ofNat] at values
  omega

namespace EappFile

/-- An import that is to be bound: an ordinal of a module. -/
structure ImportSlot where
  module : EappImportModule
  ordinal : U32
  deriving DecidableEq, Repr

namespace ImportSlot

/-- Where the literal is in the image. -/
def offset (s : ImportSlot) : Nat := offsetOf s.module.literalsAddr + 4 * s.ordinal.toNat

def bound (s : ImportSlot) : BoundImport := { moduleName := s.module.name, ordinal := s.ordinal }

def bind (t : ImportTable) (s : ImportSlot) : Outcome EappBuildError ImportTable Unit :=
  bindOrdinal s.module t s.ordinal

end ImportSlot

def slotsOf (m : EappImportModule) : List ImportSlot :=
  ((List.range m.count.toNat).map (BitVec.ofNat 32)).map fun ordinal => { module := m, ordinal }

def slots (modules : List EappImportModule) : List ImportSlot := modules.flatMap slotsOf

theorem bindModules_eq (t : ImportTable) (modules : List EappImportModule) :
    Outcome.forEach bindModule t modules = Outcome.forEach ImportSlot.bind t (slots modules) := by
  rw [slots, Outcome.forEach_flatMap]
  congr 1
  funext t m
  rw [slotsOf, Outcome.forEach_map]
  rfl

/-- What binding import `k` writes into the image. -/
def ImportSlot.patch (s : ImportSlot) (k : Nat) : Nat × List U8 :=
  (s.offset, (trampolineAt k).toLeBytes 4)

@[simp] theorem ImportSlot.length_patch (s : ImportSlot) (k : Nat) : (s.patch k).2.length = 4 :=
  BitVec.length_toLeBytes _ _

/-- The literal has an address, which is in a file of this length. -/
def ImportSlot.Inside (len : Nat) (s : ImportSlot) : Prop :=
  0x18000000 ≤ s.module.literalsAddr.toNat ∧ Bindable len s.module s.ordinal.toNat

/-- A table in which the first imports are bound: the next trampoline is the one after theirs. -/
def InStep (t : ImportTable) : Prop := t.trampolineAddr = trampolineAt t.imports.length

/-- One turn of the loop. -/
theorem ImportSlot.bind_eq {t : ImportTable} {s : ImportSlot} (step : InStep t)
    (inside : s.Inside t.patchedImage.length) :
    s.bind t = .ok
      { patchedImage := t.patchedImage.patch [s.patch t.imports.length]
        imports := t.imports ++ [s.bound]
        trampolineToImport :=
          t.trampolineToImport ++ [(trampolineAt t.imports.length, t.imports.length)]
        trampolineAddr := trampolineAt (t.imports.length + 1) } () := by
  have next : t.trampolineAddr = trampolineAt t.imports.length := step
  rw [ImportSlot.bind, bindOrdinal_eq inside.1 inside.2]
  simp only [ImportSlot.patch, trampolineAt_succ, ← next]
  rfl

/-- All that is written, import by import. -/
def patches (ss : List ImportSlot) (start : Nat) : List (Nat × List U8) :=
  (ss.zipIdx start).map fun (s, k) => s.patch k

theorem bindSlots_eq (ss : List ImportSlot) {t : ImportTable} (step : InStep t)
    (inside : ∀ s ∈ ss, s.Inside t.patchedImage.length) :
    Outcome.forEach ImportSlot.bind t ss = .ok
      { patchedImage := t.patchedImage.patch (patches ss t.imports.length)
        imports := t.imports ++ ss.map ImportSlot.bound
        trampolineToImport := t.trampolineToImport ++
          (List.range' t.imports.length ss.length).map fun k => (trampolineAt k, k)
        trampolineAddr := trampolineAt (t.imports.length + ss.length) } () := by
  induction ss generalizing t with
  | nil =>
    have next : t.trampolineAddr = trampolineAt t.imports.length := step
    simp [Outcome.forEach, patches, List.patch, ← next]
  | cons s ss ih =>
    have count : (t.imports ++ [s.bound]).length = t.imports.length + 1 := List.length_append
    rw [Outcome.forEach, s.bind_eq step (inside s List.mem_cons_self), Outcome.bind_ok, ih]
    · simp only [count, patches, List.zipIdx_cons, List.map_cons, List.length_cons, List.range'_succ,
        List.append_assoc, List.singleton_append, Nat.add_assoc, Nat.add_comm 1]
      rfl
    · exact congrArg trampolineAt count.symm
    · intro s' member
      rw [List.length_patch]
      exact inside s' (List.mem_cons_of_mem s member)

theorem bulkWrite_start {size : Nat} (s : Ram size) {data : List U8} (fits : data.length ≤ size) :
    ∃ s', s.bulkWrite 0 data = .ok s' () ∧ s'.mem = data ++ s.mem.drop data.length := by
  refine ⟨_, if_neg (Nat.not_lt_of_le ((Nat.zero_add _).le.trans fits)), ?_⟩
  have all : data.take s.mem.length = data := List.take_of_length_le (fits.trans_eq s.size_mem.symm)
  change (s.mem.overwrite 0 data) = _
  rw [List.overwrite, List.take_zero, List.nil_append, Nat.sub_zero, all, Nat.zero_add]

/-- A RAM that is cleared and then filled from the start. -/
theorem bulkWrite_cleared {size : Nat} (s : Ram size) {data : List U8} (fits : data.length ≤ size) :
    ∃ s', ((s.bulkWrite 0 (List.replicate size 0)).bind fun s _ => s.bulkWrite 0 data) = .ok s' () ∧
      s'.mem = data ++ List.replicate (size - data.length) 0 := by
  obtain ⟨cleared, first, zeroes⟩ := bulkWrite_start s (List.length_replicate (n := size)).le
  obtain ⟨filled, second, mem⟩ := bulkWrite_start cleared fits
  refine ⟨filled, ?_, ?_⟩
  · rw [first, Outcome.bind_ok, second]
  · rw [List.length_replicate, List.drop_eq_nil_of_le s.size_mem.le, List.append_nil] at zeroes
    rw [mem, zeroes, List.drop_replicate]

theorem importAt_of_last {t : ImportTable} {pc : U32} {k : Nat} {called : BoundImport}
    (member : (pc, k) ∈ t.trampolineToImport)
    (only : ∀ e ∈ t.trampolineToImport, e.1 = pc → e = (pc, k)) (bound : t.imports[k]? = some called) :
    t.importAt pc = some called := by
  have found : (t.trampolineToImport.reverse.find? fun e => e.1 == pc) = some (pc, k) := by
    cases search : t.trampolineToImport.reverse.find? fun e => e.1 == pc with
    | none =>
      have missed := List.find?_eq_none.mp search (pc, k) (List.mem_reverse.mpr member)
      exact absurd (beq_self_eq_true pc) missed
    | some e =>
      have here := List.mem_reverse.mp (List.mem_of_find?_eq_some search)
      have hit : (e.1 == pc) = true := List.find?_some (p := fun e : U32 × Nat => e.1 == pc) search
      rw [only e here (eq_of_beq hit)]
  rw [ImportTable.importAt, ImportTable.importIdx, found]
  exact bound

theorem imageRam_eq (patchedImage : List U8) :
    ∃ ram, imageRam patchedImage = .ok ram () ∧
      ram.mem = patchedImage ++ List.replicate imageRamSlack 0 := by
  obtain ⟨ram, done, mem⟩ :=
    bulkWrite_cleared (Ram.new (patchedImage.length + imageRamSlack)) (Nat.le_add_right _ _)
  exact ⟨ram, done, by rw [mem, Nat.add_sub_cancel_left]⟩

/-- The bytes of a module's literals, by their addresses. -/
def InTable (m : EappImportModule) (b : Nat) : Prop :=
  m.literalsAddr.toNat ≤ b ∧ b < m.literalsAddr.toNat + 4 * m.count.toNat

/-- All literals of all modules are in the image. -/
def TablesInside (image : List U8) (modules : List EappImportModule) : Prop :=
  ∀ s ∈ slots modules, s.Inside image.length

/-- No two modules have a byte of a literal in common. -/
def TablesApart (modules : List EappImportModule) : Prop :=
  modules.Pairwise fun m m' => ∀ b, InTable m b → ¬ InTable m' b

def ImportSlot.Apart (s s' : ImportSlot) : Prop := s.offset + 4 ≤ s'.offset ∨ s'.offset + 4 ≤ s.offset

theorem mem_slotsOf {m : EappImportModule} {s : ImportSlot} :
    s ∈ slotsOf m ↔ s.module = m ∧ s.ordinal.toNat < m.count.toNat := by
  rw [slotsOf, List.mem_map]
  constructor
  · rintro ⟨i, member, rfl⟩
    exact ⟨rfl, mem_ordinals.mp member⟩
  · rintro ⟨rfl, below⟩
    exact ⟨s.ordinal, mem_ordinals.mpr below, rfl⟩

/-- The literals of a module are one behind the other. -/
theorem slotsOf_apart (m : EappImportModule) : (slotsOf m).Pairwise ImportSlot.Apart := by
  rw [slotsOf, List.pairwise_map, List.pairwise_map]
  apply List.pairwise_lt_range.imp_of_mem
  intro i j first second before
  have bound := m.count.isLt
  rw [List.mem_range] at first second
  have small {n : Nat} (below : n < m.count.toNat) : (BitVec.ofNat 32 n).toNat = n := by
    rw [BitVec.toNat_ofNat]
    exact Nat.mod_eq_of_lt (by omega)
  left
  simp only [ImportSlot.offset, small first, small second]
  omega

/-- Two literals of modules that are apart, one of which would be in both tables otherwise. -/
theorem slots_apart {image : List U8} {modules : List EappImportModule}
    (inside : TablesInside image modules) (apart : TablesApart modules) :
    (slots modules).Pairwise ImportSlot.Apart := by
  rw [slots, List.pairwise_flatMap]
  refine ⟨fun m _ => slotsOf_apart m, ?_⟩
  apply apart.imp_of_mem
  intro m m' first second disjoint s member s' member'
  have mapped := (inside s (List.mem_flatMap.mpr ⟨m, first, member⟩)).1
  have mapped' := (inside s' (List.mem_flatMap.mpr ⟨m', second, member'⟩)).1
  obtain ⟨rfl, below⟩ := mem_slotsOf.mp member
  obtain ⟨rfl, below'⟩ := mem_slotsOf.mp member'
  by_contra overlap
  unfold ImportSlot.Apart ImportSlot.offset offsetOf at overlap
  unfold InTable at disjoint
  have left := disjoint (s.module.literalsAddr.toNat + 4 * s.ordinal.toNat)
  have right := disjoint (s'.module.literalsAddr.toNat + 4 * s'.ordinal.toNat)
  omega

theorem patches_apart {ss : List ImportSlot} (apart : ss.Pairwise ImportSlot.Apart) (start : Nat) :
    (patches ss start).Pairwise List.Apart := by
  rw [patches, List.pairwise_map]
  rw [← List.zipIdx_map_fst start ss, List.pairwise_map] at apart
  apply apart.imp
  intro p q between
  rw [List.Apart, ImportSlot.length_patch, ImportSlot.length_patch]
  exact between

theorem mem_patches {ss : List ImportSlot} {k : Nat} {s : ImportSlot} (found : ss[k]? = some s) :
    s.patch k ∈ patches ss 0 :=
  List.mem_map.mpr ⟨(s, k), List.mk_mem_zipIdx_iff_getElem?.mpr found, rfl⟩

/-- What is to come of an image: every import has a trampoline, and nothing else is touched. -/
structure Binds (image : List U8) (modules : List EappImportModule) (t : ImportTable)
    (ram : List U8) : Prop where
  /-- The literal of every import holds the address of its trampoline. -/
  stored : ∀ k s, (slots modules)[k]? = some s →
    ram.slice s.offset 4 = (trampolineAt k).toLeBytes 4
  /-- The game calls the import when it gets to the trampoline. -/
  called : (slots modules).length < 2 ^ 27 → ∀ k s, (slots modules)[k]? = some s →
    t.importAt (trampolineAt k) = some s.bound
  own : (slots modules).length < 2 ^ 27 → ∀ j < (slots modules).length,
    ∀ k < (slots modules).length, trampolineAt j = trampolineAt k → j = k
  unchanged : ∀ i < image.length,
    (∀ s ∈ slots modules, i < s.offset ∨ s.offset + 4 ≤ i) → ram[i]? = image[i]?
  slack : ∀ i, image.length ≤ i → i < image.length + imageRamSlack → ram[i]? = some 0

/-- The table when all modules are bound. -/
theorem bindModules_table {image : List U8} {modules : List EappImportModule}
    (inside : TablesInside image modules) :
    ∃ t, Outcome.forEach bindModule { patchedImage := image } modules = .ok t () ∧
      t.patchedImage = image.patch (patches (slots modules) 0) ∧
        t.imports = (slots modules).map ImportSlot.bound ∧
          t.trampolineToImport =
            (List.range' 0 (slots modules).length).map fun k => (trampolineAt k, k) := by
  have ran := bindSlots_eq (slots modules) (t := { patchedImage := image }) rfl inside
  rw [← bindModules_eq] at ran
  exact ⟨_, ran, rfl, rfl, rfl⟩

/-- A trampoline leads back to its import. -/
theorem importAt_trampolineAt {t : ImportTable} {ss : List ImportSlot} {s : ImportSlot} {k : Nat}
    (imports : t.imports = ss.map ImportSlot.bound)
    (trampolines : t.trampolineToImport =
      (List.range' 0 ss.length).map fun k => (trampolineAt k, k))
    (few : ss.length < 2 ^ 27) (found : ss[k]? = some s) :
    t.importAt (trampolineAt k) = some s.bound := by
  have below : k < ss.length := (List.getElem?_eq_some_iff.mp found).1
  apply importAt_of_last
  · rw [trampolines]
    exact List.mem_map.mpr ⟨k, List.mem_range'_1.mpr ⟨Nat.zero_le k, by omega⟩, rfl⟩
  · intro e member same
    rw [trampolines] at member
    obtain ⟨j, inRange, rfl⟩ := List.mem_map.mp member
    have before : j < ss.length := by
      have bounds := List.mem_range'_1.mp inRange
      omega
    rw [trampolineAt_inj (before.trans few) (below.trans few) same]
  · rw [imports, List.getElem?_map, found]
    rfl

/-- The imports of every image whose literals are in it, and apart from each other, are bound one
to one. -/
theorem imports_bound {image : List U8} {modules : List EappImportModule}
    (inside : TablesInside image modules) (apart : TablesApart modules) :
    ∃ t bus, fromImage image modules = .ok t bus ∧ Binds image modules t bus.2.image.mem := by
  obtain ⟨t, ran, patched, imports, trampolines⟩ := bindModules_table inside
  obtain ⟨ram, mapped, mem⟩ := imageRam_eq t.patchedImage
  have length : t.patchedImage.length = image.length := by rw [patched, List.length_patch]
  have none_shared := patches_apart (slots_apart inside apart) 0
  refine ⟨t, ⟨_, .start ram⟩, ?_, ?_⟩
  · rw [fromImage, ran, Outcome.bind_ok, mapped]
  · change Binds image modules t ram.mem
    rw [mem]
    constructor
    · intro k s found
      have fits : s.offset + 4 ≤ image.length := (inside s (List.mem_of_getElem? found)).2.2
      rw [List.slice_append_left (length ▸ fits), patched]
      exact List.slice_patch none_shared (mem_patches found) fits
    · intro few k s found
      exact importAt_trampolineAt imports trampolines few found
    · intro few j first k second same
      exact trampolineAt_inj (first.trans few) (second.trans few) same
    · intro i within untouched
      rw [List.getElem?_append_left (length ▸ within), patched]
      apply List.getElem?_patch_of_outside
      intro p member
      obtain ⟨⟨s, k⟩, place, rfl⟩ := List.mem_map.mp member
      rw [ImportSlot.length_patch]
      exact untouched s (List.fst_mem_of_mem_zipIdx place)
    · intro i past within
      rw [List.getElem?_append_right (length ▸ past), List.getElem?_replicate, length,
        if_pos (by omega)]

/-- Two modules of one name, with a gap between their literals. -/
def sameName : List EappImportModule :=
  [{ nameAddr := 0x18000100, name := "OpenGLES", count := 2, nextAddr := 0x18000200
     stubsAddr := 0x18000138, literalsAddr := 0x18000000 },
   { nameAddr := 0x18000200, name := "OpenGLES", count := 1, nextAddr := 0
     stubsAddr := 0x18000238, literalsAddr := 0x1800000c }]

theorem sameName_bound : ∃ t bus, fromImage (List.replicate 16 0) sameName = .ok t bus ∧
    Binds (List.replicate 16 0) sameName t bus.2.image.mem := by
  apply imports_bound
  · intro s member
    obtain ⟨m, listed, member⟩ := List.mem_flatMap.mp member
    obtain ⟨rfl, below⟩ := mem_slotsOf.mp member
    unfold ImportSlot.Inside Bindable offsetOf
    rw [List.length_replicate]
    have cases : s.module = sameName[0] ∨ s.module = sameName[1] := by
      simpa [sameName] using listed
    rcases cases with here | here <;> rw [here] at below ⊢ <;> simp [sameName] at below ⊢ <;> omega
  · refine List.pairwise_pair.mpr fun b first second => ?_
    have low : b < 0x18000008 := first.2
    have high : 0x1800000c ≤ b := second.1
    omega

end EappFile
end Clicky
