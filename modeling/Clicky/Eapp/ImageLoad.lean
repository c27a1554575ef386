import Clicky.Eapp.ImportList

/-! Which executables are loaded, or refused, without a panic. -/
namespace Clicky
namespace EappFile

/-- The literals of the record are inside the file, with 32 bit addresses. -/
def LiteralsInside (image : List U8) (a : U32) : Prop :=
  ∀ i < (countAt image a).toNat,
    a.toNat + 0x38 + 4 * (countAt image a).toNat + 4 * i < 2 ^ 32 ∧
      offsetOf a + 0x38 + 4 * (countAt image a).toNat + 4 * i + 4 ≤ image.length

/-- Every record of the list fits, and if the list comes to an end, all its literals are there. -/
def Sound (image : List U8) : Prop :=
  HasHeader image → ∀ a, Reaches image (wordAt image 0x10) a → HasRecord image a →
    Fits image a ∧
      (ListEnds image (wordAt image 0x10) → ¬ IsLast image a → LiteralsInside image a)

variable {image : List U8}

/-- The literal of an import has an address, and is in a file of this length. -/
def Bindable (len : Nat) (m : EappImportModule) (i : Nat) : Prop :=
  m.literalsAddr.toNat + 4 * i < 2 ^ 32 ∧ offsetOf m.literalsAddr + 4 * i + 4 ≤ len

section
variable {m : EappImportModule} {t : ImportTable} {i : U32}

theorem bindOrdinal_eq (mapped : 0x18000000 ≤ m.literalsAddr.toNat)
    (bindable : Bindable t.patchedImage.length m i.toNat) :
    bindOrdinal m t i = .ok
      { patchedImage := t.patchedImage.overwrite (offsetOf m.literalsAddr + 4 * i.toNat)
          (t.trampolineAddr.toLeBytes 4)
        imports := t.imports ++ [{ moduleName := m.name, ordinal := i }]
        trampolineToImport := t.trampolineToImport ++ [(t.trampolineAddr, t.imports.length)]
        trampolineAddr := t.trampolineAddr + trampolineStride } () := by
  obtain ⟨small, inside⟩ := bindable
  obtain ⟨shift, product, by_four⟩ := mulU32_four (n := i) (by omega)
  obtain ⟨literal, sum, place⟩ := addU32_ok (a := m.literalsAddr) (b := shift) (by omega)
  obtain ⟨offset, found, same⟩ := vmaToOffset_ok (a := literal) (by omega)
  have there : offset.toNat = offsetOf m.literalsAddr + 4 * i.toNat := by
    rw [same]
    unfold offsetOf
    omega
  have fits : ¬ offset.toNat + 4 > t.patchedImage.length := by
    rw [there]
    exact Nat.not_lt_of_le inside
  simp only [bindOrdinal, product, sum, found, Bind.bind, Except.bind]
  rw [if_neg fits, there]

theorem bindOrdinal_ok (mapped : 0x18000000 ≤ m.literalsAddr.toNat)
    (bindable : Bindable t.patchedImage.length m i.toNat) :
    ∃ t', bindOrdinal m t i = .ok t' () ∧ t'.patchedImage.length = t.patchedImage.length :=
  ⟨_, bindOrdinal_eq mapped bindable, List.length_overwrite ..⟩

theorem bindOrdinal_panics (mapped : 0x18000000 ≤ m.literalsAddr.toNat)
    (not_bindable : ¬ Bindable t.patchedImage.length m i.toNat) : ¬ (bindOrdinal m t i).Ends := by
  simp only [bindOrdinal, Bind.bind, Except.bind]
  by_cases first : 4 * i.toNat < 2 ^ 32
  · obtain ⟨shift, product, by_four⟩ := mulU32_four first
    by_cases second : m.literalsAddr.toNat + shift.toNat < 2 ^ 32
    · obtain ⟨literal, sum, place⟩ := addU32_ok second
      obtain ⟨offset, found, same⟩ := vmaToOffset_ok (a := literal) (by omega)
      have past : offset.toNat + 4 > t.patchedImage.length := by
        by_contra fits
        refine not_bindable ⟨by omega, ?_⟩
        rw [same] at fits
        unfold offsetOf at fits ⊢
        omega
      simp only [product, sum, found]
      rw [if_pos past]
      exact Outcome.ends_panic outOfBounds
    · simp only [product, addU32_error second]
      exact Outcome.ends_panic addOverflow
  · simp only [mulU32_four_error first]
    exact Outcome.ends_panic mulOverflow

end

theorem mem_ordinals {count i : U32} :
    i ∈ (List.range count.toNat).map (BitVec.ofNat 32) ↔ i.toNat < count.toNat := by
  simp only [List.mem_map, List.mem_range]
  constructor
  · rintro ⟨n, below, rfl⟩
    rw [BitVec.toNat_ofNat]
    exact Nat.lt_of_le_of_lt (Nat.mod_le _ _) below
  · exact fun below => ⟨i.toNat, below, BitVec.ofNat_toNat 32 i⟩

def AllBindable (len : Nat) (m : EappImportModule) : Prop :=
  ∀ i : U32, i.toNat < m.count.toNat → Bindable len m i.toNat

theorem bindModule_ok {t : ImportTable} {m : EappImportModule}
    (mapped : 0x18000000 ≤ m.literalsAddr.toNat) (all : AllBindable t.patchedImage.length m) :
    ∃ t', bindModule t m = .ok t' () ∧ t'.patchedImage.length = t.patchedImage.length := by
  refine Outcome.forEach_ok
    (I := fun t' : ImportTable => t'.patchedImage.length = t.patchedImage.length)
    (fun t' i member same => ?_) rfl
  obtain ⟨t'', done, kept⟩ := bindOrdinal_ok (t := t') (i := i) mapped
    (same ▸ all i (mem_ordinals.mp member))
  exact ⟨t'', done, kept.trans same⟩

theorem bindModule_ends_iff {t : ImportTable} {m : EappImportModule}
    (mapped : 0x18000000 ≤ m.literalsAddr.toNat) :
    (bindModule t m).Ends ↔ AllBindable t.patchedImage.length m := by
  have loop : (bindModule t m).Ends ↔ ∀ i ∈ (List.range m.count.toNat).map (BitVec.ofNat 32),
      Bindable t.patchedImage.length m i.toNat := by
    apply Outcome.forEach_ends_iff
      (I := fun t' : ImportTable => t'.patchedImage.length = t.patchedImage.length)
    · intro t' i _ same bindable
      obtain ⟨t'', done, kept⟩ := bindOrdinal_ok (t := t') mapped (same.symm ▸ bindable)
      exact ⟨t'', done, kept.trans same⟩
    · intro t' i _ same not_bindable
      exact bindOrdinal_panics mapped (same.symm ▸ not_bindable)
    · rfl
  rw [loop]
  exact forall_congr' fun i => by rw [mem_ordinals]

theorem bindModules_ends_iff {t : ImportTable} {modules : List EappImportModule}
    (mapped : ∀ m ∈ modules, 0x18000000 ≤ m.literalsAddr.toNat) :
    (Outcome.forEach bindModule t modules).Ends ↔
      ∀ m ∈ modules, AllBindable t.patchedImage.length m := by
  apply Outcome.forEach_ends_iff
    (I := fun t' : ImportTable => t'.patchedImage.length = t.patchedImage.length)
  · intro t' m member same all
    obtain ⟨t'', done, kept⟩ := bindModule_ok (mapped m member) (same.symm ▸ all)
    exact ⟨t'', done, kept.trans same⟩
  · intro t' m member same some_outside ends
    exact some_outside (same ▸ (bindModule_ends_iff (mapped m member)).mp ends)
  · rfl

theorem allBindable_iff {a : U32} {m : EappImportModule} (record : HasRecord image a)
    (describes : Describes image a m) :
    AllBindable image.length m ↔ LiteralsInside image a := by
  obtain ⟨count, place⟩ := describes
  have above := record.above
  have bound := (countAt image a).isLt
  unfold AllBindable Bindable LiteralsInside offsetOf
  rw [count]
  constructor
  · intro all i below
    have small : (BitVec.ofNat 32 i).toNat = i := by
      rw [BitVec.toNat_ofNat]
      exact Nat.mod_eq_of_lt (by omega)
    have here := all (BitVec.ofNat 32 i) (by omega)
    omega
  · intro all i below
    have here := all i.toNat below
    omega

/-- What is asked of the list that begins at `a`. -/
theorem sound_iff (header : HasHeader image) :
    Sound image ↔ AllFit image (wordAt image 0x10) ∧ (ListEnds image (wordAt image 0x10) →
      ∀ b, Listed image (wordAt image 0x10) b → LiteralsInside image b) := by
  constructor
  · intro sound
    exact ⟨fun b reach record => (sound header b reach record).1,
      fun ends b ⟨reach, record, more⟩ => (sound header b reach record).2 ends more⟩
  · rintro ⟨all, tables⟩ _ a reach record
    exact ⟨all a reach record, fun ends more => tables ends a ⟨reach, record, more⟩⟩

/-- An executable is loaded or refused, without a panic, exactly when its list of modules is
sound. -/
theorem loadImage_ends_iff (image : List U8) : (loadImage image).Ends ↔ Sound image := by
  by_cases header : HasHeader image
  · obtain ⟨h, parsed, imports⟩ := parseEappHeader_ok header
    have walked : Walked image (wordAt image 0x10) (parseImportModules image h.importsAddr) :=
      imports ▸ walkModules_walked fun b impossible => absurd impossible List.not_mem_nil
    rw [sound_iff header, loadImage, parsed]
    dsimp only
    generalize parseImportModules image h.importsAddr = result at walked ⊢
    rcases result with ⟨_, e | modules⟩ | message
    · exact iff_of_true (Outcome.ends_done _ _) ⟨walked.1, fun ends => absurd ends walked.2⟩
    · obtain ⟨all, ends, described, complete⟩ := walked
      have mapped : ∀ m ∈ modules, 0x18000000 ≤ m.literalsAddr.toNat := by
        intro m member
        obtain ⟨b, listed, fact⟩ := described m member
        have above := listed.2.1.above
        rw [fact.2]
        omega
      refine (bindModules_ends_iff mapped).trans ⟨fun bound => ⟨all, fun _ b listed => ?_⟩, ?_⟩
      · obtain ⟨m, member, fact⟩ := complete b listed
        exact (allBindable_iff listed.2.1 fact).mp (bound m member)
      · rintro ⟨_, tables⟩ m member
        obtain ⟨b, listed, fact⟩ := described m member
        exact (allBindable_iff listed.2.1 fact).mpr (tables ends b listed)
    · exact iff_of_false (Outcome.ends_panic message) fun sound => walked sound.1
  · obtain ⟨e, parsed⟩ := parseEappHeader_error header
    refine iff_of_true ?_ fun there => absurd there header
    rw [loadImage, parsed]
    exact Outcome.ends_done _ _

/-- A file with one module, without a name and without literals. -/
def oneModule (count : U32) : List U8 :=
  [0x65, 0x61, 0x70, 0x70] ++ List.replicate 12 0 ++ (0x18000028 : U32).toLeBytes 4 ++
    List.replicate 0x14 0 ++ List.replicate 0x30 0 ++ count.toLeBytes 4 ++ List.replicate 4 0

theorem loadImage_oneModule (count : U32) (header : HasHeader (oneModule count))
    (first : wordAt (oneModule count) 0x10 = 0x18000028) {modules}
    (walk : parseImportModules (oneModule count) 0x18000028 = modules) :
    loadImage (oneModule count) =
      (modules.zoom fun _ => { patchedImage := oneModule count }).bind fun t modules =>
        Outcome.forEach bindModule t modules := by
  obtain ⟨h, parsed, imports⟩ := parseEappHeader_ok header
  rw [loadImage, parsed]
  dsimp only
  rw [imports, first, walk]

/-- A count whose stubs need more than 32 bits of addresses, and one import whose literal would be
past the end of the file. -/
theorem one_module_panics :
    ¬ (loadImage (oneModule 0x40000000)).Ends ∧ ¬ (loadImage (oneModule 1)).Ends := by
  constructor
  · have walk : parseImportModules (oneModule 0x40000000) 0x18000028 = .panic mulOverflow := by
      rw [parseImportModules, walkModules]
      rfl
    rw [loadImage_oneModule _ ⟨by decide, rfl⟩ rfl walk]
    exact Outcome.ends_panic mulOverflow
  · have stop : walkModules (oneModule 1) [0x18000028] 0 = .ok () [] := by
      rw [walkModules]
      rfl
    have walk : parseImportModules (oneModule 1) 0x18000028 =
        .ok () [⟨0x18000028, "", 1, 0, 0x18000060, 0x18000064⟩] := by
      rw [parseImportModules, walkModules]
      change (walkModules (oneModule 1) [0x18000028] 0).map _ = _
      rw [stop]
      rfl
    rw [loadImage_oneModule _ ⟨by decide, rfl⟩ rfl walk]
    exact Outcome.ends_panic outOfBounds

end EappFile
end Clicky
