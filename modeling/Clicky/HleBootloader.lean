import Clicky.Block
import Clicky.Lib.Reader
import Clicky.Ram

/-! The firmware file, and what the high level boot loader makes of it: the image of the operating
system goes to the start of RAM, and the cores start in it. -/
namespace Clicky
open Reader

inductive HleBootloaderError where
  | io (e : IoError)
  | badMagic
  | invalidVersion (version : U16)
  | missingOs
  deriving DecidableEq, Repr

/-- What `read_exact` of the standard library ends with at the end of the file. -/
def IoError.readExactEof : IoError := ⟨"failed to fill whole buffer"⟩

/-- The word at this place of a list of bytes. -/
def u32At (bytes : List U8) (offset : Nat) : U32 := BitVec.ofLeBytes 32 ((bytes.drop offset).take 4)
def u16At (bytes : List U8) (offset : Nat) : U16 := BitVec.ofLeBytes 16 ((bytes.drop offset).take 2)

def readU32 : Reader IoError U8 U32 := BitVec.ofLeBytes 32 <$> readExact .readExactEof 4
def readU16 : Reader IoError U8 U16 := BitVec.ofLeBytes 16 <$> readExact .readExactEof 2

def toBeBytes (v : U32) : List U8 := (v.toLeBytes 4).reverse

structure VolumeHeader where
  magicHi : U32
  dirOffset : U32
  extHeaderLoc : U16
  formatVersion : U16
  deriving DecidableEq, Repr

/-- The string at the start is skipped. -/
def VolumeHeader.parse : Reader IoError U8 VolumeHeader := do
  let _ ← readExact .readExactEof 256
  let magicHi ← readU32
  let dirOffset ← readU32
  let extHeaderLoc ← readU16
  let formatVersion ← readU16
  return { magicHi, dirOffset, extHeaderLoc, formatVersion }

structure ImageInfo where
  dev : List U8
  name : List U8
  id : U32
  devOffset : U32
  len : U32
  addr : U32
  entryOffset : U32
  checksum : U32
  vers : U32
  loadAddr : U32
  deriving DecidableEq, Repr

def ImageInfo.parse : Reader IoError U8 ImageInfo := do
  let dev ← toBeBytes <$> readU32
  let name ← toBeBytes <$> readU32
  let id ← readU32
  let devOffset ← readU32
  let len ← readU32
  let addr ← readU32
  let entryOffset ← readU32
  let checksum ← readU32
  let vers ← readU32
  let loadAddr ← readU32
  return { dev, name, id, devOffset, len, addr, entryOffset, checksum, vers, loadAddr }

def VolumeHeader.ofBytes (bytes : List U8) : VolumeHeader where
  magicHi := u32At bytes 256
  dirOffset := u32At bytes 260
  extHeaderLoc := u16At bytes 264
  formatVersion := u16At bytes 266

def ImageInfo.ofBytes (bytes : List U8) : ImageInfo where
  dev := toBeBytes (u32At bytes 0)
  name := toBeBytes (u32At bytes 4)
  id := u32At bytes 8
  devOffset := u32At bytes 12
  len := u32At bytes 16
  addr := u32At bytes 20
  entryOffset := u32At bytes 24
  checksum := u32At bytes 28
  vers := u32At bytes 32
  loadAddr := u32At bytes 36

theorem consumes_readU32 : readU32.Consumes .readExactEof 4 fun rest => u32At rest 0 :=
  (consumes_readExact 4).map _

theorem consumes_readU16 : readU16.Consumes .readExactEof 2 fun rest => u16At rest 0 :=
  (consumes_readExact 2).map _

theorem VolumeHeader.consumes_parse : parse.Consumes .readExactEof 268 ofBytes := by
  apply Consumes.congr (n := 256 + (4 + (4 + (2 + (2 + 0)))))
  · exact (consumes_readExact 256).bind fun _ => consumes_readU32.bind fun _ =>
      consumes_readU32.bind fun _ => consumes_readU16.bind fun _ => consumes_readU16.bind fun _ =>
        consumes_pure _
  · intro rest
    simp [ofBytes, u32At, u16At, List.drop_drop]

theorem ImageInfo.consumes_parse : parse.Consumes .readExactEof 40 ofBytes := by
  have word := consumes_readU32
  have tag := consumes_readU32.map toBeBytes
  apply Consumes.congr (n := 4 + (4 + (4 + (4 + (4 + (4 + (4 + (4 + (4 + (4 + 0))))))))))
  · exact tag.bind fun _ => tag.bind fun _ => word.bind fun _ => word.bind fun _ =>
      word.bind fun _ => word.bind fun _ => word.bind fun _ => word.bind fun _ =>
        word.bind fun _ => word.bind fun _ => consumes_pure _
  · intro rest
    simp [ofBytes, u32At, List.drop_drop]

/-- No device: the record that ends the directory. -/
def noDev : List U8 := [0, 0, 0, 0]
def osos : List U8 := [0x6f, 0x73, 0x6f, 0x73]

/-- `BigEndian::read_u32` of `[hi]`. -/
def hiMagic : U32 := 0x5b68695d

structure FirmwareMeta where
  header : VolumeHeader
  images : List ImageInfo
  deriving DecidableEq, Repr

namespace FirmwareMeta

/-- The loop over the directory. Every record it goes on after takes 40 bytes of the file. -/
def imageLoop (fw : Cursor U8) : Except IoError (List ImageInfo × Cursor U8) :=
  match _read : ImageInfo.parse fw with
  | .error e => .error e
  | .ok (image, fw') =>
    if image.dev = noDev then .ok ([], fw')
    else (imageLoop fw').map fun (images, fw) => (image :: images, fw)
termination_by fw.rest.length
decreasing_by
  obtain ⟨inside, _, rfl⟩ := ImageInfo.consumes_parse.of_ok _read
  rw [Cursor.rest_skip, List.length_drop]
  omega

def parse (fw : Cursor U8) : Except HleBootloaderError (FirmwareMeta × Cursor U8) :=
  match VolumeHeader.parse fw with
  | .error e => .error (.io e)
  | .ok (header, fw) =>
    if header.magicHi ≠ hiMagic then .error .badMagic
    else if header.formatVersion ≠ 3 then .error (.invalidVersion header.formatVersion)
    else
      match imageLoop (fw.seek (header.dirOffset.toNat + 0x200)) with
      | .error e => .error (.io e)
      | .ok (images, fw) => .ok ({ header, images }, fw)

end FirmwareMeta

/-- The part of the boot loader that has to do with the file. The result is the address at which
both cores start. -/
def runHleBootloader (fwFile : List U8) (sdram : AsanRam) :
    Outcome HleBootloaderError AsanRam U32 :=
  match FirmwareMeta.parse { data := fwFile } with
  | .error e => .raise sdram e
  | .ok (fwInfo, fw) =>
    match fwInfo.images.find? fun img => img.name = osos with
    | none => .raise sdram .missingOs
    | some osImage =>
      match readExact .readExactEof osImage.len.toNat (fw.seek (osImage.devOffset.toNat + 0x200)) with
      | .error e => .raise sdram (.io e)
      | .ok (osImageData, _) =>
        -- `bulk_write` returns nothing: it has no exceptions
        ((sdram.bulkWrite 0 osImageData).orPanic outOfBounds).bind fun sdram _ =>
          if 2 ^ 32 ≤ osImage.addr.toNat + osImage.entryOffset.toNat then .panic overflow
          else .ok sdram (osImage.addr + osImage.entryOffset)

namespace AsanRam

/-- A write to the start of RAM. -/
theorem bulkWrite_of_le (s : AsanRam) {data : List U8} (room : data.length ≤ s.size) :
    ∃ after, s.bulkWrite 0 data = .ok after () ∧
      (∀ a < data.length, data[a]? = some (after.mem a)) ∧
        ∀ a, data.length ≤ a → after.mem a = s.mem a := by
  refine ⟨_, if_neg (Nat.not_lt_of_le ((Nat.zero_add _).le.trans room)), ?_, ?_⟩
  · intro a inside
    simp [inside]
  · intro a outside
    simp [Nat.not_lt_of_le outside]

theorem bulkWrite_of_lt (s : AsanRam) {data : List U8} (full : s.size < data.length) :
    s.bulkWrite 0 data = .panic outOfBounds :=
  if_pos (full.trans_eq (Nat.zero_add _).symm)

end AsanRam

/-! The format of the file. -/
namespace Firmware

/-- Where the directory is. -/
def dirStart (fw : List U8) : Nat := (VolumeHeader.ofBytes fw).dirOffset.toNat + 0x200

/-- Record `k` of a directory that starts here. -/
def recordAt (dir : List U8) (k : Nat) : ImageInfo := .ofBytes (dir.drop (40 * k))

/-- A directory of `n` images, all of it there. -/
structure DirectoryAt (dir : List U8) (n : Nat) : Prop where
  inside : 40 * (n + 1) ≤ dir.length
  images : ∀ k < n, (recordAt dir k).dev ≠ noDev
  ended : (recordAt dir n).dev = noDev

/-- A firmware file of version 3, with `n` images. -/
structure WellFormed (fw : List U8) (n : Nat) : Prop where
  volume : 268 ≤ fw.length
  magic : (VolumeHeader.ofBytes fw).magicHi = hiMagic
  version : (VolumeHeader.ofBytes fw).formatVersion = 3
  directory : DirectoryAt (fw.drop (dirStart fw)) n

/-- The image of the operating system: the first one of its name. -/
structure OsImage (fw : List U8) (image : ImageInfo) : Prop where
  name : image.name = osos
  listed : ∃ n k, WellFormed fw n ∧ k < n ∧ recordAt (fw.drop (dirStart fw)) k = image ∧
    ∀ j < k, (recordAt (fw.drop (dirStart fw)) j).name ≠ osos

/-- All bytes of the image are in the file. -/
def Whole (fw : List U8) (image : ImageInfo) : Prop :=
  image.len.toNat ≤ fw.length - (image.devOffset.toNat + 0x200)

theorem recordAt_succ (dir : List U8) (k : Nat) : recordAt dir (k + 1) = recordAt (dir.drop 40) k := by
  rw [recordAt, recordAt, List.drop_drop, Nat.mul_succ, Nat.add_comm]

theorem DirectoryAt.succ_iff {dir : List U8} {n : Nat} :
    DirectoryAt dir (n + 1) ↔
      (recordAt dir 0).dev ≠ noDev ∧ DirectoryAt (dir.drop 40) n := by
  constructor
  · rintro ⟨inside, images, ended⟩
    refine ⟨images 0 (Nat.zero_lt_succ n), ?_, fun k before => ?_, ?_⟩
    · rw [List.length_drop]
      omega
    · rw [← recordAt_succ]
      exact images (k + 1) (Nat.succ_lt_succ before)
    · rw [← recordAt_succ]
      exact ended
  · rintro ⟨first, inside, images, ended⟩
    rw [List.length_drop] at inside
    refine ⟨by omega, fun k before => ?_, ?_⟩
    · cases k with
      | zero => exact first
      | succ k =>
        rw [recordAt_succ]
        exact images k (Nat.lt_of_succ_lt_succ before)
    · rw [recordAt_succ]
      exact ended

end Firmware

open Firmware

namespace FirmwareMeta

/-- One turn of the loop. -/
theorem imageLoop_eq (fw : Cursor U8) :
    imageLoop fw =
      if 40 ≤ fw.rest.length then
        if (recordAt fw.rest 0).dev = noDev then .ok ([], fw.skip 40)
        else (imageLoop (fw.skip 40)).map fun (images, fw') => (recordAt fw.rest 0 :: images, fw')
      else .error .readExactEof := by
  rw [imageLoop]
  split
  · rename_i e failed
    rw [ImageInfo.consumes_parse] at failed
    split at failed
    · cases failed
    · rename_i short
      cases failed
      rw [if_neg short]
  · rename_i image fw' read
    obtain ⟨inside, rfl, rfl⟩ := ImageInfo.consumes_parse.of_ok read
    rw [if_pos inside]
    rfl

theorem imageLoop_nil_iff {fw fw' : Cursor U8} :
    imageLoop fw = .ok ([], fw') ↔
      40 ≤ fw.rest.length ∧ (recordAt fw.rest 0).dev = noDev ∧ fw' = fw.skip 40 := by
  rw [imageLoop_eq]
  constructor
  · intro done
    split at done
    · rename_i inside
      split at done
      · rename_i ended
        cases done
        exact ⟨inside, ended, rfl⟩
      · cases later : imageLoop (fw.skip 40) <;> rw [later] at done <;> cases done
    · cases done
  · rintro ⟨inside, ended, rfl⟩
    exact (if_pos inside).trans (if_pos ended)

theorem imageLoop_cons_iff {fw fw' : Cursor U8} {image : ImageInfo} {images : List ImageInfo} :
    imageLoop fw = .ok (image :: images, fw') ↔
      40 ≤ fw.rest.length ∧ (recordAt fw.rest 0).dev ≠ noDev ∧ image = recordAt fw.rest 0 ∧
        imageLoop (fw.skip 40) = .ok (images, fw') := by
  rw [imageLoop_eq]
  constructor
  · intro done
    split at done
    · rename_i inside
      split at done
      · cases done
      · rename_i more
        cases later : imageLoop (fw.skip 40) with
        | error e =>
          rw [later] at done
          cases done
        | ok result =>
          rw [later] at done
          cases done
          exact ⟨inside, more, rfl, rfl⟩
    · cases done
  · rintro ⟨inside, more, rfl, later⟩
    rw [if_pos inside, if_neg more, later]
    rfl

/-- The loop succeeds exactly on the directories, and finds all their images. -/
theorem imageLoop_eq_ok_iff {fw fw' : Cursor U8} {images : List ImageInfo} :
    imageLoop fw = .ok (images, fw') ↔
      DirectoryAt fw.rest images.length ∧ fw' = fw.skip (40 * (images.length + 1)) ∧
        images = (List.range images.length).map (recordAt fw.rest) := by
  induction images generalizing fw with
  | nil =>
    rw [imageLoop_nil_iff]
    constructor
    · rintro ⟨inside, ended, rfl⟩
      exact ⟨⟨inside, nofun, ended⟩, rfl, rfl⟩
    · rintro ⟨⟨inside, _, ended⟩, rfl, _⟩
      exact ⟨inside, ended, rfl⟩
  | cons image images ih =>
    have shifted : recordAt fw.rest ∘ Nat.succ = recordAt (fw.skip 40).rest := by
      funext k
      rw [Cursor.rest_skip]
      exact recordAt_succ fw.rest k
    have behind : fw.skip (40 * (images.length + 1 + 1)) =
        (fw.skip 40).skip (40 * (images.length + 1)) := by
      rw [Cursor.skip_skip]
      congr 1
      omega
    rw [imageLoop_cons_iff, ih, List.length_cons, DirectoryAt.succ_iff, List.range_succ_eq_map,
      List.map_cons, List.map_map, shifted, behind, ← Cursor.rest_skip, List.cons.injEq]
    constructor
    · rintro ⟨inside, more, first, directory, place, listed⟩
      exact ⟨⟨more, directory⟩, place, first, listed⟩
    · rintro ⟨⟨more, directory⟩, place, first, listed⟩
      have inside := directory.inside
      rw [Cursor.rest_skip, List.length_drop] at inside
      exact ⟨by omega, more, first, directory, place, listed⟩

/-- The header is at the start of the file, the directory where it says. -/
theorem parse_eq (fw : List U8) :
    parse { data := fw } =
      if 268 ≤ fw.length then
        if (VolumeHeader.ofBytes fw).magicHi ≠ hiMagic then .error .badMagic
        else if (VolumeHeader.ofBytes fw).formatVersion ≠ 3 then
          .error (.invalidVersion (VolumeHeader.ofBytes fw).formatVersion)
        else
          match imageLoop { data := fw, pos := dirStart fw } with
          | .error e => .error (.io e)
          | .ok (images, fw') => .ok ({ header := .ofBytes fw, images }, fw')
      else .error (.io .readExactEof) := by
  have rest : ({ data := fw } : Cursor U8).rest = fw := rfl
  unfold parse
  rw [VolumeHeader.consumes_parse, rest]
  by_cases volume : 268 ≤ fw.length
  · rw [if_pos volume, if_pos volume]
    rfl
  · rw [if_neg volume, if_neg volume]

/-- What is parsed is a well-formed file, with all its images. The file stays what it was. -/
theorem parse_eq_ok_iff {fw : List U8} {fwInfo : FirmwareMeta} {fw' : Cursor U8} :
    parse { data := fw } = .ok (fwInfo, fw') ↔
      WellFormed fw fwInfo.images.length ∧ fwInfo.header = .ofBytes fw ∧
        fwInfo.images = (List.range fwInfo.images.length).map (recordAt (fw.drop (dirStart fw))) ∧
        fw' = { data := fw, pos := dirStart fw + 40 * (fwInfo.images.length + 1) } := by
  rw [parse_eq]
  constructor
  · intro done
    split at done
    · rename_i volume
      split at done
      · cases done
      · rename_i magic
        split at done
        · cases done
        · rename_i version
          split at done
          · cases done
          · rename_i images fw₂ found
            cases done
            obtain ⟨directory, rfl, listed⟩ := imageLoop_eq_ok_iff.mp found
            exact ⟨⟨volume, not_not.mp magic, not_not.mp version, directory⟩, rfl, listed, rfl⟩
    · cases done
  · rintro ⟨⟨volume, magic, version, directory⟩, header, listed, rfl⟩
    have found : imageLoop { data := fw, pos := dirStart fw } = .ok (fwInfo.images,
        { data := fw, pos := dirStart fw + 40 * (fwInfo.images.length + 1) }) :=
      imageLoop_eq_ok_iff.mpr ⟨directory, rfl, listed⟩
    rw [if_pos volume, if_neg (not_not_intro magic), if_neg (not_not_intro version), found, ← header]

end FirmwareMeta

namespace Firmware

/-- The image that is selected is the one of the operating system. -/
theorem osImage_iff {fw : List U8} {image : ImageInfo} :
    OsImage fw image ↔ ∃ fwInfo fw', FirmwareMeta.parse { data := fw } = .ok (fwInfo, fw') ∧
      fw'.data = fw ∧ fwInfo.images.find? (fun img => img.name = osos) = some image := by
  constructor
  · rintro ⟨name, n, k, formed, before, rfl, first⟩
    let images := (List.range n).map (recordAt (fw.drop (dirStart fw)))
    have count : images.length = n := by simp [images]
    refine ⟨{ header := .ofBytes fw, images }, _, FirmwareMeta.parse_eq_ok_iff.mpr
      ⟨count.symm ▸ formed, rfl, by rw [count], rfl⟩, rfl, ?_⟩
    rw [List.find?_map, Option.map_eq_some_iff]
    refine ⟨k, List.find?_range_eq_some.mpr ⟨?_, List.mem_range.mpr before, fun j earlier => ?_⟩, rfl⟩
    · exact decide_eq_true name
    · simpa using first j earlier
  · rintro ⟨fwInfo, fw', parsed, _, selected⟩
    obtain ⟨formed, _, listed, _⟩ := FirmwareMeta.parse_eq_ok_iff.mp parsed
    rw [listed, List.find?_map, Option.map_eq_some_iff] at selected
    obtain ⟨k, found, rfl⟩ := selected
    obtain ⟨name, member, first⟩ := List.find?_range_eq_some.mp found
    refine ⟨of_decide_eq_true name, _, k, formed, List.mem_range.mp member, rfl, fun j earlier => ?_⟩
    simpa using first j earlier

/-- The bytes of an image. -/
def imageBytes (fw : List U8) (image : ImageInfo) : List U8 :=
  fw.slice (image.devOffset.toNat + 0x200) image.len.toNat

theorem length_imageBytes {fw : List U8} {image : ImageInfo} (whole : Whole fw image) :
    (imageBytes fw image).length = image.len.toNat := by
  rw [imageBytes, List.slice, List.length_take, List.length_drop]
  exact Nat.min_eq_left whole

/-- The image fits into RAM, and the sum of its address and the offset of its entry into a
word. -/
structure Fits (sdram : AsanRam) (image : ImageInfo) : Prop where
  ram : image.len.toNat ≤ sdram.size
  entry : image.addr.toNat + image.entryOffset.toNat < 2 ^ 32

end Firmware

open Firmware

/-- The file is refused, and RAM left alone. -/
theorem runHleBootloader_of_missing {fw : List U8} (missing : ∀ image, ¬ OsImage fw image)
    (sdram : AsanRam) : ∃ e, runHleBootloader fw sdram = .raise sdram e := by
  unfold runHleBootloader
  cases parsed : FirmwareMeta.parse { data := fw } with
  | error e => exact ⟨e, rfl⟩
  | ok result =>
    obtain ⟨fwInfo, fw'⟩ := result
    obtain ⟨_, _, _, rfl⟩ := FirmwareMeta.parse_eq_ok_iff.mp parsed
    cases selected : fwInfo.images.find? fun img => img.name = osos with
    | none => exact ⟨.missingOs, by simp only [selected]⟩
    | some image =>
      exact absurd (osImage_iff.mpr ⟨fwInfo, _, parsed, rfl, selected⟩) (missing image)

/-- What becomes of an image that was found: its bytes are read, or are not all there. -/
theorem runHleBootloader_of_osImage {fw : List U8} {image : ImageInfo} (os : OsImage fw image)
    (sdram : AsanRam) :
    (Whole fw image ∧ runHleBootloader fw sdram =
      ((sdram.bulkWrite 0 (imageBytes fw image)).orPanic outOfBounds).bind fun sdram _ =>
        if 2 ^ 32 ≤ image.addr.toNat + image.entryOffset.toNat then .panic overflow
        else .ok sdram (image.addr + image.entryOffset)) ∨
    (¬ Whole fw image ∧ runHleBootloader fw sdram = .raise sdram (.io .readExactEof)) := by
  obtain ⟨fwInfo, fw', parsed, rfl, selected⟩ := osImage_iff.mp os
  unfold runHleBootloader
  rw [parsed]
  dsimp only
  rw [selected]
  dsimp only
  have ahead : (fw'.seek (image.devOffset.toNat + 0x200)).rest.length =
      fw'.data.length - (image.devOffset.toNat + 0x200) := by
    rw [Cursor.rest_seek, List.length_drop]
  by_cases whole : Whole fw'.data image
  · rw [readExact_of_le (ahead ▸ whole)]
    exact .inl ⟨whole, rfl⟩
  · rw [readExact_of_lt (ahead ▸ Nat.lt_of_not_le whole)]
    exact .inr ⟨whole, rfl⟩

/-- What the boot loader is to leave: the image at the start of RAM, nothing else changed, and the
address of the entry. -/
structure Loaded (fw : List U8) (image : ImageInfo) (before after : AsanRam) (entry : U32) :
    Prop where
  start : entry = image.addr + image.entryOffset
  bytes : ∀ a < image.len.toNat, fw[image.devOffset.toNat + 0x200 + a]? = some (after.mem a)
  rest : ∀ a, image.len.toNat ≤ a → after.mem a = before.mem a

/-- The boot loader comes to an end, and has done its work if it succeeds. -/
def Boots (fw : List U8) (sdram : AsanRam) : Prop :=
  (runHleBootloader fw sdram).Ensures fun after r =>
    ∀ entry, r = .ok entry → ∃ image, OsImage fw image ∧ Loaded fw image sdram after entry

/-- The whole image is written, and nothing else. What can still go wrong is the entry. -/
theorem runHleBootloader_of_room {fw : List U8} {image : ImageInfo} {sdram : AsanRam}
    (os : OsImage fw image) (whole : Whole fw image) (room : image.len.toNat ≤ sdram.size) :
    ∃ after, Loaded fw image sdram after (image.addr + image.entryOffset) ∧
      runHleBootloader fw sdram =
        if 2 ^ 32 ≤ image.addr.toNat + image.entryOffset.toNat then .panic overflow
        else .ok after (image.addr + image.entryOffset) := by
  have long := length_imageBytes whole
  obtain ⟨after, written, bytes, rest⟩ := sdram.bulkWrite_of_le (long ▸ room)
  refine ⟨after, ⟨rfl, fun a inside => ?_, fun a outside => rest a (long ▸ outside)⟩, ?_⟩
  · rw [← bytes a (long ▸ inside), imageBytes, List.getElem?_slice, if_pos inside]
  · obtain ⟨_, run⟩ | ⟨cut, _⟩ := runHleBootloader_of_osImage os sdram
    · rw [run, written]
      rfl
    · exact absurd whole cut

theorem runHleBootloader_of_no_room {fw : List U8} {image : ImageInfo} {sdram : AsanRam}
    (os : OsImage fw image) (whole : Whole fw image) (full : sdram.size < image.len.toNat) :
    runHleBootloader fw sdram = .panic outOfBounds := by
  obtain ⟨_, run⟩ | ⟨cut, _⟩ := runHleBootloader_of_osImage os sdram
  · rw [run, sdram.bulkWrite_of_lt (length_imageBytes whole ▸ full)]
    rfl
  · exact absurd whole cut

theorem not_boots_of_not_fits {fw : List U8} {image : ImageInfo} {sdram : AsanRam}
    (os : OsImage fw image) (whole : Whole fw image) (large : ¬ Fits sdram image) :
    ¬ Boots fw sdram := by
  rw [Boots]
  by_cases ram : image.len.toNat ≤ sdram.size
  · obtain ⟨after, _, run⟩ := runHleBootloader_of_room os whole ram
    have sum : 2 ^ 32 ≤ image.addr.toNat + image.entryOffset.toNat :=
      Nat.le_of_not_lt fun entry => large ⟨ram, entry⟩
    rw [run, if_pos sum]
    exact Outcome.ensures_panic _ _
  · rw [runHleBootloader_of_no_room os whole (Nat.lt_of_not_le ram)]
    exact Outcome.ensures_panic _ _

/-- The boot loader can be given a file exactly if the image of the operating system, where all of
it is in the file, fits into RAM and has an entry. -/
theorem hle_boots_iff (fw : List U8) (sdram : AsanRam) :
    Boots fw sdram ↔ ∀ image, OsImage fw image → Whole fw image → Fits sdram image := by
  constructor
  · intro boots image os whole
    by_contra large
    exact not_boots_of_not_fits os whole large boots
  · intro fits
    by_cases missing : ∀ image, ¬ OsImage fw image
    · obtain ⟨e, refused⟩ := runHleBootloader_of_missing missing sdram
      rw [Boots, refused]
      exact nofun
    · obtain ⟨image, os⟩ := not_forall_not.mp missing
      obtain ⟨whole, _⟩ | ⟨_, refused⟩ := runHleBootloader_of_osImage os sdram
      · obtain ⟨after, loaded, run⟩ := runHleBootloader_of_room os whole (fits image os whole).ram
        rw [Boots, run, if_neg (Nat.not_le_of_lt (fits image os whole).entry)]
        rintro _ ⟨⟩
        exact ⟨image, os, loaded⟩
      · rw [Boots, refused]
        exact nofun

/-- A file of version 3 with an empty image of the operating system, whose entry lies behind the
last address. -/
def behindTheEnd : List U8 :=
  List.replicate 256 0 ++ hiMagic.toLeBytes 4 ++ [0, 0, 0, 0, 0, 0, 3, 0] ++ List.replicate 244 0 ++
    ([0x41544121, 0x6f736f73, 0, 0, 0, 0xffffffff, 1, 0, 0, 0] : List U32).flatMap (·.toLeBytes 4) ++
    List.replicate 40 0

/-- The record of its only image. -/
def behindTheEndImage : ImageInfo where
  dev := [0x41, 0x54, 0x41, 0x21]
  name := osos
  id := 0
  devOffset := 0
  len := 0
  addr := 0xffffffff
  entryOffset := 1
  checksum := 0
  vers := 0
  loadAddr := 0

theorem behindTheEnd_osImage : OsImage behindTheEnd behindTheEndImage := by
  have image : recordAt (behindTheEnd.drop (dirStart behindTheEnd)) 0 = behindTheEndImage := by
    decide +kernel
  refine ⟨rfl, 1, 0, ⟨by decide +kernel, by decide +kernel, by decide +kernel, ?_⟩, Nat.zero_lt_one,
    image, nofun⟩
  exact ⟨by decide +kernel, by decide +kernel, by decide +kernel⟩

theorem entry_sum_overflows : ¬ Boots behindTheEnd (.new (32 * 1024 * 1024) true) := by
  apply not_boots_of_not_fits behindTheEnd_osImage
  · unfold Whole
    exact Nat.zero_le _
  · rintro ⟨_, entry⟩
    exact absurd entry (by decide)

end Clicky
