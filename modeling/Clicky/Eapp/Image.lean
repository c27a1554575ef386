import Clicky.Eapp.Bus
import Mathlib.Data.Finset.Card

/-! The executable of a game: its header, the modules it imports, and the literals through which
it calls them. -/
namespace Clicky

inductive EappBuildError where
  | invalidImage (message : String)
  deriving DecidableEq, Repr

structure EappHeader where
  loadAddrGuess : U32
  formatVersion : U32
  headerSize : U32
  importsAddr : U32
  entryAddr : U32
  initAddr : U32
  auxAddr : U32
  deriving DecidableEq, Repr

structure EappImportModule where
  nameAddr : U32
  name : String
  count : U32
  nextAddr : U32
  stubsAddr : U32
  literalsAddr : U32
  deriving DecidableEq, Repr

def eappHeaderSize : Nat := 0x28
def importNameLen : Nat := 0x20
def importCountOffset : Nat := 0x30
def importNextOffset : Nat := 0x34
def importStubsOffset : U32 := 0x38
def importSentinelName : String := "$$$$ a^n + b^n = c^n | n>2 $$$$"
def trampolineBase : U32 := 0x1f000000
def trampolineStride : U32 := 0x20

def mulOverflow : String := "attempt to multiply with overflow"

/-- Checked sums and products. An error is the message of the panic. -/
def addU32 (a b : U32) : Except String U32 :=
  if 2 ^ 32 ≤ a.toNat + b.toNat then .error addOverflow else .ok (a + b)

def mulU32 (a b : U32) : Except String U32 :=
  if 2 ^ 32 ≤ a.toNat * b.toNat then .error mulOverflow else .ok (a * b)

def hex (n : Nat) : String := "0x" ++ String.ofList (Nat.toDigits 16 n)

def hexAddr (addr : U32) : String :=
  let digits := Nat.toDigits 16 addr.toNat
  "0x" ++ String.ofList (List.replicate (8 - digits.length) '0' ++ digits)

def getRange (image : List U8) (offset len : Nat) : Option (List U8) :=
  if offset + len ≤ image.length then some (image.slice offset len) else none

def readU32At (image : List U8) (offset : Nat) : Except EappBuildError U32 :=
  match getRange image offset 4 with
  | some bytes => .ok (BitVec.ofLeBytes 32 bytes)
  | none => .error (.invalidImage ("truncated u32 at " ++ hex offset))

def vmaToOffset (addr : U32) : Except EappBuildError U32 :=
  if fileVmaBase ≤ addr then .ok (addr - fileVmaBase)
  else .error (.invalidImage ("address " ++ hexAddr addr ++ " is outside file VMA"))

def utf8? (bytes : List U8) : Option String :=
  String.fromUTF8? ⟨(bytes.map UInt8.ofBitVec).toArray⟩

def cString (bytes : List U8) : Except EappBuildError String :=
  match utf8? (bytes.takeWhile fun b => b != 0) with
  | some s => .ok s
  | none => .error (.invalidImage "non-utf8 import name")

def parseEappHeader (image : List U8) : Except EappBuildError EappHeader :=
  if image.length < eappHeaderSize then .error (.invalidImage "file too small for eapp header")
  else if image.take 4 ≠ [0x65, 0x61, 0x70, 0x70] then
    .error (.invalidImage "missing eapp magic")
  else do
    let loadAddrGuess ← readU32At image 0x04
    let formatVersion ← readU32At image 0x08
    let headerSize ← readU32At image 0x0c
    let importsAddr ← readU32At image 0x10
    let entryAddr ← readU32At image 0x14
    let initAddr ← readU32At image 0x18
    let auxAddr ← readU32At image 0x24
    return { loadAddrGuess, formatVersion, headerSize, importsAddr, entryAddr, initAddr, auxAddr }

def readName (image : List U8) (nameOffset : Nat) : Except EappBuildError String :=
  match getRange image nameOffset importNameLen with
  | some nameBytes => cString nameBytes
  | none => .error (.invalidImage "truncated import name")

/-- The part of a module's record that is in the file: name, count and next address. -/
def readRecord (image : List U8) (nameAddr : U32) :
    Except EappBuildError (String × U32 × U32) := do
  let nameOffset ← vmaToOffset nameAddr
  let name ← readName image nameOffset.toNat
  let count ← readU32At image (nameOffset.toNat + importCountOffset)
  let nextAddr ← readU32At image (nameOffset.toNat + importNextOffset)
  return (name, count, nextAddr)

/-- Where the stubs and the literals of a module are. -/
def tableAddrs (nameAddr count : U32) : Except String (U32 × U32) := do
  let stubsAddr ← addU32 nameAddr importStubsOffset
  let stubsLen ← mulU32 count 4
  let literalsAddr ← addU32 stubsAddr stubsLen
  return (stubsAddr, literalsAddr)

/-- The addresses that the walk has not been to. -/
def unseen (seen : List U32) : Finset Nat :=
  (Finset.range (2 ^ 32)).filter fun a => seen.contains (BitVec.ofNat 32 a) = false

theorem card_unseen_lt {seen : List U32} {addr : U32} (fresh : ¬ seen.contains addr = true) :
    (unseen (addr :: seen)).card < (unseen seen).card := by
  have here : BitVec.ofNat 32 addr.toNat = addr := BitVec.ofNat_toNat 32 addr
  apply Finset.card_lt_card
  rw [Finset.ssubset_iff_of_subset]
  · refine ⟨addr.toNat, ?_, ?_⟩
    · rw [unseen, Finset.mem_filter, Finset.mem_range, here]
      exact ⟨addr.isLt, Bool.eq_false_of_not_eq_true fresh⟩
    · rw [unseen, Finset.mem_filter, here]
      simp
  · intro a later
    rw [unseen, Finset.mem_filter] at later ⊢
    simp only [List.contains_cons, Bool.or_eq_false_iff] at later
    exact ⟨later.1, later.2.2⟩

def walkModules (image : List U8) (seen : List U32) (nameAddr : U32) :
    Outcome EappBuildError Unit (List EappImportModule) :=
  if nameAddr = 0 then .ok () []
  else if seen.contains nameAddr then
    .raise () (.invalidImage ("import descriptor loop at " ++ hexAddr nameAddr))
  else
    match readRecord image nameAddr with
    | .error e => .raise () e
    | .ok (name, count, nextAddr) =>
      match tableAddrs nameAddr count with
      | .error message => .panic message
      | .ok (stubsAddr, literalsAddr) =>
        -- the sums come first, also for the record that only ends the list
        if name = importSentinelName then .ok () []
        else (walkModules image (nameAddr :: seen) nextAddr).map fun modules =>
          { nameAddr, name, count, nextAddr, stubsAddr, literalsAddr } :: modules
termination_by (unseen seen).card
decreasing_by exact card_unseen_lt ‹_›

def parseImportModules (image : List U8) (nameAddr : U32) :
    Outcome EappBuildError Unit (List EappImportModule) :=
  walkModules image [] nameAddr

structure BoundImport where
  moduleName : String
  ordinal : U32
  deriving DecidableEq, Repr

/-- The image with its literals patched so far, and what is known of each trampoline. -/
structure ImportTable where
  patchedImage : List U8
  imports : List BoundImport := []
  trampolineToImport : List (U32 × Nat) := []
  trampolineAddr : U32 := trampolineBase

def bindOrdinal (m : EappImportModule) (t : ImportTable) (ordinal : U32) :
    Outcome EappBuildError ImportTable Unit :=
  match mulU32 ordinal 4 >>= addU32 m.literalsAddr with
  | .error message => .panic message
  | .ok literalAddr =>
    match vmaToOffset literalAddr with
    | .error e => .raise t e
    | .ok literalOffset =>
      if literalOffset.toNat + 4 > t.patchedImage.length then .panic outOfBounds
      else
        .ok {
          patchedImage :=
            t.patchedImage.overwrite literalOffset.toNat (t.trampolineAddr.toLeBytes 4)
          imports := t.imports ++ [{ moduleName := m.name, ordinal }]
          trampolineToImport := t.trampolineToImport ++ [(t.trampolineAddr, t.imports.length)]
          trampolineAddr := t.trampolineAddr + trampolineStride } ()

def bindModule (t : ImportTable) (m : EappImportModule) : Outcome EappBuildError ImportTable Unit :=
  Outcome.forEach (bindOrdinal m) t ((List.range m.count.toNat).map (BitVec.ofNat 32))

/-- All that is done with the bytes of an executable before the game can run. -/
def loadImage (image : List U8) : Outcome EappBuildError ImportTable Unit :=
  let t : ImportTable := { patchedImage := image }
  match parseEappHeader image with
  | .error e => .raise t e
  | .ok header =>
    ((parseImportModules image header.importsAddr).zoom fun _ => t).bind fun t modules =>
      Outcome.forEach bindModule t modules

end Clicky
