import Clicky.Eapp.GlTrace
import Clicky.Lib.Attempt
import Clicky.Lib.Blocks
import Clicky.Lib.LittleEndian
import Clicky.Lib.Numeral
import Clicky.Lib.Utf8

/-! The memory that a trace keeps, as hexadecimal digits. -/
namespace Clicky

def hexBytes (bytes : List U8) : String := bytes.foldl (fun out b => out ++ hexDigits b) ""

def notCharBoundary : String := "byte index is not a char boundary"
def endOutOfBounds : String := "byte index is out of bounds"

/-- `len` bytes of a string, from an index on. The slice may not cut a character in two. -/
def strSlice (text : String) (start len : Nat) : Except String (List Char) :=
  let bytes := Utf8.encode text.toList
  if start + len ≤ bytes.length then
    match Utf8.decode (bytes.slice start len) with
    | some cs => .ok cs
    | none => .error notCharBoundary
  else .error endOutOfBounds

def hexByte? (digits : List Char) : Option U8 := (Numeral.read 16 256 digits).map (BitVec.ofNat 8)

/-- Every second index is the start of two digits. Those that are no byte are left out. -/
def bytesFromSnapshot (snapshot : GlMemorySnapshot) : Except String (List U8) := do
  let len := (Utf8.encode snapshot.bytesHex.toList).length
  let pairs ← (List.range ((len + 1) / 2)).mapM fun k => strSlice snapshot.bytesHex (2 * k) 2
  return pairs.filterMap hexByte?

def wordsFromSnapshot (snapshot : GlMemorySnapshot) : Except String (List U32) := do
  let bytes ← bytesFromSnapshot snapshot
  return (bytes.chunksExact 4).map (BitVec.ofLeBytes 32)

/-- The two digits of a byte. -/
def hexPair (b : U8) : List Char := [Nat.digitChar (b.toNat / 16), Nat.digitChar (b.toNat % 16)]

theorem toList_hexBytes (bytes : List U8) : (hexBytes bytes).toList = bytes.flatMap hexPair := by
  have from_start (out : String) : (bytes.foldl (fun out b => out ++ hexDigits b) out).toList =
      out.toList ++ bytes.flatMap hexPair := by
    induction bytes generalizing out with
    | nil => simp
    | cons b bytes ih =>
      rw [List.foldl_cons, ih, List.flatMap_cons, String.toList_append, hexDigits, String.toList_ofList,
        List.append_assoc]
      rfl
  exact from_start ""

theorem digitChar_ascii : ∀ d < 16, d.digitChar.toNat < 128 := by decide

theorem hexPair_ascii {b : U8} {c : Char} (member : c ∈ hexPair b) : c.toNat < 128 := by
  have byte := b.isLt
  rcases List.mem_pair.mp member with rfl | rfl
  · exact digitChar_ascii _ (by omega)
  · exact digitChar_ascii _ (by omega)

/-- Two digits are read back as the byte. -/
theorem hexByte?_hexPair (b : U8) : hexByte? (hexPair b) = some b := by
  have byte := b.isLt
  have high : b.toNat / 16 < 16 := by omega
  have low : b.toNat % 16 < 16 := by omega
  have whole : b.toNat / 16 * 16 + b.toNat % 16 = b.toNat := Nat.div_add_mod' _ _
  have value : Numeral.read 16 256 (hexPair b) = some b.toNat := by
    rw [hexPair, Numeral.read, if_neg (Numeral.digitChar_ne_plus _ high), Numeral.readDigits,
      List.foldlM_cons, Numeral.push_digitChar (Nat.le_refl 16) high, if_pos (by omega)]
    rw [Option.bind_eq_bind, Option.bind_some, List.foldlM_cons,
      Numeral.push_digitChar (Nat.le_refl 16) low, if_pos (by omega), Nat.zero_mul, Nat.zero_add, whole]
    rfl
  rw [hexByte?, value, Option.map_some, BitVec.ofNat_toNat, BitVec.setWidth_eq]

theorem length_encode_hexPair (b : U8) : (Utf8.encode (hexPair b)).length = 2 := by
  rw [Utf8.encode_ascii fun c => hexPair_ascii, List.length_map]
  rfl

theorem encode_hexBytes (bytes : List U8) :
    Utf8.encode (hexBytes bytes).toList = bytes.flatMap fun b => Utf8.encode (hexPair b) := by
  rw [toList_hexBytes, Utf8.encode_flatMap]

theorem length_encode_hexBytes (bytes : List U8) :
    (Utf8.encode (hexBytes bytes).toList).length = bytes.length * 2 := by
  rw [encode_hexBytes]
  exact List.length_flatMap_const fun b _ => length_encode_hexPair b

/-- Slice `k` holds the digits of byte `k`. -/
theorem strSlice_hexBytes {bytes : List U8} {k : Nat} {b : U8} (found : bytes[k]? = some b) :
    strSlice (hexBytes bytes) (2 * k) 2 = .ok (hexPair b) := by
  have before : k < bytes.length := (List.getElem?_eq_some_iff.mp found).1
  have inside : 2 * k + 2 ≤ (Utf8.encode (hexBytes bytes).toList).length := by
    rw [length_encode_hexBytes]
    omega
  have block : (Utf8.encode (hexBytes bytes).toList).slice (2 * k) 2 = Utf8.encode (hexPair b) := by
    rw [encode_hexBytes, Nat.mul_comm]
    exact List.slice_flatMap_const (fun b _ => length_encode_hexPair b) found
  unfold strSlice
  dsimp only
  rw [if_pos inside, block, Utf8.decode_encode]

/-- Decoding takes back what encoding did. -/
theorem bytesFromSnapshot_hexBytes (snapshot : GlMemorySnapshot) (bytes : List U8) :
    bytesFromSnapshot { snapshot with bytesHex := hexBytes bytes } = .ok bytes := by
  have count : (bytes.length * 2 + 1) / 2 = bytes.length := by omega
  have pairs : (List.range bytes.length).mapM (fun k => strSlice (hexBytes bytes) (2 * k) 2) =
      .ok ((List.range bytes.length).map fun k => hexPair (bytes.getD k 0)) := by
    apply List.mapM_ok
    intro k member
    have found : bytes[k]? = some (bytes.getD k 0) := by
      rw [List.getD_eq_getElem?_getD, List.getElem?_eq_getElem (List.mem_range.mp member)]
      rfl
    exact strSlice_hexBytes found
  have all : (List.range bytes.length).map (fun k => bytes.getD k 0) = bytes := by
    apply List.ext_getElem
    · simp
    · intro k _ inside
      rw [List.getElem_map, List.getElem_range, List.getD_eq_getElem?_getD,
        List.getElem?_eq_getElem inside]
      rfl
  unfold bytesFromSnapshot
  dsimp only
  rw [length_encode_hexBytes, count, pairs]
  change Except.ok (((List.range bytes.length).map fun k => hexPair (bytes.getD k 0)).filterMap
    hexByte?) = _
  rw [List.filterMap_map]
  have read : hexByte? ∘ (fun k => hexPair (bytes.getD k 0)) = some ∘ fun k => bytes.getD k 0 := by
    funext k
    exact hexByte?_hexPair _
  rw [read, List.filterMap_eq_map, all]

/-- The codec of snapshots: the bytes come back, and the whole words of them in order. -/
theorem snapshot_round_trip (snapshot : GlMemorySnapshot) (bytes : List U8) :
    bytesFromSnapshot { snapshot with bytesHex := hexBytes bytes } = .ok bytes ∧
      ∃ words, wordsFromSnapshot { snapshot with bytesHex := hexBytes bytes } = .ok words ∧
        words.length = bytes.length / 4 ∧
        ∀ k < bytes.length / 4, ∀ i < 4, (words.getD k 0).leByte i = bytes.getD (4 * k + i) 0 := by
  have decoded := bytesFromSnapshot_hexBytes snapshot bytes
  refine ⟨decoded, (bytes.chunksExact 4).map (BitVec.ofLeBytes 32), ?_, ?_, ?_⟩
  · rw [wordsFromSnapshot, decoded]
    rfl
  · rw [List.length_map, List.chunksExact, List.length_map, List.length_range]
  · intro k inside i byte
    have chunk : ((bytes.chunksExact 4).map (BitVec.ofLeBytes 32)).getD k 0 =
        BitVec.ofLeBytes 32 (bytes.slice (k * 4) 4) := by
      rw [List.getD_eq_getElem?_getD, List.getElem?_map, List.getElem?_chunksExact, if_pos inside]
      rfl
    rw [chunk, BitVec.leByte_ofLeBytes _ _ (by omega), List.getD_eq_getElem?_getD,
      List.getElem?_slice, if_pos byte, Nat.mul_comm, List.getD_eq_getElem?_getD]

end Clicky
