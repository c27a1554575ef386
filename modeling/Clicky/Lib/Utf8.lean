import Mathlib.Init

/-! Characters as bytes. The codec is the one of the core library, on lists. -/
namespace Utf8

def encode (cs : List Char) : List (BitVec 8) :=
  cs.flatMap fun c => (String.utf8EncodeChar c).map UInt8.toBitVec

/-- There are no characters where the bytes are not well formed. -/
def decode (bytes : List (BitVec 8)) : Option (List Char) :=
  ((bytes.map UInt8.ofBitVec).toByteArray.utf8Decode?).map Array.toList

@[simp] theorem encode_nil : encode [] = [] := rfl

theorem encode_append (cs ds : List Char) : encode (cs ++ ds) = encode cs ++ encode ds :=
  List.flatMap_append

theorem encode_flatMap {α : Type} (f : α → List Char) (as : List α) :
    encode (as.flatMap f) = as.flatMap fun a => encode (f a) := List.flatMap_assoc

theorem decode_encode (cs : List Char) : decode (encode cs) = some cs := by
  have bytes : (encode cs).map UInt8.ofBitVec = cs.flatMap String.utf8EncodeChar := by
    rw [encode, List.map_flatMap]
    congr 1
    funext c
    rw [List.map_map]
    exact List.map_id _
  rw [decode, bytes]
  change (cs.utf8Encode.utf8Decode?).map Array.toList = _
  rw [List.utf8Decode?_utf8Encode]
  rfl

/-- An ASCII character is its own byte. -/
theorem encode_ascii {cs : List Char} (ascii : ∀ c ∈ cs, c.toNat < 128) :
    encode cs = cs.map fun c => BitVec.ofNat 8 c.toNat := by
  induction cs with
  | nil => rfl
  | cons c cs ih =>
    have small : c.toNat < 128 := ascii c List.mem_cons_self
    have single : c.utf8Size = 1 := by
      rw [Char.utf8Size_eq_one_iff, UInt32.le_iff_toNat_le]
      exact Nat.le_of_lt_succ small
    have rest := ih fun d member => ascii d (List.mem_cons_of_mem c member)
    rw [encode] at rest ⊢
    rw [List.flatMap_cons, rest, String.utf8EncodeChar_eq_singleton single]
    rfl

end Utf8
