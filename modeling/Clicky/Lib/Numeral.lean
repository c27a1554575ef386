import Mathlib.Init

/-! Numerals in a radix, as characters: reading back a number that was written, where numbers have
to stay below a limit. Numbers are written by `Nat.toDigits`. -/
namespace Numeral

/-- What a character counts. From ten on these are letters, of either case. -/
def value? (c : Char) : Option Nat :=
  if '0' ≤ c ∧ c ≤ '9' then some (c.toNat - '0'.toNat)
  else if 'a' ≤ c ∧ c ≤ 'z' then some (c.toNat - 'a'.toNat + 10)
  else if 'A' ≤ c ∧ c ≤ 'Z' then some (c.toNat - 'A'.toNat + 10)
  else none

/-- One more digit. -/
def push (radix limit n : Nat) (c : Char) : Option Nat :=
  match value? c with
  | some d => if d < radix ∧ n * radix + d < limit then some (n * radix + d) else none
  | none => none

def readDigits (radix limit : Nat) (cs : List Char) : Option Nat :=
  cs.foldlM (push radix limit) 0

/-- A plus sign in front is ignored, but is no numeral by itself. -/
def read (radix limit : Nat) : List Char → Option Nat
  | [] => none
  | c :: cs =>
    if c = '+' then if cs = [] then none else readDigits radix limit cs
    else readDigits radix limit (c :: cs)

variable {radix : Nat}

theorem value?_digitChar : ∀ d < 16, value? d.digitChar = some d := by decide

theorem digitChar_ne_plus : ∀ d < 16, d.digitChar ≠ '+' := by decide

theorem mem_toDigits (two : 1 < radix) {n : Nat} {c : Char} (member : c ∈ Nat.toDigits radix n) :
    ∃ d < radix, c = d.digitChar := by
  induction n using Nat.strongRecOn with
  | ind n ih =>
    rw [Nat.toDigits_eq_if two] at member
    split at member
    · rename_i small
      exact ⟨n, small, List.mem_singleton.mp member⟩
    · rename_i large
      rcases List.mem_append.mp member with before | last
      · exact ih (n / radix) (Nat.div_lt_self (by omega) two) before
      · exact ⟨n % radix, Nat.mod_lt n (by omega), List.mem_singleton.mp last⟩

theorem push_digitChar (few : radix ≤ 16) {d : Nat} (digit : d < radix) (limit n : Nat) :
    push radix limit n d.digitChar =
      if n * radix + d < limit then some (n * radix + d) else none := by
  rw [push, value?_digitChar d (by omega)]
  simp only [digit, true_and]

theorem readDigits_toDigits (two : 1 < radix) (few : radix ≤ 16) (limit n : Nat) :
    readDigits radix limit (Nat.toDigits radix n) = if n < limit then some n else none := by
  induction n using Nat.strongRecOn with
  | ind n ih =>
    rw [Nat.toDigits_eq_if two]
    split
    · rename_i small
      rw [readDigits, List.foldlM_cons, push_digitChar few small, Nat.zero_mul, Nat.zero_add]
      split <;> rfl
    · rename_i large
      have digit : n % radix < radix := Nat.mod_lt n (by omega)
      have whole : n / radix * radix + n % radix = n := Nat.div_add_mod' n radix
      have before := ih (n / radix) (Nat.div_lt_self (by omega) two)
      rw [readDigits] at before ⊢
      rw [List.foldlM_append, before]
      split
      · rw [Option.bind_eq_bind, Option.bind_some, List.foldlM_cons, push_digitChar few digit, whole]
        split <;> rfl
      · rename_i past
        have quotient : n / radix ≤ n := Nat.div_le_self n radix
        exact (if_neg (by omega)).symm

/-- A number is read back as it was written, if it is below the limit. -/
theorem read_toDigits (two : 1 < radix) (few : radix ≤ 16) (limit n : Nat) :
    read radix limit (Nat.toDigits radix n) = if n < limit then some n else none := by
  rw [← readDigits_toDigits two few]
  cases digits : Nat.toDigits radix n with
  | nil => exact absurd digits Nat.toDigits_ne_nil
  | cons c cs =>
    obtain ⟨d, small, rfl⟩ := mem_toDigits two (digits ▸ List.mem_cons_self : c ∈ Nat.toDigits radix n)
    exact if_neg (digitChar_ne_plus d (by omega))

end Numeral
