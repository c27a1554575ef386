import Clicky.Lib.Extent

/-! Readers of a file: a list of symbols and a position in it, which may be past the end. The
readers of a record take a fixed number of symbols, or fail where they are not all there. -/

structure Cursor (τ : Type) where
  data : List τ
  pos : Nat := 0

namespace Cursor

variable {τ : Type}

def rest (c : Cursor τ) : List τ := c.data.drop c.pos
def seek (c : Cursor τ) (pos : Nat) : Cursor τ := { c with pos }
def skip (c : Cursor τ) (n : Nat) : Cursor τ := { c with pos := c.pos + n }

@[simp] theorem rest_seek (c : Cursor τ) (pos : Nat) : (c.seek pos).rest = c.data.drop pos := rfl

@[simp] theorem rest_skip (c : Cursor τ) (n : Nat) : (c.skip n).rest = c.rest.drop n :=
  List.drop_drop.symm

@[simp] theorem skip_skip (c : Cursor τ) (m n : Nat) : (c.skip m).skip n = c.skip (m + n) := by
  simp only [skip, Nat.add_assoc]

@[simp] theorem skip_zero (c : Cursor τ) : c.skip 0 = c := rfl

end Cursor

abbrev Reader (ε τ α : Type) := StateT (Cursor τ) (Except ε) α

namespace Reader

variable {ε τ α β : Type} {eof : ε}

def readExact (eof : ε) (n : Nat) : Reader ε τ (List τ) := fun c =>
  if n ≤ c.rest.length then .ok (c.rest.take n, c.skip n) else .error eof

theorem readExact_of_le {n : Nat} {c : Cursor τ} (inside : n ≤ c.rest.length) :
    readExact eof n c = .ok (c.rest.take n, c.skip n) := if_pos inside

theorem readExact_of_lt {n : Nat} {c : Cursor τ} (short : c.rest.length < n) :
    readExact eof n c = .error eof := if_neg (Nat.not_le_of_lt short)

/-- The reader takes `n` symbols. Its value is a function of what lies ahead. -/
def Consumes (p : Reader ε τ α) (eof : ε) (n : Nat) (value : List τ → α) : Prop :=
  ∀ c, p c = if n ≤ c.rest.length then .ok (value c.rest, c.skip n) else .error eof

theorem consumes_readExact (n : Nat) :
    (readExact eof n : Reader ε τ (List τ)).Consumes eof n (List.take n) :=
  fun _ => rfl

theorem consumes_pure (a : α) : (pure a : Reader ε τ α).Consumes eof 0 fun _ => a := by
  intro c
  rw [if_pos (Nat.zero_le _)]
  rfl

/-- The rule of sequencing: the second reader starts where the first one stops. -/
theorem Consumes.bind {p : Reader ε τ α} {q : α → Reader ε τ β} {m n : Nat} {f : List τ → α}
    {g : α → List τ → β} (first : p.Consumes eof m f) (second : ∀ a, (q a).Consumes eof n (g a)) :
    (p >>= q).Consumes eof (m + n) fun rest => g (f rest) (rest.drop m) := by
  intro c
  change (p c >>= fun (a, c) => q a c) = _
  rw [first c]
  by_cases here : m ≤ c.rest.length
  · rw [if_pos here]
    refine (second (f c.rest) (c.skip m)).trans ?_
    have later : n ≤ c.rest.length - m ↔ m + n ≤ c.rest.length := by omega
    simp only [Cursor.rest_skip, Cursor.skip_skip, List.length_drop, later]
  · rw [if_neg here, if_neg (by omega)]
    rfl

theorem Consumes.map {p : Reader ε τ α} {n : Nat} {f : List τ → α} (consumes : p.Consumes eof n f)
    (g : α → β) : (g <$> p).Consumes eof n fun rest => g (f rest) := by
  intro c
  change ((fun (a, c) => (g a, c)) <$> p c) = _
  rw [consumes c]
  split <;> rfl

theorem Consumes.congr {p : Reader ε τ α} {n : Nat} {f g : List τ → α}
    (consumes : p.Consumes eof n f) (same : ∀ rest, f rest = g rest) : p.Consumes eof n g := by
  rw [← funext same]
  exact consumes

/-- A record that was read was there, and the reader is behind it. -/
theorem Consumes.of_ok {p : Reader ε τ α} {n : Nat} {f : List τ → α}
    (consumes : p.Consumes eof n f) {c c' : Cursor τ} {a : α} (read : p c = .ok (a, c')) :
    n ≤ c.rest.length ∧ a = f c.rest ∧ c' = c.skip n := by
  rw [consumes c] at read
  split at read
  · rename_i inside
    cases read
    exact ⟨inside, rfl, rfl⟩
  · cases read

end Reader
