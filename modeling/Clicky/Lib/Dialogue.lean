import Clicky.Lib.Outcome

/-! Programs that put questions to their surroundings. A program is the tree of its questions and of
what it does on each answer, so a fact about it is a fact for all answers. -/

/-- A program that may ask any `q : Q`, is answered by an `A q`, and returns an `α`. -/
inductive Dialogue (Q : Type) (A : Q → Type) (α : Type) where
  | done (result : α)
  | panic (message : String)
  | ask (question : Q) (next : A question → Dialogue Q A α)

namespace Dialogue

variable {Q Q' : Type} {A : Q → Type} {A' : Q' → Type} {α β γ : Type}

def bind : Dialogue Q A α → (α → Dialogue Q A β) → Dialogue Q A β
  | .done a, next => next a
  | .panic m, _ => .panic m
  | .ask q rest, next => .ask q fun answer => (rest answer).bind next

instance : Monad (Dialogue Q A) where
  pure := .done
  bind := Dialogue.bind

@[simp] theorem pure_eq (a : α) : (pure a : Dialogue Q A α) = .done a := rfl

@[simp] theorem done_bind (a : α) (next : α → Dialogue Q A β) : (.done a >>= next) = next a := rfl

@[simp] theorem panic_bind (m : String) (next : α → Dialogue Q A β) :
    (.panic m >>= next) = .panic m := rfl

@[simp] theorem ask_bind (q : Q) (rest : A q → Dialogue Q A α) (next : α → Dialogue Q A β) :
    (.ask q rest >>= next) = .ask q fun answer => rest answer >>= next := rfl

theorem bind_done (d : Dialogue Q A α) : (d >>= .done) = d := by
  induction d with
  | done a => rfl
  | panic m => rfl
  | ask q rest ih => simp [ih]

theorem bind_bind (d : Dialogue Q A α) (f : α → Dialogue Q A β) (g : β → Dialogue Q A γ) :
    (d >>= f >>= g) = d >>= fun a => f a >>= g := by
  induction d with
  | done a => rfl
  | panic m => rfl
  | ask q rest ih => simp [ih]

instance : LawfulMonad (Dialogue Q A) :=
  LawfulMonad.mk' _ bind_done (fun _ _ => rfl) bind_bind

/-! ### What holds for all answers -/

/-- Whatever the answers, the questions are among `asks`, the panics among `fails`, and the result
satisfies `P`. -/
def All (asks : Q → Prop) (fails : String → Prop) (P : α → Prop) : Dialogue Q A α → Prop
  | .done a => P a
  | .panic m => fails m
  | .ask q next => asks q ∧ ∀ answer, (next answer).All asks fails P

section All

variable {asks : Q → Prop} {fails : String → Prop} {P : α → Prop}

@[simp] theorem all_done (a : α) : (.done a : Dialogue Q A α).All asks fails P ↔ P a := Iff.rfl

@[simp] theorem all_panic (m : String) :
    (.panic m : Dialogue Q A α).All asks fails P ↔ fails m := Iff.rfl

@[simp] theorem all_ask (q : Q) (next : A q → Dialogue Q A α) :
    (Dialogue.ask q next).All asks fails P ↔
      asks q ∧ ∀ answer, (next answer).All asks fails P := Iff.rfl

/-- The rule of sequencing. -/
@[simp] theorem all_bind {d : Dialogue Q A α} {next : α → Dialogue Q A β} {P : β → Prop} :
    (d >>= next).All asks fails P ↔ d.All asks fails fun a => (next a).All asks fails P := by
  induction d with
  | done a => rfl
  | panic m => rfl
  | ask q rest ih => simp [ih]

theorem All.mono {asks' : Q → Prop} {fails' : String → Prop} {P' : α → Prop}
    {d : Dialogue Q A α} (all : d.All asks fails P) (questions : ∀ q, asks q → asks' q)
    (panics : ∀ m, fails m → fails' m) (results : ∀ a, P a → P' a) : d.All asks' fails' P' := by
  induction d with
  | done a => exact results a all
  | panic m => exact panics m all
  | ask q rest ih => exact ⟨questions q all.1, fun answer => ih answer (all.2 answer)⟩

theorem All.and {P' : α → Prop} {d : Dialogue Q A α} (all : d.All asks fails P)
    (all' : d.All asks fails P') : d.All asks fails fun a => P a ∧ P' a := by
  induction d with
  | done a => exact ⟨all, all'⟩
  | panic m => exact all
  | ask q rest ih => exact ⟨all.1, fun answer => ih answer (all.2 answer) (all'.2 answer)⟩

end All

/-! ### Results under some answers -/

/-- Some answers lead to this result. -/
inductive Yields : Dialogue Q A α → α → Prop
  | done (a : α) : Yields (.done a) a
  | ask (q : Q) (next : A q → Dialogue Q A α) (answer : A q) (a : α)
      (rest : Yields (next answer) a) : Yields (.ask q next) a

theorem All.yields {asks : Q → Prop} {fails : String → Prop} {P : α → Prop} {d : Dialogue Q A α}
    (all : d.All asks fails P) {a : α} (yields : d.Yields a) : P a := by
  induction yields with
  | done a => exact all
  | ask q next answer a _ ih => exact ih (all.2 answer)

/-! ### Answers from a state -/

section run

variable {ε σ : Type} (answer : (q : Q) → σ → Outcome ε σ (A q))

/-- The program, with its questions answered from a state that the answering may change. -/
def run : Dialogue Q A α → σ → Outcome ε σ α
  | .done a, s => .ok s a
  | .panic m, _ => .panic m
  | .ask q next, s => (answer q s).bind fun s a => (next a).run s

@[simp] theorem run_done (a : α) (s : σ) : (Dialogue.done a).run answer s = .ok s a := rfl

@[simp] theorem run_panic (m : String) (s : σ) :
    (Dialogue.panic m : Dialogue Q A α).run answer s = .panic m := rfl

@[simp] theorem run_ask (q : Q) (next : A q → Dialogue Q A α) (s : σ) :
    (Dialogue.ask q next).run answer s = (answer q s).bind fun s a => (next a).run answer s := rfl

@[simp] theorem run_bind (d : Dialogue Q A α) (next : α → Dialogue Q A β) (s : σ) :
    (d >>= next).run answer s = (d.run answer s).bind fun s a => (next a).run answer s := by
  induction d generalizing s with
  | done a => rfl
  | panic m => rfl
  | ask q rest ih =>
    simp only [ask_bind, run_ask]
    rcases answer q s with ⟨s', e | a⟩ | m
    · rfl
    · exact ih a s'
    · rfl

variable {answer}

theorem yields_of_run {d : Dialogue Q A α} {s s' : σ} {a : α}
    (ran : d.run answer s = .ok s' a) : d.Yields a := by
  induction d generalizing s with
  | done b =>
    cases ran
    exact .done a
  | panic m => cases ran
  | ask q next ih =>
    obtain ⟨mid, b, _, later⟩ := Outcome.bind_eq_ok.mp ran
    exact .ask q next b a (ih b later)

/-- What answering the admitted questions keeps, the program keeps. -/
theorem All.leaves {asks : Q → Prop} {fails : String → Prop} {P : α → Prop} {I : σ → Prop}
    {d : Dialogue Q A α} (all : d.All asks fails P)
    (kept : ∀ q, asks q → ∀ s, I s → (answer q s).Leaves I) {s : σ} (initial : I s) :
    (d.run answer s).Leaves I := by
  induction d generalizing s with
  | done a => exact (Outcome.leaves_done s _ I).mpr initial
  | panic m => exact Outcome.leaves_panic m I
  | ask q next ih =>
    exact (kept q all.1 s initial).bind (fun _ here => here) fun mid a _ here =>
      ih a (all.2 a) here

/-- Where every admitted question is answered, a program without panics comes to an end. -/
theorem All.returns {asks : Q → Prop} {P : α → Prop} {d : Dialogue Q A α}
    (all : d.All asks (fun _ => False) P) (answered : ∀ q, asks q → ∀ s, (answer q s).Returns)
    (s : σ) : ∃ s' a, d.run answer s = .ok s' a ∧ P a := by
  induction d generalizing s with
  | done a => exact ⟨s, a, rfl, all⟩
  | panic m => exact all.elim
  | ask q next ih =>
    obtain ⟨mid, a, first⟩ := answered q all.1 s
    obtain ⟨s', b, rest, result⟩ := ih a (all.2 a) mid
    exact ⟨s', b, by rw [run_ask, first, Outcome.bind_ok, rest], result⟩

/-- The questions of a run, in their order. -/
def asked (answer : (q : Q) → σ → Outcome ε σ (A q)) : Dialogue Q A α → σ → List Q
  | .done _, _ => []
  | .panic _, _ => []
  | .ask q next, s => q ::
    match answer q s with
    | .ok s a => (next a).asked answer s
    | _ => []

/-- Questions that are only answered. -/
def answerAll (answer : (q : Q) → σ → Outcome ε σ (A q)) : List Q → σ → Outcome ε σ Unit
  | [], s => .ok s ()
  | q :: qs, s => (answer q s).bind fun s _ => answerAll answer qs s

/-- A run does to the state what answering its questions does. -/
theorem answerAll_asked {d : Dialogue Q A α} {s s' : σ} {a : α} (ran : d.run answer s = .ok s' a) :
    answerAll answer (d.asked answer s) s = .ok s' () := by
  induction d generalizing s with
  | done b =>
    cases ran
    rfl
  | panic m => cases ran
  | ask q next ih =>
    obtain ⟨mid, b, first, later⟩ := Outcome.bind_eq_ok.mp ran
    simp only [asked, answerAll, first]
    exact ih b later

theorem All.asked {asks : Q → Prop} {fails : String → Prop} {P : α → Prop} {d : Dialogue Q A α}
    (all : d.All asks fails P) (s : σ) : ∀ q ∈ d.asked answer s, asks q := by
  induction d generalizing s with
  | done a => simp [Dialogue.asked]
  | panic m => simp [Dialogue.asked]
  | ask q next ih =>
    simp only [Dialogue.asked, List.forall_mem_cons]
    refine ⟨all.1, ?_⟩
    split
    · exact ih _ (all.2 _) _
    · simp

end run

/-! ### Questions answered by programs -/

section interpret

variable (answer : (q : Q) → Dialogue Q' A' (A q))

/-- The program, with each question replaced by a program that answers it. -/
def interpret : Dialogue Q A α → Dialogue Q' A' α
  | .done a => .done a
  | .panic m => .panic m
  | .ask q next => answer q >>= fun a => (next a).interpret

@[simp] theorem interpret_done (a : α) : (Dialogue.done a).interpret answer = .done a := rfl

@[simp] theorem interpret_panic (m : String) :
    (Dialogue.panic m : Dialogue Q A α).interpret answer = .panic m := rfl

@[simp] theorem interpret_ask (q : Q) (next : A q → Dialogue Q A α) :
    (Dialogue.ask q next).interpret answer =
      answer q >>= fun a => (next a).interpret answer := rfl

@[simp] theorem interpret_bind (d : Dialogue Q A α) (next : α → Dialogue Q A β) :
    (d >>= next).interpret answer =
      d.interpret answer >>= fun a => (next a).interpret answer := by
  induction d with
  | done a => rfl
  | panic m => rfl
  | ask q rest ih => simp [ih]

variable {answer}

theorem All.interpret {asks : Q → Prop} {asks' : Q' → Prop} {fails : String → Prop}
    {P : α → Prop} {d : Dialogue Q A α} (all : d.All asks fails P)
    (answers : ∀ q, asks q → (answer q).All asks' fails fun _ => True) :
    (d.interpret answer).All asks' fails P := by
  induction d with
  | done a => exact all
  | panic m => exact all
  | ask q next ih =>
    rw [interpret_ask, all_bind]
    exact (answers q all.1).mono (fun _ h => h) (fun _ h => h) fun a _ => ih a (all.2 a)

end interpret

/-! ### Programs with a state of their own -/

section Keeps

variable {σ : Type} {asks : Q → Prop} {fails : String → Prop} {I : σ → Prop}

/-- From a state with `I` the program comes to one with `I`, whatever the answers. -/
def Keeps (asks : Q → Prop) (fails : String → Prop) (I : σ → Prop)
    (prog : StateT σ (Dialogue Q A) α) : Prop :=
  ∀ s, I s → (prog s).All asks fails fun p => I p.2

theorem Keeps.pure (a : α) : Keeps asks fails I (pure a : StateT σ (Dialogue Q A) α) := by
  intro s inside
  exact inside

theorem Keeps.bind {prog : StateT σ (Dialogue Q A) α} {next : α → StateT σ (Dialogue Q A) β}
    (first : Keeps asks fails I prog) (second : ∀ a, Keeps asks fails I (next a)) :
    Keeps asks fails I (prog >>= next) := by
  intro s inside
  change (prog s >>= fun p => next p.1 p.2).All asks fails _
  rw [all_bind]
  exact (first s inside).mono (fun _ h => h) (fun _ h => h) fun p here => second p.1 p.2 here

theorem Keeps.map {prog : StateT σ (Dialogue Q A) α} (kept : Keeps asks fails I prog)
    (f : α → β) : Keeps asks fails I (f <$> prog) := by
  rw [map_eq_pure_bind]
  exact kept.bind fun a => Keeps.pure (f a)

theorem Keeps.ite {c : Prop} [Decidable c] {yes no : StateT σ (Dialogue Q A) α}
    (here : c → Keeps asks fails I yes) (there : ¬ c → Keeps asks fails I no) :
    Keeps asks fails I (if c then yes else no) := by
  split
  · exact here ‹_›
  · exact there ‹_›

end Keeps
end Dialogue
