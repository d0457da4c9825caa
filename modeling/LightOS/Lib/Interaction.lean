import Mathlib.Tactic.Common

/-! # Programs that make calls

A program asks a server and goes on with the answers.  A loop is given the number of rounds it may
take, and `loop_rule` is the rule for it: an invariant with a measure that every round lowers.
Neither the calls nor the server are known here.
-/

namespace LightOS.Lib.Interaction

/-- A program over calls `C` with answers `A`; it is `spent` where a loop needs more rounds. -/
inductive Program (C A α : Type) where
  | ret (value : α)
  | spent
  | call (request : C) (next : A → Program C A α)

/-- How a program ends: it returns, it is out of rounds, or a call is not answered. -/
inductive Outcome (C S α : Type) where
  | returned (value : α) (s : S)
  | spent
  | waits (request : C) (s : S)

variable {C A S α β : Type}

namespace Program

def bind (p : Program C A α) (next : α → Program C A β) : Program C A β :=
  match p with
  | .ret value => next value
  | .spent => .spent
  | .call request rest => .call request fun answer => (rest answer).bind next

instance : Monad (Program C A) where
  pure := .ret
  bind := bind

/-- One call. -/
def ask (request : C) : Program C A A := .call request .ret

/-- A loop; a round leaves it with a value, or goes on. -/
def loop (round : β → Program C A (α ⊕ β)) : Nat → β → Program C A α
  | 0, _ => .spent
  | rounds + 1, b => (round b).bind fun
      | .inl value => .ret value
      | .inr b => loop round rounds b

/-- The program against a server that answers a call, or lets it wait. -/
def run (serve : S → C → Option (A × S)) : Program C A α → S → Outcome C S α
  | .ret value, s => .returned value s
  | .spent, _ => .spent
  | .call request next, s =>
      match serve s request with
      | none => .waits request s
      | some (answer, s) => (next answer).run serve s

end Program

/-- The next call alone.  What waits, and what has come to its end, stays as it is. -/
def Program.advance (serve : S → C → Option (A × S)) :
    Program C A α × S → Program C A α × S
  | (.call request next, s) =>
      match serve s request with
      | none => (.call request next, s)
      | some (answer, s) => (next answer, s)
  | (p, s) => (p, s)

/-- What comes of a program whose first part ends like this. -/
def Outcome.andThen (o : Outcome C S α) (next : α → S → Outcome C S β) : Outcome C S β :=
  match o with
  | .returned value s => next value s
  | .spent => .spent
  | .waits request s => .waits request s

/-- Two outcomes that agree but for the states of the servers. -/
inductive Outcome.Alike {T : Type} (R : S → T → Prop) : Outcome C S α → Outcome C T α → Prop
  | returned {value s t} : R s t → Alike R (.returned value s) (.returned value t)
  | spent : Alike R .spent .spent
  | waits {request s t} : R s t → Alike R (.waits request s) (.waits request t)

section Rules

variable {serve : S → C → Option (A × S)} {s s' : S}

@[simp] theorem run_pure (value : α) :
    (pure value : Program C A α).run serve s = .returned value s := rfl

@[simp] theorem run_ret (value : α) :
    (.ret value : Program C A α).run serve s = .returned value s := rfl

theorem run_bind (p : Program C A α) (next : α → Program C A β) (s : S) :
    (p.bind next).run serve s = (p.run serve s).andThen fun value s => (next value).run serve s := by
  induction p generalizing s with
  | ret value => rfl
  | spent => rfl
  | call request rest ih =>
      simp only [Program.bind, Program.run]
      cases serve s request with
      | none => rfl
      | some answered => exact ih answered.1 answered.2

/-- After a part that returns. -/
theorem run_after {p : Program C A α} {value : α} (returns : p.run serve s = .returned value s')
    (next : α → Program C A β) : (p >>= next).run serve s = (next value).run serve s' := by
  show (p.bind next).run serve s = _
  rw [run_bind, returns]
  rfl

/-- After a part that waits. -/
theorem run_waits {p : Program C A α} {request : C} (waits : p.run serve s = .waits request s')
    (next : α → Program C A β) : (p >>= next).run serve s = .waits request s' := by
  show (p.bind next).run serve s = _
  rw [run_bind, waits]
  rfl

theorem run_ask {request : C} {answer : A} (answered : serve s request = some (answer, s')) :
    (Program.ask request).run serve s = .returned answer s' := by
  simp only [Program.ask, Program.run, answered]

theorem run_ask_waits {request : C} (unanswered : serve s request = none) :
    (Program.ask request : Program C A A).run serve s = .waits request s := by
  simp only [Program.ask, Program.run, unanswered]

/-- What a round may come to, with `k` bounding the rounds that are left. -/
def RoundEnds (inv : β → S → Nat → Prop) (post : Outcome C S α → Prop) (k : Nat) :
    Outcome C S (α ⊕ β) → Prop
  | .returned (.inl value) s => post (.returned value s)
  | .returned (.inr b) s => ∃ fewer < k, inv b s fewer
  | .spent => False
  | .waits request s => post (.waits request s)

/-- A loop whose rounds keep an invariant and come nearer to its end. -/
theorem loop_rule {round : β → Program C A (α ⊕ β)} {inv : β → S → Nat → Prop}
    {post : Outcome C S α → Prop}
    (kept : ∀ {b s k}, inv b s k → RoundEnds inv post k ((round b).run serve s))
    {rounds k : Nat} {b : β} (start : inv b s k) (enough : k < rounds) :
    post ((Program.loop round rounds b).run serve s) := by
  induction rounds generalizing b s k with
  | zero => exact absurd enough (Nat.not_lt_zero k)
  | succ rounds ih =>
      have ended := kept start
      rw [Program.loop, run_bind]
      cases first : (round b).run serve s with
      | spent =>
          rw [first] at ended
          exact ended.elim
      | waits request s =>
          rw [first] at ended
          exact ended
      | returned value s =>
          rw [first] at ended
          cases value with
          | inl value => exact ended
          | inr b =>
              obtain ⟨fewer, less, inv⟩ := ended
              exact ih inv (Nat.lt_of_lt_of_le less (Nat.le_of_lt_succ enough))

/-- A server that simulates another, call by call, does so for every program. -/
theorem run_simulated {T : Type} {serve' : T → C → Option (A × T)} {R : S → T → Prop}
    (answers : ∀ {s t} (request : C), R s t →
      (serve s request = none ∧ serve' t request = none) ∨
      ∃ answer later later', serve s request = some (answer, later) ∧
        serve' t request = some (answer, later') ∧ R later later')
    (p : Program C A α) {s : S} {t : T} (related : R s t) :
    Outcome.Alike R (p.run serve s) (p.run serve' t) := by
  induction p generalizing s t with
  | ret value => exact .returned related
  | spent => exact .spent
  | call request rest ih =>
      rcases answers request related with ⟨none, none'⟩ | ⟨answer, later, later', some, some', next⟩
      · rw [Program.run, Program.run, none, none']
        exact .waits related
      · rw [Program.run, Program.run, some, some']
        exact ih answer next

end Rules

end LightOS.Lib.Interaction
