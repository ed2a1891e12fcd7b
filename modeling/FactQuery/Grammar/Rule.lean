import FactQuery.Expr.Basic
import FactQuery.Grammar.Error

/-!
# Rules

A rule reads tokens from the left. It yields a result or an error, the place where it stops, and the
steps it took. After an error the place is that of the offending token, so nothing is read beyond
it.

Rules are put together in sequence: the second goes on where the first stops, unless the first
fails.
-/

namespace FactQuery

/-- The phrases of the grammar, from the loosest to the tightest. A `complete` one is an expression
with nothing after it. -/
inductive Phrase where
  | complete
  | expression
  | clause
  | junction
  | comparison
  | membership
  | operand
  | literal
deriving DecidableEq

/-- The phrases that are entered with a step. Each but the last begins with the next one. -/
inductive Layer where
  | expression
  | clause
  | junction
  | comparison
  | membership
deriving DecidableEq

/-- A step of a reading, at the index of a token. -/
inductive Step where
  | enter (layer : Layer) (position : Nat)
  | list (position : Nat)
  | group (position : Nat)
  | operator (k : Keyword) (position : Nat)
deriving DecidableEq

/-- The tokens that are left, and how many came before them. -/
structure Input where
  offset : Nat
  rest : List Token
deriving DecidableEq

def Input.tail (i : Input) : Input :=
  match i.rest with
  | [] => i
  | _ :: rest => ⟨i.offset + 1, rest⟩

/-- What a rule makes of an input. -/
structure Reading (α : Type) where
  result : Except ParseError α
  stop : Input
  steps : List Step

def Rule (α : Type) : Type := Input → Reading α

namespace Rule

/-- Reads nothing. -/
def pure {α : Type} (a : α) : Rule α := fun i => ⟨.ok a, i, []⟩

def bind {α β : Type} (first : Rule α) (next : α → Rule β) : Rule β := fun i =>
  let x := first i
  match x.result with
  | .error e => ⟨.error e, x.stop, x.steps⟩
  | .ok a =>
    let y := next a x.stop
    ⟨y.result, y.stop, x.steps ++ y.steps⟩

instance : Monad Rule where
  pure := Rule.pure
  bind := Rule.bind

/-- The token that comes next, left in place. -/
def look : Rule (Option Token) := fun i => ⟨.ok i.rest.head?, i, []⟩

def skip : Rule Unit := fun i => ⟨.ok (), i.tail, []⟩

def fail {α : Type} (e : ParseError) : Rule α := fun i => ⟨.error e, i, []⟩

/-- Records a step at the place of the next token. -/
def note (step : Nat → Step) : Rule Unit := fun i => ⟨.ok (), i, [step i.offset]⟩

/-! ## Rules on an input -/

@[simp] theorem pure_apply {α : Type} (a : α) (i : Input) :
    (Pure.pure a : Rule α) i = ⟨.ok a, i, []⟩ := rfl

@[simp] theorem look_apply (i : Input) : look i = ⟨.ok i.rest.head?, i, []⟩ := rfl

@[simp] theorem skip_apply (i : Input) : skip i = ⟨.ok (), i.tail, []⟩ := rfl

@[simp] theorem fail_apply {α : Type} (e : ParseError) (i : Input) :
    (fail e : Rule α) i = ⟨.error e, i, []⟩ := rfl

@[simp] theorem note_apply (step : Nat → Step) (i : Input) :
    note step i = ⟨.ok (), i, [step i.offset]⟩ := rfl

theorem bind_of_ok {α β : Type} {first : Rule α} {next : α → Rule β} {i : Input} {a : α}
    (h : (first i).result = .ok a) :
    (first >>= next) i =
      let y := next a (first i).stop
      ⟨y.result, y.stop, (first i).steps ++ y.steps⟩ := by
  simp only [Bind.bind, Rule.bind, h]

theorem bind_of_error {α β : Type} {first : Rule α} {next : α → Rule β} {i : Input}
    {e : ParseError} (h : (first i).result = .error e) :
    (first >>= next) i = ⟨.error e, (first i).stop, (first i).steps⟩ := by
  simp only [Bind.bind, Rule.bind, h]

end Rule

end FactQuery
