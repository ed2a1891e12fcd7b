import FactQuery.Grammar.Cursor
import FactQuery.Proofs.Extent

/-!
# Descent on a cursor

`Cursor.read` takes a reading and then jumps to the place that the phrase is to be left at. Here the
same phrases are read by recursive descent on a cursor that only moves by one token, on or back: an
operator is looked for one token on, and one move back restores the cursor if it is not there. A
counter of the open expressions stands for the levels that are left.

**Theorem (`Phrase.descent_eq_read`).** Both give the same result, take the same steps and end at
the same place, and the counter is what it was.

**Agreement (`Descent.Follows`).** A descent follows a rule if it does what the rule does on the
tokens from the cursor on. A rule stops behind its last token; a descent is left there, or on the
last token. From there one move on gets it behind (`Follows.bind_next`). This needs that the rule
has passed a token (`Rule.Advances`): a cursor at the first token cannot be left one token back.
-/

namespace FactQuery

/-- Where a descent stands, how many expressions are open around it, and the steps it took. -/
structure Descent.State where
  cursor : Cursor
  depth : Nat
  steps : List Step

/-- A rule that moves a cursor, and leaves it where it is when it fails. -/
abbrev Descent (α : Type) := EStateM ParseError Descent.State α

namespace Descent

/-! ## The rules -/

def next : Descent Unit := modify fun s => { s with cursor := s.cursor.next }

def back : Descent Unit := modify fun s => { s with cursor := s.cursor.back }

def current : Descent (Option Token) := do return (← get).cursor.current?

/-- Records a step at the cursor. -/
def note (step : Nat → Step) : Descent Unit :=
  modify fun s => { s with steps := s.steps ++ [step s.cursor.index] }

/-- The literal at the cursor. -/
def literal (place : LiteralPlace) : Descent Literal := do
  let found ← current
  match found.bind Token.literal? with
  | some l => return l
  | none => throw (.expectedLiteral place found)

/-- The keyword at the cursor has to be this one. -/
def keyword (k : Keyword) : Descent Unit := do
  let found ← current
  if found = some (.keyword k) then return () else throw (.expectedKeyword k found)

/-- The literals from a cursor on, and the cursor behind them. -/
def literalsAt (c : Cursor) : List Literal × Cursor :=
  match _h : c.current? with
  | some (.literal l) =>
    let (others, stop) := literalsAt c.next
    (l :: others, stop)
  | _ => ([], c)
termination_by c.tokens.length - c.index
decreasing_by
  have hlt : c.index < c.tokens.length := (List.getElem?_eq_some_iff.1 _h).1
  simp only [Cursor.next, Cursor.moveTo]
  omega

/-- All the literals that follow. The cursor is left behind them. -/
def literals : Descent (List Literal) := fun s =>
  .ok (literalsAt s.cursor).1 { s with cursor := (literalsAt s.cursor).2 }

/-- The literals of a list, from the first one to the last one. -/
def items : Descent Items := do
  let first ← literal .list
  next
  let others ← literals
  back
  return ⟨first, others⟩

/-- A list, from its opening bracket to its closing one. -/
def list : Descent Expr := do
  note .list
  next
  let items ← items
  next
  keyword .closeList
  return .list items

/-- A group, from its opening parenthesis to its closing one. -/
def group (expression : Descent Expr) : Descent Expr := do
  note .group
  next
  let inner ← expression
  keyword .closeGroup
  return .group inner

/-- An operand, from its first token to its last one. -/
def operand (expression : Descent Expr) : Descent Expr := do
  match ← current with
  | some (.keyword .openList) => list
  | some (.keyword .openGroup) => group expression
  | _ => return .literal (← literal .operand)

def comparand : Descent Expr := do
  return .literal (← literal .comparison)

/-- Looks behind the cursor for an operator among the given keywords. If there is one, its right
operand is read. If there is none, the cursor is moved back only where it has to be restored. -/
def optional (keywords : List Keyword) (right : Descent Expr) (restore : Bool) (left : Expr) :
    Descent Expr := do
  next
  match Rule.operator? keywords (← current) with
  | some op =>
    note (.operator op.keyword)
    next
    return .binary op left (← right)
  | none =>
    if restore then back
    return left

/-- An expression that leaves the cursor on its last token. -/
def nested (expression : Descent Expr) : Descent Expr := do
  let e ← expression
  back
  return e

def membership (expression : Descent Expr) : Descent Expr := do
  note (.enter .membership)
  optional [.membership] (operand expression) true (← operand expression)

def comparison (expression : Descent Expr) : Descent Expr := do
  note (.enter .comparison)
  optional Rule.comparators comparand true (← membership expression)

def junction (expression : Descent Expr) : Descent Expr := do
  note (.enter .junction)
  optional Rule.junctions (nested expression) true (← comparison expression)

def clause (expression : Descent Expr) : Descent Expr := do
  note (.enter .clause)
  optional [.filter] expression false (← junction expression)

/-- Counts one more open expression as long as a rule runs, whether it fails or not. -/
def opened {α : Type} (r : Descent α) : Descent α := fun s =>
  match r { s with depth := s.depth + 1 } with
  | .ok a s => .ok a { s with depth := s.depth - 1 }
  | .error e s => .error e { s with depth := s.depth - 1 }

/-- An expression. The number bounds the expressions that may be opened within one another before
the limit is looked at; one more than the limit is always enough. -/
def expression : Nat → Descent Expr
  | 0 => throw .tooDeep
  | bound + 1 => do
    note (.enter .expression)
    if maxNesting ≤ (← get).depth then throw .tooDeep
    else opened (clause (expression bound))

def complete (expression : Descent Expr) : Descent Expr := do
  let e ← expression
  match ← current with
  | none => return e
  | some t => throw (.unexpectedToken t)

end Descent

/-- The descent for a phrase. -/
def Phrase.descent (phrase : Phrase) : Descent Expr :=
  let expression := Descent.expression (maxNesting + 1)
  match phrase with
  | .complete => .complete expression
  | .expression => expression
  | .clause => .clause expression
  | .junction => .junction expression
  | .comparison => .comparison expression
  | .membership => .membership expression
  | .operand => .operand expression
  | .literal => .comparand

/-! ## Cursors and inputs -/

/-- What is left of the tokens from some index on. -/
def Input.IsOf (i : Input) (tokens : List Token) : Prop :=
  i.offset ≤ tokens.length ∧ i.rest = tokens.drop i.offset

theorem Input.IsOf.spans {i j : Input} {tokens ts : List Token} (h : i.IsOf tokens)
    (hspan : i.Spans ts j) : j.IsOf tokens := by
  obtain ⟨hle, hrest⟩ := h
  obtain ⟨hr, ho⟩ := hspan
  have hlength := congrArg List.length (hrest.symm.trans hr)
  rw [List.length_drop, List.length_append] at hlength
  refine ⟨by omega, ?_⟩
  rw [ho, ← List.drop_drop, ← hrest, hr, List.drop_left]

namespace Cursor

theorem isOf_input (c : Cursor) : c.input.IsOf c.tokens := ⟨c.index_le, rfl⟩

theorem head?_input (c : Cursor) : c.input.rest.head? = c.current? := List.head?_drop

theorem input_next (c : Cursor) : c.next.input = c.input.tail := by
  rcases Nat.lt_or_eq_of_le c.index_le with hlt | heq
  · have hindex : min (c.index + 1) c.tokens.length = c.index + 1 := Nat.min_eq_left hlt
    simp only [input, next, moveTo, hindex, Input.tail, List.drop_eq_getElem_cons hlt]
  · have hindex : min (c.index + 1) c.tokens.length = c.index := by omega
    have hrest : c.tokens.drop c.index = [] := List.drop_eq_nil_of_le (Nat.le_of_eq heq.symm)
    simp only [input, next, moveTo, hindex, Input.tail, hrest]

theorem moveTo_index (c : Cursor) : c.moveTo c.index = c := by
  simp only [moveTo, Nat.min_eq_left c.index_le]

theorem input_moveTo {c : Cursor} {i : Input} (h : i.IsOf c.tokens) :
    (c.moveTo i.offset).input = i := by
  obtain ⟨hle, hrest⟩ := h
  simp only [input, moveTo, Nat.min_eq_left hle, ← hrest]

theorem next_moveTo_pred {c : Cursor} {n : Nat} (hpos : 0 < n) (h : n ≤ c.tokens.length) :
    (c.moveTo (n - 1)).next = c.moveTo n := by
  have hindex : min (n - 1) c.tokens.length + 1 = n := by omega
  simp only [next, moveTo, hindex]

end Cursor

/-! ## Rules that pass tokens -/

namespace Rule

variable {α β : Type}

/-- From one input of a token sequence, the rule gets to another one. -/
def Passes (r : Rule α) : Prop :=
  ∀ ⦃i : Input⦄ ⦃a : α⦄ ⦃j : Input⦄, r.Yields i a j → ∃ ts, i.Spans ts j

/-- The rule passes one token at least. -/
def Advances (r : Rule α) : Prop :=
  ∀ ⦃i : Input⦄ ⦃a : α⦄ ⦃j : Input⦄, r.Yields i a j → ∃ t ts, i.Spans (t :: ts) j

theorem Reads.advances {r : Rule Expr} {X : Extent} (h : r.Reads X) : r.Advances := by
  intro i e j he
  obtain ⟨hspan, -⟩ := (h i e j).1 he
  obtain ⟨t, ts, hs⟩ := List.exists_cons_of_ne_nil e.spell_ne_nil
  exact ⟨t, ts, hs ▸ hspan⟩

theorem Advances.passes {r : Rule α} (h : r.Advances) : r.Passes := by
  intro i a j ha
  obtain ⟨t, ts, hspan⟩ := h ha
  exact ⟨t :: ts, hspan⟩

theorem advances_literal {place : LiteralPlace} : (literal place).Advances :=
  fun _ _ _ h => ⟨_, [], yields_literal.1 h⟩

theorem passes_literals : literals.Passes := fun _ _ _ h => ⟨_, (yields_literals.1 h).1⟩

/-! ## Sequences of rules -/

theorem bind_pure (r : Rule α) : (r >>= Pure.pure) = r := by
  funext i
  cases h : (r i).result with
  | error e => rw [bind_of_error h, ← h]
  | ok a => simp only [bind_of_ok h, pure_apply, List.append_nil, ← h]

theorem bind_assoc {γ : Type} (r : Rule α) (f : α → Rule β) (g : β → Rule γ) :
    (r >>= f >>= g) = r >>= fun a => f a >>= g := by
  funext i
  cases h : (r i).result with
  | error e =>
    have hf : ((r >>= f) i).result = .error e := by rw [bind_of_error h]
    rw [bind_of_error hf, bind_of_error h, bind_of_error h]
  | ok a =>
    cases ha : (f a (r i).stop).result with
    | error e =>
      have hf : ((r >>= f) i).result = .error e := by rw [bind_of_ok h, ha]
      rw [bind_of_error hf, bind_of_ok h, bind_of_ok h, bind_of_error ha]
    | ok b =>
      have hf : ((r >>= f) i).result = .ok b := by rw [bind_of_ok h, ha]
      rw [bind_of_ok hf, bind_of_ok h, bind_of_ok h, bind_of_ok ha]
      simp only [List.append_assoc]

theorem pure_bind (a : α) (f : α → Rule β) : (Pure.pure a >>= f) = f a := rfl

def items : Rule Items := do
  let first ← literal .list
  let others ← literals
  return ⟨first, others⟩

theorem list_eq : list = (do
    note .list
    skip
    let items ← items
    keyword .closeList
    return .list items) := by
  simp only [list, items, bind_assoc, pure_bind]

theorem advances_items : items.Advances := by
  intro i _ j h
  simp only [items, yields_bind, yields_literal, yields_literals, yields_pure] at h
  obtain ⟨first, k, hfirst, others, _, ⟨hothers, -⟩, -, rfl⟩ := h
  exact ⟨_, _, Input.spans_append.2 ⟨k, hfirst, hothers⟩⟩

end Rule

namespace Descent

/-! ## Agreement -/

/-- The place at some index, after more steps. -/
def State.move (s : State) (index : Nat) (steps : List Step) : State :=
  { s with cursor := s.cursor.moveTo index, steps := s.steps ++ steps }

section
variable {α β : Type} {depth : Nat} {behind : Bool}

/-- What a descent makes of a reading. An error leaves the cursor where the reading stopped, and so
does a result if the cursor is to be left behind its last token. -/
def outcome (behind : Bool) (x : Reading α) (s : State) : EStateM.Result ParseError State α :=
  match x.result with
  | .ok a => .ok a (s.move (if behind then x.stop.offset else x.stop.offset - 1) x.steps)
  | .error e => .error e (s.move x.stop.offset x.steps)

/-- Inside so many open expressions, the descent does what the rule does, and leaves the cursor
behind the last token or on it. -/
def Follows (depth : Nat) (behind : Bool) (d : Descent α) (r : Rule α) : Prop :=
  ∀ s, s.depth = depth → d s = outcome behind (r s.cursor.input) s

theorem outcome_move (x : Reading α) (s : State) (index : Nat) (steps : List Step) :
    outcome behind x (s.move index steps) =
      outcome behind ⟨x.result, x.stop, steps ++ x.steps⟩ s := by
  obtain ⟨result, stop, more⟩ := x
  cases result <;> simp only [outcome, State.move, Cursor.moveTo, List.append_assoc]

theorem move_index (s : State) : s.move s.cursor.index [] = s := by
  simp only [State.move, Cursor.moveTo_index, List.append_nil]

theorem bind_of_ok {x : Descent α} {f : α → Descent β} {s s' : State} {a : α}
    (h : x s = .ok a s') : (x >>= f) s = f a s' := by
  simp only [bind, EStateM.bind, h]

theorem bind_of_error {x : Descent α} {f : α → Descent β} {s s' : State} {e : ParseError}
    (h : x s = .error e s') : (x >>= f) s = .error e s' := by
  simp only [bind, EStateM.bind, h]

theorem outcome_of_error {x : Reading α} {e : ParseError} (h : x.result = .error e) (s : State) :
    outcome behind x s = .error e (s.move x.stop.offset x.steps) := by
  simp only [outcome, h]

theorem outcome_of_ok {x : Reading α} {a : α} (h : x.result = .ok a) (s : State) :
    outcome behind x s =
      .ok a (s.move (if behind then x.stop.offset else x.stop.offset - 1) x.steps) := by
  simp only [outcome, h]

namespace Follows

variable {x : Descent α} {r : Rule α} {f : α → Descent β} {g : α → Rule β} {d : Descent α}

theorem at_move (h : Follows depth behind d r) {s : State} {n : Nat} {i : Input}
    (hs : s.depth = depth) (hi : (s.cursor.moveTo n).input = i) (steps : List Step) :
    d (s.move n steps) = outcome behind ⟨(r i).result, (r i).stop, steps ++ (r i).steps⟩ s :=
  (h (s.move n steps) hs).trans (hi ▸ outcome_move _ s n steps)

theorem stops (hx : Follows depth behind x r) {s : State} {e : ParseError} (hs : s.depth = depth)
    (he : (r s.cursor.input).result = .error e) (after : Bool) :
    (x >>= f) s = outcome after ((r >>= g) s.cursor.input) s := by
  have hxs := hx s hs
  rw [outcome_of_error he] at hxs
  rw [bind_of_error hxs, Rule.bind_of_error he, outcome]

theorem goes_on {s : State} {a : α} {ts : List Token} (hf : Follows depth behind (f a) (g a))
    (hs : s.depth = depth) (ha : (r s.cursor.input).result = .ok a)
    (hspan : s.cursor.input.Spans ts (r s.cursor.input).stop) :
    f a (s.move (r s.cursor.input).stop.offset (r s.cursor.input).steps) =
      outcome behind ((r >>= g) s.cursor.input) s := by
  rw [Rule.bind_of_ok ha]
  exact hf.at_move hs (Cursor.input_moveTo (s.cursor.isOf_input.spans hspan)) _

theorem bind (hx : Follows depth true x r) (hr : r.Passes)
    (hf : ∀ a, Follows depth behind (f a) (g a)) : Follows depth behind (x >>= f) (r >>= g) := by
  intro s hs
  cases hres : (r s.cursor.input).result with
  | error e => exact hx.stops hs hres behind
  | ok a =>
    have hxs := hx s hs
    rw [outcome_of_ok hres, if_pos rfl] at hxs
    obtain ⟨ts, hspan⟩ := hr ⟨hres, rfl⟩
    rw [bind_of_ok hxs]
    exact goes_on (hf a) hs hres hspan

/-- A move that gets behind the last token makes up for a cursor that was left on it. -/
theorem bind_next (hx : Follows depth false x r) (hr : r.Advances)
    (hf : ∀ a, Follows depth behind (f a) (g a)) :
    Follows depth behind (do let a ← x; next; f a) (r >>= g) := by
  intro s hs
  cases hres : (r s.cursor.input).result with
  | error e => exact hx.stops hs hres behind
  | ok a =>
    have hxs := hx s hs
    rw [outcome_of_ok hres, if_neg Bool.false_ne_true] at hxs
    obtain ⟨t, ts, hspan⟩ := hr ⟨hres, rfl⟩
    -- Some token was passed, so that the cursor is left one token back and not at the start.
    have hpos : 0 < (r s.cursor.input).stop.offset := by
      rw [hspan.2, List.length_cons]
      omega
    have hnext := Cursor.next_moveTo_pred hpos (s.cursor.isOf_input.spans hspan).1
    rw [bind_of_ok hxs]
    refine Eq.trans ?_ (goes_on (hf a) hs hres hspan)
    show f a _ = f a _
    simp only [State.move, hnext]

theorem pure (a : α) : Follows depth true (Pure.pure a) (Pure.pure a) :=
  fun s _ => congrArg (EStateM.Result.ok a) (move_index s).symm

theorem back_pure (a : α) : Follows depth false (do back; Pure.pure a) (Pure.pure a) := by
  intro s _
  have hmove : s.move (s.cursor.index - 1) [] = { s with cursor := s.cursor.back } := by
    simp only [State.move, Cursor.back, List.append_nil]
  exact congrArg (EStateM.Result.ok a) hmove.symm

theorem fail (e : ParseError) :
    Follows depth behind (throw e : Descent α) (Rule.fail e) :=
  fun s _ => congrArg (EStateM.Result.error e) (move_index s).symm

theorem map (hx : Follows depth behind x r) (h : α → β) :
    Follows depth behind (do return h (← x)) (do return h (← r)) := by
  intro s hs
  cases hres : (r s.cursor.input).result with
  | error e => exact hx.stops hs hres behind
  | ok a =>
    have hxs := hx s hs
    rw [outcome_of_ok hres] at hxs
    rw [bind_of_ok hxs, Rule.bind_of_ok hres]
    simp only [Rule.pure_apply, List.append_nil]
    rfl

theorem of_look {f : Option Token → Descent α} {g : Option Token → Rule α}
    (h : ∀ s, s.depth = depth →
      f s.cursor.current? s = outcome behind (g s.cursor.current? s.cursor.input) s) :
    Follows depth behind (current >>= f) (Rule.look >>= g) := by
  intro s hs
  show f s.cursor.current? s = outcome behind (g s.cursor.input.rest.head? s.cursor.input) s
  rw [Cursor.head?_input]
  exact h s hs

theorem look {f : Option Token → Descent α} {g : Option Token → Rule α}
    (h : ∀ found, Follows depth behind (f found) (g found)) :
    Follows depth behind (current >>= f) (Rule.look >>= g) :=
  of_look fun s hs => h _ s hs

theorem note (hd : Follows depth behind d r) (step : Nat → Step) :
    Follows depth behind (do note step; d) (do Rule.note step; r) := by
  intro s hs
  have hmove : { s with steps := s.steps ++ [step s.cursor.index] } =
      s.move s.cursor.index [step s.cursor.index] := by
    simp only [State.move, Cursor.moveTo_index]
  have hinput : (s.cursor.moveTo s.cursor.index).input = s.cursor.input := by
    rw [Cursor.moveTo_index]
  exact (congrArg d hmove).trans (hd.at_move hs hinput _)

theorem next (hd : Follows depth behind d r) :
    Follows depth behind (do next; d) (do Rule.skip; r) := by
  intro s hs
  have hmove : { s with cursor := s.cursor.next } = s.move (s.cursor.index + 1) [] := by
    simp only [State.move, Cursor.next, List.append_nil]
  exact (congrArg d hmove).trans (hd.at_move hs s.cursor.input_next _)

/-! ### Literals and lists -/

/-- A token is read without a move if the cursor is to be left on it. -/
theorem outcome_tail {s : State} {t : Token} (h : s.cursor.current? = some t) (a : α) :
    outcome false ⟨.ok a, s.cursor.input.tail, []⟩ s = .ok a s := by
  obtain ⟨rest, hrest⟩ := List.head?_eq_some_iff.1 (s.cursor.head?_input.trans h)
  have htail : s.cursor.input.tail.offset - 1 = s.cursor.index := by
    simp only [Input.tail, hrest]
    exact Nat.add_sub_cancel ..
  rw [outcome_of_ok rfl, if_neg Bool.false_ne_true, htail, move_index]

theorem literal (place : LiteralPlace) :
    Follows depth false (literal place) (Rule.literal place) := by
  refine of_look fun s hs => ?_
  rcases ht : s.cursor.current? with _ | (k | l)
  · exact fail _ s hs
  · exact fail _ s hs
  · exact (outcome_tail ht l).symm

theorem keyword (k : Keyword) : Follows depth false (keyword k) (Rule.keyword k) := by
  refine of_look fun s hs => ?_
  by_cases ht : s.cursor.current? = some (.keyword k)
  · rw [if_pos ht, if_pos ht]
    exact (outcome_tail ht ()).symm
  · rw [if_neg ht, if_neg ht]
    exact fail _ s hs

end Follows

theorem literalsAt_eq (c : Cursor) :
    literalsAt c = (Rule.leadingLiterals c.input.rest,
      c.moveTo (c.index + (Rule.leadingLiterals c.input.rest).length)) := by
  fun_induction literalsAt c with
  | case1 c l h others stop hstop ih =>
    have hlt : c.index < c.tokens.length := (List.getElem?_eq_some_iff.1 h).1
    have hindex : c.next.index = c.index + 1 := Nat.min_eq_left hlt
    obtain ⟨rest, hrest⟩ := List.head?_eq_some_iff.1 (c.head?_input.trans h)
    have htail : c.next.input.rest = rest := by
      simp only [Cursor.input_next, Input.tail, hrest]
    rw [hstop, htail, hindex, Prod.mk.injEq] at ih
    obtain ⟨rfl, rfl⟩ := ih
    have hlength : c.index + ((Rule.leadingLiterals rest).length + 1) =
        c.index + 1 + (Rule.leadingLiterals rest).length := by omega
    rw [hrest, Rule.leadingLiterals, List.length_cons, hlength]
    rfl
  | case2 c h =>
    have hnil : Rule.leadingLiterals c.input.rest = [] := by
      refine Rule.leadingLiterals_eq_iff.2 ⟨c.input.rest, rfl, ?_⟩
      rw [c.head?_input]
      rcases ht : c.current? with _ | (k | l)
      · rfl
      · rfl
      · exact (h l ht).elim
    rw [hnil, List.length_nil, Nat.add_zero, Cursor.moveTo_index]

namespace Follows

theorem literals : Follows depth true literals Rule.literals := by
  intro s _
  simp only [Descent.literals, literalsAt_eq, outcome, Rule.literals, State.move, List.append_nil,
    if_true]
  rfl

theorem items : Follows depth false items Rule.items :=
  (literal .list).bind_next Rule.advances_literal fun first =>
    literals.bind Rule.passes_literals fun others => back_pure (Items.mk first others)

theorem list : Follows depth false list Rule.list := by
  rw [Rule.list_eq]
  refine note (next ?_) .list
  refine items.bind_next Rule.advances_items fun items => ?_
  exact (keyword .closeList).map fun _ => Expr.list items

variable {expression : Descent Expr} {r : Rule Expr}

theorem group (hx : Follows depth true expression r) (hr : r.Passes) :
    Follows depth false (group expression) (Rule.group r) := by
  refine note (next ?_) .group
  refine hx.bind hr fun inner => ?_
  exact (keyword .closeGroup).map fun _ => Expr.group inner

theorem operand (hx : Follows depth true expression r) (hr : r.Passes) :
    Follows depth false (operand expression) (Rule.operand r) := by
  have hliteral : Follows depth false (do return Expr.literal (← Descent.literal .operand))
      (do return Expr.literal (← Rule.literal .operand)) := (literal .operand).map Expr.literal
  refine look fun found => ?_
  rcases found with _ | (k | l)
  · exact hliteral
  · cases k with
    | openList => exact list
    | openGroup => exact group hx hr
    | _ => exact hliteral
  · exact hliteral

theorem comparand : Follows depth false comparand Rule.comparand :=
  (literal .comparison).map Expr.literal

theorem optional {keywords : List Keyword} {left right : Descent Expr} {l r : Rule Expr}
    (hleft : Follows depth false left l) (hl : l.Advances) (hright : Follows depth behind right r) :
    Follows depth behind (do optional keywords right (!behind) (← left))
      (do Rule.optional keywords r (← l)) := by
  refine hleft.bind_next hl fun e => look fun found => ?_
  cases Rule.operator? keywords found with
  | some op => exact note (next (hright.map (Expr.binary op e))) _
  | none =>
    cases behind with
    | true => exact pure e
    | false => exact back_pure e

theorem nested (hx : Follows depth true expression r) (hr : r.Passes) :
    Follows depth false (nested expression) r := by
  have h := hx.bind hr back_pure
  rwa [Rule.bind_pure] at h

theorem membership (hx : Follows depth true expression r) {E : Extent} (hr : r.Reads E) :
    Follows depth false (membership expression) (Rule.membership r) := by
  have hoperand := operand hx hr.advances.passes
  exact note (hoperand.optional (Rule.reads_operand hr).advances hoperand) _

theorem comparison (hx : Follows depth true expression r) {E : Extent} (hr : r.Reads E) :
    Follows depth false (comparison expression) (Rule.comparison r) :=
  note ((membership hx hr).optional (Rule.reads_membership hr).advances comparand) _

theorem junction (hx : Follows depth true expression r) {E : Extent} (hr : r.Reads E) :
    Follows depth false (junction expression) (Rule.junction r) := by
  have hnested := nested hx hr.advances.passes
  exact note ((comparison hx hr).optional (Rule.reads_comparison hr).advances hnested) _

theorem clause (hx : Follows depth true expression r) {E : Extent} (hr : r.Reads E) :
    Follows depth true (clause expression) (Rule.clause r) :=
  note ((junction hx hr).optional (Rule.reads_junction hr).advances hx) _

theorem opened (hd : Follows (depth + 1) behind d x) : Follows depth behind (opened d) x := by
  intro s hs
  have h := hd { s with depth := s.depth + 1 } (congrArg (· + 1) hs)
  simp only [Descent.opened, h]
  cases hres : (x s.cursor.input).result <;> simp only [outcome, hres] <;> rfl

theorem complete {levels : Nat} (hx : Follows depth true expression (Rule.expression levels)) :
    Follows depth true (complete expression) (Rule.complete levels) := by
  refine hx.bind (Rule.reads_expression levels).advances.passes fun e => look fun found => ?_
  cases found with
  | none => exact pure e
  | some t => exact fail (.unexpectedToken t)

end Follows

end

/-- **Expressions.** A bound beyond the levels that are left is never met. -/
theorem follows_expression {bound depth : Nat} (h : maxNesting - depth < bound) :
    Follows depth true (expression bound) (Rule.expression (maxNesting - depth)) := by
  induction bound generalizing depth with
  | zero => exact absurd h (Nat.not_lt_zero _)
  | succ bound ih =>
    rcases Nat.lt_or_ge depth maxNesting with hlt | hge
    · -- One level is opened, and the bound shrinks with the levels.
      have hlevels : maxNesting - depth = maxNesting - (depth + 1) + 1 := by omega
      have hinner : Follows (depth + 1) true (expression bound)
          (Rule.expression (maxNesting - (depth + 1))) := ih (by omega)
      have hclause := (hinner.clause (Rule.reads_expression _)).opened
      rw [hlevels]
      refine Follows.note (fun s hs => ?_) _
      show (if maxNesting ≤ s.depth then throw .tooDeep
        else Descent.opened (Descent.clause (expression bound)) : Descent Expr) s = _
      rw [if_neg (by omega)]
      exact hclause s hs
    · have hlevels : maxNesting - depth = 0 := by omega
      rw [hlevels]
      refine Follows.note (fun s hs => ?_) _
      show (if maxNesting ≤ s.depth then throw .tooDeep
        else Descent.opened (Descent.clause (expression bound)) : Descent Expr) s = _
      rw [if_pos (by omega)]
      exact Follows.fail _ s hs

end Descent

/-- **The descent follows the grammar.** Inside any number of open expressions, it makes of the
tokens from the cursor on what the rule of the phrase makes of them with the levels that are
left. -/
theorem Phrase.follows_of_depth (phrase : Phrase) (depth : Nat) :
    Descent.Follows depth phrase.stopsAfter phrase.descent (phrase.rule (maxNesting - depth)) := by
  have hx : Descent.Follows depth true (.expression (maxNesting + 1))
      (.expression (maxNesting - depth)) :=
    Descent.follows_expression (Nat.lt_succ_of_le (Nat.sub_le ..))
  have hr := Rule.reads_expression (maxNesting - depth)
  cases phrase with
  | complete => exact hx.complete
  | expression => exact hx
  | clause => exact hx.clause hr
  | junction => exact hx.junction hr
  | comparison => exact hx.comparison hr
  | membership => exact hx.membership hr
  | operand => exact hx.operand hr.advances.passes
  | literal => exact .comparand

theorem Phrase.follows (phrase : Phrase) :
    Descent.Follows 0 phrase.stopsAfter phrase.descent (phrase.rule maxNesting) :=
  phrase.follows_of_depth 0

/-- **Moves and jumps agree.** Where no expression is open, a descent by single moves gets to the
result and to the place that `Cursor.read` jumps to, and leaves no expression open. -/
theorem Phrase.descent_eq_read (phrase : Phrase) (c : Cursor) (steps : List Step) :
    phrase.descent ⟨c, 0, steps⟩ =
      let after := steps ++ (phrase.rule maxNesting c.input).steps
      match c.read phrase with
      | (.ok e, stop) => .ok e ⟨stop, 0, after⟩
      | (.error e, stop) => .error e ⟨stop, 0, after⟩ := by
  rw [phrase.follows _ rfl]
  cases hres : (phrase.rule maxNesting c.input).result with
  | ok e => simp only [Cursor.read, hres, Descent.outcome_of_ok hres]; rfl
  | error e => simp only [Cursor.read, hres, Descent.outcome_of_error hres]; rfl

/-! ## Answers -/

/-- At the first token, with no expression open and no step taken. -/
def Descent.State.ofTokens (tokens : List Token) : State := ⟨.ofTokens tokens, 0, []⟩

/-- The result of a descent, and where it leaves the state. -/
def Descent.answer {α : Type} (d : Descent α) (s : State) : Except ParseError α × State :=
  match d s with
  | .ok a stop => (.ok a, stop)
  | .error e stop => (.error e, stop)

/-- An error inside a group closes what was opened on the way to it, like a result. -/
theorem Phrase.answer_eq_read (phrase : Phrase) (c : Cursor) (steps : List Step) :
    phrase.descent.answer ⟨c, 0, steps⟩ = ((c.read phrase).1,
      ⟨(c.read phrase).2, 0, steps ++ (phrase.rule maxNesting c.input).steps⟩) := by
  rw [Descent.answer, phrase.descent_eq_read]
  rcases c.read phrase with ⟨_ | _, stop⟩ <;> rfl

end FactQuery
