import FactQuery.Proofs.CursorConvention
import FactQuery.Proofs.Lookahead

/-!
# Readings without a memory

Whatever was read before on the same tokens, a phrase is read as if the tokens began at the cursor.

**Places do not matter** (`Rule.Uniform`). A rule reads the tokens that are left and counts those
before them. So it reads the same wherever they begin, and stops as many tokens further on.

**Calls** (`Call`). What a caller may do on a cursor is to read a phrase or to look for an operator,
with any call for its right operand. A descent keeps the tokens and the number of open expressions,
also where it fails (`Descent.Keeps`).

**Theorem (`read_memoryless`).** After any calls, failed ones included, a phrase has the result that
it has at the first of the tokens that are left, and the cursor is left in the corresponding place.
-/

namespace FactQuery

/-! ## Shifted inputs -/

/-- The same tokens, with more tokens before them. -/
def Input.shift (i : Input) (n : Nat) : Input := ⟨i.offset + n, i.rest⟩

namespace Rule

variable {α β : Type}

/-- On the same tokens elsewhere, the rule has the same result and stops at the same token. -/
def Uniform (r : Rule α) : Prop :=
  ∀ i n, (r (i.shift n)).result = (r i).result ∧ (r (i.shift n)).stop = (r i).stop.shift n

theorem uniform_pure (a : α) : (Pure.pure a : Rule α).Uniform := fun _ _ => ⟨rfl, rfl⟩

theorem uniform_look : look.Uniform := fun _ _ => ⟨rfl, rfl⟩

theorem uniform_note (step : Nat → Step) : (note step).Uniform := fun _ _ => ⟨rfl, rfl⟩

theorem uniform_fail (e : ParseError) : (fail e : Rule α).Uniform := fun _ _ => ⟨rfl, rfl⟩

theorem uniform_skip : skip.Uniform := by
  intro i n
  refine ⟨rfl, ?_⟩
  obtain ⟨offset, rest⟩ := i
  cases rest with
  | nil => rfl
  | cons t rest => exact congrArg (Input.mk · rest) (Nat.add_right_comm offset n 1)

theorem uniform_literals : literals.Uniform := by
  intro i n
  exact ⟨rfl, congrArg (Input.mk · _) (Nat.add_right_comm ..)⟩

theorem Uniform.bind {first : Rule α} {next : α → Rule β} (h : first.Uniform)
    (hnext : ∀ a, (next a).Uniform) : (first >>= next).Uniform := by
  intro i n
  obtain ⟨hresult, hstop⟩ := h i n
  cases hi : (first i).result with
  | error e =>
    rw [bind_of_error (hresult.trans hi), bind_of_error hi]
    exact ⟨rfl, hstop⟩
  | ok a =>
    rw [bind_of_ok (hresult.trans hi), bind_of_ok hi, hstop]
    exact hnext a (first i).stop n

theorem uniform_literal (place : LiteralPlace) : (literal place).Uniform := by
  refine uniform_look.bind fun found => ?_
  split
  · exact uniform_skip.bind fun _ => uniform_pure _
  · exact uniform_fail _

theorem uniform_keyword (k : Keyword) : (keyword k).Uniform := by
  refine uniform_look.bind fun found => ?_
  split
  · exact uniform_skip
  · exact uniform_fail _

theorem closed_uniform : Closed fun _ r => r.Uniform where
  pure := uniform_pure
  bind := Uniform.bind
  look := uniform_look
  skip := uniform_skip
  note := uniform_note
  literal := uniform_literal
  keyword := uniform_keyword
  literals := uniform_literals
  tooDeep := uniform_fail _

end Rule

/-- **Every phrase is uniform.** -/
theorem Phrase.uniform_rule (phrase : Phrase) (levels : Nat) : (phrase.rule levels).Uniform := by
  have hx := Rule.closed_uniform.expression levels
  cases phrase with
  | complete =>
    refine hx.bind fun e => Rule.uniform_look.bind fun t => ?_
    split
    · exact Rule.uniform_pure e
    · exact Rule.uniform_fail _
  | expression => exact hx
  | clause => exact Rule.closed_uniform.clause hx
  | junction => exact Rule.closed_uniform.junction hx
  | comparison => exact Rule.closed_uniform.comparison hx
  | membership => exact Rule.closed_uniform.membership hx
  | operand => exact Rule.closed_uniform.operand hx
  | literal => exact Rule.closed_uniform.congruence.comparand

namespace Cursor

/-- The cursor at the first of the tokens that are left. -/
def restart (c : Cursor) : Cursor := ofTokens (c.tokens.drop c.index)

theorem input_eq_shift (c : Cursor) : c.input = c.restart.input.shift c.index := by
  simp only [input, restart, ofTokens, Input.shift, List.drop_zero, Nat.zero_add]

theorem index_moveTo_add (c : Cursor) (n : Nat) :
    (c.moveTo (n + c.index)).index = c.index + (c.restart.moveTo n).index := by
  have hle := c.index_le
  show min (n + c.index) c.tokens.length = c.index + min n (c.tokens.drop c.index).length
  rw [List.length_drop]
  omega

/-- **The tokens before the cursor do not matter.** Its phrase is read as on the tokens that are
left, and leaves the cursor in the same place among them. -/
theorem read_eq_restart (c : Cursor) (phrase : Phrase) :
    (c.read phrase).1 = (c.restart.read phrase).1 ∧
      (c.read phrase).2.index = c.index + (c.restart.read phrase).2.index := by
  obtain ⟨hresult, hstop⟩ := phrase.uniform_rule maxNesting c.restart.input c.index
  rw [← c.input_eq_shift] at hresult hstop
  have hoffset : (phrase.rule maxNesting c.input).stop.offset =
      (phrase.rule maxNesting c.restart.input).stop.offset + c.index := congrArg Input.offset hstop
  cases h : (phrase.rule maxNesting c.restart.input).result with
  | error e =>
    simp only [read, hresult, h, hoffset, true_and]
    exact c.index_moveTo_add _
  | ok e =>
    simp only [read, hresult, h, hoffset, true_and]
    cases phrase.stopsAfter with
    | true => exact c.index_moveTo_add _
    | false =>
      -- Some token was passed, so that one back from behind it is not before the cursor.
      obtain ⟨t, ts, hspan⟩ := (phrase.reads maxNesting).advances ⟨h, rfl⟩
      have hpos : 0 < (phrase.rule maxNesting c.restart.input).stop.offset := by
        rw [hspan.2, List.length_cons]
        omega
      simp only [Bool.false_eq_true, if_false]
      rw [Nat.sub_add_comm hpos]
      exact c.index_moveTo_add _

end Cursor

/-! ## Calls -/

namespace Descent

variable {α β : Type}

theorem answer_map (d : Descent α) (f : α → β) (s : State) :
    (answer (do return f (← d)) s) = ((d.answer s).1.map f, (d.answer s).2) := by
  cases h : d s with
  | ok a stop =>
    simp only [answer, bind_of_ok h, h]
    rfl
  | error e stop =>
    simp only [answer, bind_of_error h, h]
    rfl

/-- An optional operator is looked for one token on, and its right operand is read behind it. -/
theorem answer_optional (keywords : List Keyword) (right : Descent Expr) (restore : Bool)
    (left : Expr) (s : State) :
    (optional keywords right restore left).answer s =
      match Rule.operator? keywords s.cursor.next.current? with
      | some op =>
        let x := right.answer ⟨s.cursor.next.next, s.depth,
          s.steps ++ [.operator op.keyword s.cursor.next.index]⟩
        (x.1.map (.binary op left), x.2)
      | none => (.ok left, { s with
          cursor := if restore then s.cursor.next.back else s.cursor.next }) := by
  have hlook : (optional keywords right restore left).answer s =
      answer (match Rule.operator? keywords s.cursor.next.current? with
        | some op => do
          note (.operator op.keyword)
          next
          return Expr.binary op left (← right)
        | none => do
          if restore then back
          return left) { s with cursor := s.cursor.next } := rfl
  rw [hlook]
  cases Rule.operator? keywords s.cursor.next.current? with
  | none => cases restore <;> rfl
  | some op => exact answer_map right (Expr.binary op left) ⟨s.cursor.next.next, s.depth, _⟩

/-- The descent keeps the tokens, and closes the expressions that it opens, whether it succeeds or
fails. -/
def Keeps (d : Descent α) : Prop :=
  ∀ s, (d.answer s).2.depth = s.depth ∧ (d.answer s).2.cursor.tokens = s.cursor.tokens

/-- What follows a rule only moves the cursor and takes steps. -/
theorem Follows.keeps {behind : Bool} {d : Descent α} {r : Nat → Rule α}
    (h : ∀ depth, Follows depth behind d (r depth)) : Keeps d := by
  intro s
  rw [answer, h s.depth s rfl]
  cases hr : (r s.depth s.cursor.input).result with
  | error e =>
    rw [outcome_of_error hr]
    exact ⟨rfl, rfl⟩
  | ok a =>
    rw [outcome_of_ok hr]
    exact ⟨rfl, rfl⟩

theorem Keeps.optional {right : Descent Expr} (hr : Keeps right) (keywords : List Keyword)
    (restore : Bool) (left : Expr) : Keeps (optional keywords right restore left) := by
  intro s
  rw [answer_optional]
  cases Rule.operator? keywords s.cursor.next.current? with
  | none => cases restore <;> exact ⟨rfl, rfl⟩
  | some op => exact hr ⟨s.cursor.next.next, s.depth, _⟩

end Descent

theorem Phrase.keeps_descent (phrase : Phrase) : Descent.Keeps phrase.descent :=
  Descent.Follows.keeps phrase.follows_of_depth

/-- A call on a cursor: for a phrase, or for an operator behind the cursor, whose right operand is
what another call reads. -/
inductive Call where
  | phrase (phrase : Phrase)
  | operator (keywords : List Keyword) (left : Expr) (right : Call) (restore : Bool)

namespace Call

/-- What a call reads, and where it leaves the cursor. -/
def read : Call → Cursor → Except ParseError Expr × Cursor
  | .phrase p, c => c.read p
  | .operator keywords left right restore, c =>
    match Rule.operator? keywords c.next.current? with
    | some op =>
      let (result, stop) := right.read c.next.next
      (result.map (.binary op left), stop)
    | none => (.ok left, if restore then c.next.back else c.next)

def descent : Call → Descent Expr
  | .phrase p => p.descent
  | .operator keywords left right restore => .optional keywords right.descent restore left

theorem keeps_descent (call : Call) : Descent.Keeps call.descent := by
  induction call with
  | phrase p => exact p.keeps_descent
  | operator keywords left right restore ih => exact ih.optional keywords restore left

/-- **With no expression open**, the descent of a call makes what the call reads. -/
theorem answer_of_depth (call : Call) {s : Descent.State} (hs : s.depth = 0) :
    ∃ steps, call.descent.answer s =
      ((call.read s.cursor).1, ⟨(call.read s.cursor).2, 0, steps⟩) := by
  induction call generalizing s with
  | phrase p =>
    obtain ⟨c, depth, steps⟩ := s
    subst hs
    exact ⟨_, p.answer_eq_read c steps⟩
  | operator keywords left right restore ih =>
    rw [descent, Descent.answer_optional, read, hs]
    cases Rule.operator? keywords s.cursor.next.current? with
    | none => exact ⟨s.steps, rfl⟩
    | some op =>
      obtain ⟨steps, hright⟩ := ih
        (s := ⟨s.cursor.next.next, 0, s.steps ++ [.operator op.keyword s.cursor.next.index]⟩) rfl
      simp only [hright]
      exact ⟨steps, rfl⟩

end Call

namespace Descent.State

def call (s : State) (call : Call) : State := (call.descent.answer s).2

/-- **Calls keep what they find**, but for the place of the cursor and the steps. -/
theorem foldl_call (s : State) (calls : List Call) :
    (calls.foldl call s).depth = s.depth ∧
      (calls.foldl call s).cursor.tokens = s.cursor.tokens := by
  induction calls generalizing s with
  | nil => exact ⟨rfl, rfl⟩
  | cons c calls ih =>
    obtain ⟨hdepth, htokens⟩ := c.keeps_descent s
    obtain ⟨hdepth', htokens'⟩ := ih (s.call c)
    exact ⟨hdepth'.trans hdepth, htokens'.trans htokens⟩

theorem cursor_foldl_call {s : State} (hs : s.depth = 0) (calls : List Call) :
    (calls.foldl call s).cursor = calls.foldl (fun c call => (call.read c).2) s.cursor := by
  induction calls generalizing s with
  | nil => rfl
  | cons c calls ih =>
    obtain ⟨steps, hanswer⟩ := c.answer_of_depth hs
    have hcall : s.call c = ⟨(c.read s.cursor).2, 0, steps⟩ := congrArg Prod.snd hanswer
    rw [List.foldl_cons, List.foldl_cons, hcall]
    exact ih rfl

end Descent.State

/-- **Readings have no memory.** Let a phrase be read after any calls on some tokens. The result is
the one on the tokens from the cursor on, with no call before, and the cursor passes as many tokens
as there. The tokens and the number of open expressions are what they were, as after any call. -/
theorem read_memoryless (tokens : List Token) (calls : List Call) (phrase : Phrase) :
    let s := calls.foldl Descent.State.call (.ofTokens tokens)
    let x := phrase.descent.answer s
    let fresh := phrase.descent.answer (.ofTokens (tokens.drop s.cursor.index))
    (x.1 = fresh.1 ∧ x.2.cursor.index = s.cursor.index + fresh.2.cursor.index) ∧
      s.cursor = calls.foldl (fun c call => (call.read c).2) (.ofTokens tokens) ∧
      s.cursor.read phrase = (x.1, x.2.cursor) ∧
      (s.depth = 0 ∧ s.cursor.tokens = tokens) ∧
      ∀ call, (s.call call).depth = s.depth ∧ (s.call call).cursor.tokens = s.cursor.tokens := by
  intro s x fresh
  obtain ⟨hdepth, htokens⟩ : s.depth = 0 ∧ s.cursor.tokens = tokens :=
    Descent.State.foldl_call (.ofTokens tokens) calls
  -- No call leaves an expression open, so all the levels are there again.
  obtain ⟨steps, hx⟩ : ∃ steps, x =
      ((s.cursor.read phrase).1, ⟨(s.cursor.read phrase).2, 0, steps⟩) :=
    (Call.phrase phrase).answer_of_depth hdepth
  have hrestart : s.cursor.restart = .ofTokens (tokens.drop s.cursor.index) := by
    rw [Cursor.restart, htokens]
  obtain ⟨freshSteps, hfresh⟩ : ∃ steps, fresh =
      ((s.cursor.restart.read phrase).1, ⟨(s.cursor.restart.read phrase).2, 0, steps⟩) := by
    rw [hrestart]
    exact (Call.phrase phrase).answer_of_depth rfl
  have hread := s.cursor.read_eq_restart phrase
  rw [hx, hfresh]
  exact ⟨hread, Descent.State.cursor_foldl_call rfl calls, rfl, ⟨hdepth, htokens⟩,
    fun call => call.keeps_descent s⟩

end FactQuery
