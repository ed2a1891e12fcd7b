import FactQuery.Log
import FactQuery.Proofs.NestingLimit

/-!
# The trail of a reading

A reading passes every token once, from left to right, and its steps say so.

**What a token leaves behind** (`Token.steps`). An operator and an opening bracket leave a mark. If
a level is opened behind them, the mark is followed by the steps that begin an expression. No other
token leaves anything. The *trail* of some tokens is what they leave, one after another.

**What a rule records** (`Rule.Trails`). The steps of a rule are the ones that enter its phrases,
and then the trail of the tokens that it passes. Tokens that are only looked at leave no trail,
however many rules look at them. The one exception is an expression that is found too deep: it is
entered, and the phrases inside it are not (`Reading.missing`).

**Theorem (`reading_trail`).** Whatever comes of a reading, its steps are the beginning of an
expression and the trail of the tokens before the cursor. So they mark each operator and each
opening bracket there once and in order, and they are at most six for each token and five at the
beginning.
-/

namespace FactQuery

/-! ## What tokens leave behind -/

/-- An operator or an opening bracket. -/
def Token.isMarked : Token → Bool
  | .keyword .openList | .keyword .openGroup => true
  | .keyword k => (BinaryOp.ofKeyword? k).isSome
  | .literal _ => false

/-- The index of the token that a step marks. To enter a phrase marks none. -/
def Step.marked? : Step → Option Nat
  | .enter _ _ => none
  | .list n | .group n | .operator _ n => some n

/-- The step that marks a token at some index. -/
def Token.mark (n : Nat) : Token → List Step
  | .keyword .openList => [.list n]
  | .keyword .openGroup => [.group n]
  | .keyword k => if (BinaryOp.ofKeyword? k).isSome then [.operator k n] else []
  | .literal _ => []

/-- The steps that begin an expression at some index. -/
def beginning (n : Nat) : List Step :=
  [.enter .expression n, .enter .clause n, .enter .junction n, .enter .comparison n,
    .enter .membership n]

/-- What a token at some index leaves behind. -/
def Token.steps (n : Nat) (t : Token) : List Step :=
  t.mark n ++ if t.opensLevel then beginning (n + 1) else []

/-- What tokens leave behind, the first of them at some index. -/
def trail (n : Nat) (ts : List Token) : List Step := (ts.zipIdx n).flatMap fun x => x.1.steps x.2

theorem trail_nil (n : Nat) : trail n [] = [] := rfl

theorem trail_cons (n : Nat) (t : Token) (ts : List Token) :
    trail n (t :: ts) = t.steps n ++ trail (n + 1) ts := rfl

theorem trail_append (n : Nat) (ts us : List Token) :
    trail n (ts ++ us) = trail n ts ++ trail (n + ts.length) us := by
  rw [trail, List.zipIdx_append, List.flatMap_append]
  rfl

theorem trail_literals (n : Nat) (ls : List Literal) : trail n (ls.map Token.literal) = [] := by
  induction ls generalizing n with
  | nil => rfl
  | cons l ls ih => exact ih (n + 1)

/-- The steps that are missing after an error at some index: what is found too deep is entered as an
expression, and then not read. -/
def ParseError.missing (n : Nat) : ParseError → List Step
  | .tooDeep => (beginning n).tail
  | _ => []

/-- The steps that a reading lacks at its end. -/
def Reading.missing {α : Type} (x : Reading α) : List Step :=
  match x.result with
  | .error e => e.missing x.stop.offset
  | .ok _ => []

/-! ## What rules record -/

/-- The reading passes tokens from the input on, and its steps are its own ones and the trail of
these tokens. -/
def Reading.Trails {α : Type} (x : Reading α) (i : Input) (own : List Step) : Prop :=
  ∃ ts, i.Spans ts x.stop ∧ x.steps ++ x.missing = own ++ trail i.offset ts

namespace Rule

variable {α β : Type} {own : Nat → List Step}

/-- The rule begins with steps of its own, and leaves the trail of the tokens that it passes. -/
def Trails (own : Nat → List Step) (r : Rule α) : Prop := ∀ i, (r i).Trails i (own i.offset)

/-- No step but the trail. -/
abbrev Silent (r : Rule α) : Prop := r.Trails fun _ => []

theorem Trails.bind {first : Rule α} {next : α → Rule β} (h : first.Trails own)
    (hnext : ∀ a, (next a).Silent) : (first >>= next).Trails own := by
  intro i
  obtain ⟨ts, hspan, hsteps⟩ := h i
  cases hi : (first i).result with
  | error e =>
    rw [bind_of_error hi]
    refine ⟨ts, hspan, ?_⟩
    rw [← hsteps]
    simp only [Reading.missing, hi]
  | ok a =>
    obtain ⟨us, hspan', hsteps'⟩ := hnext a (first i).stop
    -- A rule that succeeds lacks no steps, so the trail goes on where it stopped.
    have hmissing : (first i).missing = [] := by simp only [Reading.missing, hi]
    rw [hmissing, List.append_nil] at hsteps
    rw [hspan.2, List.nil_append] at hsteps'
    rw [bind_of_ok hi]
    refine ⟨ts ++ us, Input.spans_append.2 ⟨_, hspan, hspan'⟩, ?_⟩
    calc (first i).steps ++ (next a (first i).stop).steps ++ (next a (first i).stop).missing
        = own i.offset ++ trail i.offset ts ++ trail (i.offset + ts.length) us := by
          rw [List.append_assoc, hsteps', hsteps]
      _ = own i.offset ++ trail i.offset (ts ++ us) := by
          rw [List.append_assoc, ← trail_append]

theorem Trails.entered {r : Rule α} (h : r.Trails own) (step : Nat → Step) :
    Trails (fun n => step n :: own n) (do note step; r) := by
  intro i
  obtain ⟨ts, hspan, hsteps⟩ := h i
  exact ⟨ts, hspan, congrArg (step i.offset :: ·) hsteps⟩

/-- A token whose mark is recorded is passed, and the steps of what is read behind it belong to its
trail. -/
theorem Trails.behind {r : Rule α} (h : r.Trails own) {t : Token} {step : Nat → Step}
    (ht : ∀ n, t.steps n = step n :: own (n + 1)) {i : Input} (hi : i.rest.head? = some t) :
    Reading.Trails ((do note step; skip; r : Rule α) i) i [] := by
  obtain ⟨ts, hspan, hsteps⟩ := h i.tail
  obtain ⟨rest, hrest⟩ := List.head?_eq_some_iff.1 hi
  have hoffset : i.tail.offset = i.offset + 1 := by simp only [Input.tail, hrest]
  rw [hoffset] at hsteps
  refine ⟨t :: ts, Input.spans_cons.2 ⟨hi, hspan⟩, ?_⟩
  rw [List.nil_append, trail_cons, ht, List.cons_append, ← hsteps]
  rfl

/-! ### Rules that record nothing -/

theorem silent_pure (a : α) : (Pure.pure a : Rule α).Silent := fun _ => ⟨[], by simp, rfl⟩

theorem silent_fail {e : ParseError} (he : ∀ n, e.missing n = []) : (fail e : Rule α).Silent :=
  fun i => ⟨[], by simp, he i.offset⟩

theorem trails_look_bind {next : Option Token → Rule β} {i : Input} {steps : List Step} :
    Reading.Trails ((look >>= next) i) i steps ↔
      Reading.Trails (next i.rest.head? i) i steps := Iff.rfl

theorem silent_look_bind {next : Option Token → Rule β} (h : ∀ t, (next t).Silent) :
    (look >>= next).Silent := fun i => trails_look_bind.2 (h i.rest.head? i)

theorem steps_look_bind {next : Option Token → Rule β} (i : Input) :
    ((look >>= next) i).steps = (next i.rest.head? i).steps := rfl

/-- A rule is silent if it takes no step and the tokens that it passes leave nothing behind. -/
theorem silent_of_steps {r : Rule α} (hsteps : ∀ i, (r i).steps = [])
    (hshallow : ∀ i j, ¬ r.Fails i .tooDeep j)
    (hpass : ∀ i : Input, ∃ ts, i.Spans ts (r i).stop ∧ ∀ n, trail n ts = []) : r.Silent := by
  intro i
  obtain ⟨ts, hspan, hts⟩ := hpass i
  refine ⟨ts, hspan, ?_⟩
  rw [hsteps, hts, Reading.missing]
  cases h : (r i).result with
  | ok a => rfl
  | error e =>
    cases e with
    | tooDeep => exact absurd ⟨h, rfl⟩ (hshallow i (r i).stop)
    | _ => rfl

theorem silent_literal (place : LiteralPlace) : (literal place).Silent := by
  refine silent_of_steps (fun i => ?_) (congruence_shallow.literal place) fun i => ?_
  · rw [literal, steps_look_bind]
    cases i.rest.head?.bind Token.literal? <;> rfl
  · cases h : (literal place i).result with
    | ok l => exact ⟨[.literal l], yields_literal.1 ⟨h, rfl⟩, fun _ => rfl⟩
    | error e =>
      obtain ⟨-, -, hstop⟩ := fails_literal.1 ⟨h, rfl⟩
      exact ⟨[], Input.spans_nil.2 hstop, fun _ => rfl⟩

theorem silent_keyword {k : Keyword} (hk : ∀ n, trail n [.keyword k] = []) :
    (keyword k).Silent := by
  refine silent_of_steps (fun i => ?_) (congruence_shallow.keyword k) fun i => ?_
  · rw [keyword, steps_look_bind]
    split <;> rfl
  · cases h : (keyword k i).result with
    | ok u => exact ⟨[.keyword k], yields_keyword.1 ⟨h, rfl⟩, hk⟩
    | error e =>
      obtain ⟨-, -, hstop⟩ := fails_keyword.1 ⟨h, rfl⟩
      exact ⟨[], Input.spans_nil.2 hstop, fun _ => rfl⟩

theorem silent_literals : literals.Silent := by
  refine silent_of_steps (fun _ => rfl) congruence_shallow.literals fun i => ?_
  obtain ⟨hspan, -⟩ := yields_literals (i := i).1 ⟨rfl, rfl⟩
  exact ⟨_, hspan, fun n => trail_literals n _⟩

theorem silent_comparand : comparand.Silent :=
  (silent_literal _).bind fun _ => silent_pure _

/-! ### The rules of the grammar -/

/-- A list behind its opening bracket. -/
theorem trails_list {i : Input} (hi : i.rest.head? = some (.keyword .openList)) :
    (list i).Trails i [] := by
  have hrest : Silent (do
      let first ← literal .list
      let others ← literals
      keyword .closeList
      return Expr.list ⟨first, others⟩) :=
    (silent_literal _).bind fun _ => silent_literals.bind fun _ =>
      (silent_keyword fun _ => rfl).bind fun _ => silent_pure _
  exact hrest.behind (fun _ => rfl) hi

section
variable {expression : Rule Expr} (h : expression.Trails beginning)
include h

theorem trails_group {i : Input} (hi : i.rest.head? = some (.keyword .openGroup)) :
    (group expression i).Trails i [] := by
  have hrest : Trails beginning (do
      let inner ← expression
      keyword .closeGroup
      return Expr.group inner) :=
    h.bind fun _ => (silent_keyword fun _ => rfl).bind fun _ => silent_pure _
  exact hrest.behind (fun _ => rfl) hi

theorem silent_operand : (operand expression).Silent := by
  have hliteral : Silent (do return Expr.literal (← literal .operand)) :=
    (silent_literal _).bind fun _ => silent_pure _
  intro i
  rw [operand, trails_look_bind]
  rcases hi : i.rest.head? with _ | (k | l)
  · exact hliteral i
  · cases k with
    | openList => exact trails_list hi
    | openGroup => exact trails_group h hi
    | _ => exact hliteral i
  · exact hliteral i

end

/-- An operator is passed with its right operand, if its mark and the own steps of the operand are
what such an operator leaves behind. -/
theorem silent_optional {keywords : List Keyword} {right : Rule Expr} (h : right.Trails own)
    (hown : ∀ op : BinaryOp, op.keyword ∈ keywords → ∀ n,
      (Token.keyword op.keyword).steps n = .operator op.keyword n :: own (n + 1)) (left : Expr) :
    (optional keywords right left).Silent := by
  intro i
  rw [optional, trails_look_bind]
  cases hop : operator? keywords i.rest.head? with
  | none => exact silent_pure left i
  | some op =>
    obtain ⟨ht, hk⟩ := operator?_eq_some_iff.1 hop
    have hrest : Trails own (do return Expr.binary op left (← right)) :=
      h.bind fun _ => silent_pure _
    exact hrest.behind (hown op hk) ht

section
variable {expression : Rule Expr} (h : expression.Trails beginning)
include h

theorem trails_membership :
    (membership expression).Trails fun n => [.enter .membership n] := by
  have hoperand := silent_operand h
  refine (hoperand.bind fun left => silent_optional hoperand (fun op hk n => ?_) left).entered _
  obtain rfl := BinaryOp.keyword_eq_membership_iff.1 hk
  rfl

theorem trails_comparison :
    (comparison expression).Trails fun n => [.enter .comparison n, .enter .membership n] := by
  refine ((trails_membership h).bind fun left =>
    silent_optional silent_comparand (fun op hk n => ?_) left).entered _
  obtain ⟨c, rfl⟩ := BinaryOp.keyword_mem_comparators_iff.1 hk
  cases c <;> rfl

theorem trails_junction :
    (junction expression).Trails fun n =>
      [.enter .junction n, .enter .comparison n, .enter .membership n] := by
  refine ((trails_comparison h).bind fun left =>
    silent_optional h (fun op hk n => ?_) left).entered _
  obtain ⟨c, rfl⟩ := BinaryOp.keyword_mem_junctions_iff.1 hk
  cases c <;> rfl

theorem trails_clause : (clause expression).Trails fun n => (beginning n).tail := by
  refine ((trails_junction h).bind fun left =>
    silent_optional h (fun op hk n => ?_) left).entered _
  obtain rfl := BinaryOp.keyword_eq_filter_iff.1 hk
  rfl

end

/-- **The trail of an expression.** -/
theorem trails_expression (levels : Nat) : (expression levels).Trails beginning := by
  induction levels with
  | zero => exact fun i => ⟨[], Input.spans_nil.2 rfl, rfl⟩
  | succ levels ih => exact (trails_clause ih).entered _

theorem trails_complete (levels : Nat) : (complete levels).Trails beginning := by
  refine (trails_expression levels).bind fun e => silent_look_bind fun t => ?_
  split
  · exact silent_pure e
  · exact silent_fail fun _ => rfl

end Rule

/-! ## What a trail says -/

theorem Token.filterMap_steps (t : Token) (n : Nat) :
    (t.steps n).filterMap Step.marked? = if t.isMarked then [n] else [] := by
  cases t with
  | keyword k => cases k <;> rfl
  | literal l => rfl

theorem Token.countP_steps (t : Token) (n : Nat) :
    (t.steps n).countP Step.isExpression = openers [t] := by
  cases t with
  | keyword k => cases k <;> rfl
  | literal l => rfl

theorem Token.length_steps_le (t : Token) (n : Nat) : (t.steps n).length ≤ 6 := by
  cases t with
  | keyword k => cases k <;> simp [steps, mark, opensLevel, beginning, BinaryOp.ofKeyword?]
  | literal l => exact Nat.zero_le _

theorem countP_trail (n : Nat) (ts : List Token) :
    (trail n ts).countP Step.isExpression = openers ts := by
  induction ts generalizing n with
  | nil => rfl
  | cons t ts ih =>
    rw [trail_cons, List.countP_append, ih, t.countP_steps, ← openers_append, List.singleton_append]

theorem length_trail_le (n : Nat) (ts : List Token) : (trail n ts).length ≤ 6 * ts.length := by
  induction ts generalizing n with
  | nil => exact Nat.zero_le _
  | cons t ts ih =>
    have ht := t.length_steps_le n
    have hts := ih (n + 1)
    rw [trail_cons, List.length_append, List.length_cons]
    omega

theorem filterMap_trail_take {tokens : List Token} {p : Nat} (hp : p ≤ tokens.length) :
    (trail 0 (tokens.take p)).filterMap Step.marked? =
      (List.range p).filter fun n => tokens[n]?.any Token.isMarked := by
  induction p with
  | zero => rfl
  | succ p ih =>
    have hlength : 0 + (tokens.take p).length = p := by rw [List.length_take]; omega
    rw [List.take_succ_eq_append_getElem hp, trail_append, List.filterMap_append, ih (by omega),
      hlength, List.range_succ, List.filter_append, trail_cons, trail_nil, List.append_nil,
      Token.filterMap_steps]
    simp [List.filter_cons, List.getElem?_eq_getElem hp]

theorem Reading.filterMap_missing {α : Type} (x : Reading α) :
    x.missing.filterMap Step.marked? = [] := by
  rw [missing]
  rcases x.result with (_ | _ | _ | _) | _ <;> rfl

theorem Reading.countP_missing {α : Type} (x : Reading α) :
    x.missing.countP Step.isExpression = 0 := by
  rw [missing]
  rcases x.result with (_ | _ | _ | _) | _ <;> rfl

/-! ## What steps say -/

/-- What is recorded of a step. -/
inductive Step.Says : Step → String → Prop
  | expression (n : Nat) : Says (.enter .expression n) ("expression at " ++ toString n)
  | clause (n : Nat) : Says (.enter .clause n) ("where at " ++ toString n)
  | junction (n : Nat) : Says (.enter .junction n) ("and at " ++ toString n)
  | comparison (n : Nat) : Says (.enter .comparison n) ("comparator at " ++ toString n)
  | membership (n : Nat) : Says (.enter .membership n) ("in at " ++ toString n)
  | list (n : Nat) : Says (.list n) ("list at " ++ toString n)
  | group (n : Nat) : Says (.group n) ("group at " ++ toString n)
  | operator (k : Keyword) (n : Nat) :
      Says (.operator k n) ("operator '" ++ k.spelling ++ "' at " ++ toString n)

theorem Step.says_text (step : Step) : step.Says step.text := by
  rcases step with ⟨layer, n⟩ | n | n | ⟨k, n⟩
  · cases layer with
    | expression => exact .expression n
    | clause => exact .clause n
    | junction => exact .junction n
    | comparison => exact .comparison n
    | membership => exact .membership n
  · exact .list n
  · exact .group n
  · exact .operator k n

theorem Step.line_logRecord (step : Step) :
    step.logRecord.line = "[TRACE factql::parser] " ++ step.text := by
  have hplace : "[" ++ "TRACE" ++ " " ++ "factql::parser" ++ "] " = "[TRACE factql::parser] " := by
    decide
  exact congrArg (· ++ step.text) hplace

/-- Steps leave their texts in the log, in order. -/
theorem exists_texts_of_steps (steps : List Step) :
    ∃ texts, List.Forall₂ Step.Says steps texts ∧
      steps.map (fun step => step.logRecord.line) =
        texts.map ("[TRACE factql::parser] " ++ ·) := by
  refine ⟨steps.map Step.text, ?_, ?_⟩
  · exact List.forall₂_map_right_iff.2 (List.forall₂_same.2 fun step _ => step.says_text)
  · rw [List.map_map]
    exact List.map_congr_left fun step _ => step.line_logRecord

/-! ## Whole token sequences -/

/-- A whole sequence is read as an expression, whose trail is that of the tokens up to the stop. -/
theorem Expr.trail_reading (tokens : List Token) :
    let x := Expr.reading tokens
    x.stop.offset ≤ tokens.length ∧
      x.steps ++ x.missing = beginning 0 ++ trail 0 (tokens.take x.stop.offset) := by
  intro x
  obtain ⟨ts, ⟨htokens, hoffset⟩, htrail⟩ := Rule.trails_complete maxNesting ⟨0, tokens⟩
  have htokens : tokens = ts ++ x.stop.rest := htokens
  have hoffset : x.stop.offset = ts.length := hoffset.trans (Nat.zero_add _)
  have htake : tokens.take x.stop.offset = ts := by rw [hoffset, htokens, List.take_left]
  refine ⟨?_, htake ▸ htrail⟩
  rw [hoffset, htokens, List.length_append]
  exact Nat.le_add_right ..

/-- A descent on a whole sequence has the result and the steps of the reading, and stops where it
does. -/
theorem Descent.answer_complete (tokens : List Token) :
    let x := Expr.reading tokens
    ∃ c, Phrase.complete.descent.answer (.ofTokens tokens) = (x.result, ⟨c, 0, x.steps⟩) ∧
      (Cursor.ofTokens tokens).read .complete = (x.result, c) ∧ c.index = x.stop.offset := by
  intro x
  obtain ⟨c, hread, hindex⟩ := Cursor.read_complete tokens
  refine ⟨c, ?_, hread, hindex⟩
  rw [State.ofTokens, Phrase.answer_eq_read, hread]
  rfl

/-- **Trails of whole sequences.** Let a token sequence be read, with any outcome. A descent has the
same result and takes the same steps as the reading. They are the beginning of an expression and the
trail of the tokens before the cursor, except that an expression that is found too deep is entered
and nothing more. So they mark the operators and the opening brackets before the cursor, each once
and from left to right. One expression begins at the first token, and one behind each token that
opens a level. All in all the steps are at most six for each token passed and five at the beginning.
The log of the steps says what they are and where. -/
theorem reading_trail (tokens : List Token) :
    let x := Expr.reading tokens
    let d := Phrase.complete.descent.answer (.ofTokens tokens)
    let p := d.2.cursor.index
    (d.1 = x.result ∧ d.2.steps = x.steps ∧
      (Cursor.ofTokens tokens).read .complete = (d.1, d.2.cursor) ∧ p ≤ tokens.length) ∧
    x.steps ++ x.missing = beginning 0 ++ trail 0 (tokens.take p) ∧
    (x.steps.filterMap Step.marked? =
        (List.range p).filter (fun n => tokens[n]?.any Token.isMarked) ∧
      (x.steps.filterMap Step.marked?).Pairwise (· < ·)) ∧
    x.steps.countP Step.isExpression = 1 + openers (tokens.take p) ∧
    x.steps.length ≤ 6 * p + 5 ∧
    ∃ texts, List.Forall₂ Step.Says x.steps texts ∧
      x.steps.map (fun step => step.logRecord.line) =
        texts.map ("[TRACE factql::parser] " ++ ·) := by
  intro x d p
  obtain ⟨c, hd, hread, hindex⟩ := Descent.answer_complete tokens
  have hp : p = x.stop.offset := (congrArg (·.2.cursor.index) hd).trans hindex
  obtain ⟨hle, htrail⟩ := Expr.trail_reading tokens
  rw [← hp] at hle htrail
  -- What is missing marks no token and begins no expression.
  have hmarks : x.steps.filterMap Step.marked? =
      (List.range p).filter fun n => tokens[n]?.any Token.isMarked := by
    have h := congrArg (List.filterMap Step.marked?) htrail
    rw [List.filterMap_append, x.filterMap_missing, List.append_nil, List.filterMap_append,
      filterMap_trail_take hle] at h
    exact h
  have hcount : x.steps.countP Step.isExpression = 1 + openers (tokens.take p) := by
    have h := congrArg (List.countP Step.isExpression) htrail
    rw [List.countP_append, x.countP_missing, List.countP_append, countP_trail] at h
    exact h
  have hlength : x.steps.length ≤ 6 * p + 5 := by
    have hpassed := length_trail_le 0 (tokens.take p)
    rw [List.length_take_of_le hle] at hpassed
    calc x.steps.length
        ≤ (x.steps ++ x.missing).length := List.length_append ▸ Nat.le_add_right ..
      _ = 5 + (trail 0 (tokens.take p)).length := htrail ▸ List.length_append
      _ ≤ 6 * p + 5 := by omega
  refine ⟨⟨congrArg (·.1) hd, congrArg (·.2.steps) hd, ?_, hle⟩, htrail, ⟨hmarks, ?_⟩, hcount,
    hlength, exists_texts_of_steps x.steps⟩
  · rw [hread]
    exact congrArg (fun answer => (answer.1, answer.2.cursor)) hd.symm
  · rw [hmarks]
    exact List.pairwise_lt_range.filter _

end FactQuery
