import FactQuery.Proofs.Descent
import FactQuery.Proofs.Nesting
import FactQuery.Proofs.OffendingToken

/-!
# The grammar without a nesting limit

The nesting limit refuses some token sequences, and has no other effect.

**Without a limit** (`Rule.unlimited`). The rule for expressions calls itself as often as it needs:
it is the solution of the recursive equation that is left when the levels are not counted
(`Rule.unlimited_eq`). That the recursion comes to an end is no matter of the limit, since a call
passes a token before it makes another one.

**Open calls** (`Reading.openExpressions`). Here a call takes its steps back when it succeeds. So
where a reading fails, the steps tell which calls are still open.

**Refused inputs** (`Rule.Refuses`). Up to the place where the limit is met, each level but the
first was opened by a token of its own, and the reading has not looked at the next token. So
whatever stands there, the input is refused.

**Theorem (`limit_only_refuses`).** A sequence that is not refused is read as without a limit. One
that is refused has met one open call too many, and no continuation helps. Without enough tokens
that open a level, no sequence is refused.
-/

namespace FactQuery

/-! ## Tokens that open a level -/

/-- A token behind which an expression is called for. -/
def Token.opensLevel : Token → Bool
  | .keyword .openGroup | .keyword .conjunction | .keyword .disjunction | .keyword .filter => true
  | _ => false

/-- How many of the tokens open a level. -/
def openers (tokens : List Token) : Nat := tokens.countP Token.opensLevel

theorem openers_append (ts us : List Token) : openers (ts ++ us) = openers ts + openers us :=
  List.countP_append

/-! ## Open calls -/

/-- The step with which an expression begins. -/
def Step.isExpression : Step → Bool
  | .enter .expression _ => true
  | _ => false

/-- How many expressions have begun according to the steps of a reading. Where an expression takes
its steps back when it ends, these are the ones that are open. -/
def Reading.openExpressions {α : Type} (x : Reading α) : Nat := x.steps.countP Step.isExpression

namespace Rule

variable {α β : Type}

/-! ## Refused inputs -/

/-- Up to the place where the rule finds an input too deep, so many tokens open a level, and what
comes there does not matter. -/
def Refuses (n : Nat) (r : Rule α) : Prop :=
  ∀ i j, r.Fails i .tooDeep j → ∃ ts, i.Spans ts j ∧ n ≤ openers ts ∧
    ∀ rest, r.Fails ⟨i.offset, ts ++ rest⟩ .tooDeep ⟨j.offset, rest⟩

/-- Only an expression is found too deep. -/
theorem congruence_shallow :
    Congruence fun _ r _ => ∀ i j, ¬ r.Fails i .tooDeep j where
  pure _ _ _ := fails_pure
  bind h hnext i j hr := by
    rcases fails_bind.1 hr with hfirst | ⟨a, k, -, hr⟩
    · exact h i j hfirst
    · exact hnext a k j hr
  look _ _ h := nomatch h.1
  skip _ _ h := nomatch h.1
  note _ _ _ _ h := nomatch h.1
  literal _ _ _ h := nomatch (fails_literal.1 h).2.1
  keyword _ _ _ h := nomatch (fails_keyword.1 h).2.1
  literals _ _ h := nomatch h.1

theorem refuses_of_shallow {r : Rule α} (h : ∀ i j, ¬ r.Fails i .tooDeep j) (n : Nat) :
    r.Refuses n := fun i j hr => absurd hr (h i j)

/-- The second rule of a sequence refuses an input behind a token that opens a level. So the first
one has looked at no token that could be another one. -/
theorem Refuses.bind {n : Nat} {first : Rule α} {next : α → Rule β} (h : first.Refuses (n + 1))
    (hprompt : first.Prompt) (hnext : ∀ a, (next a).Refuses (n + 1)) :
    (first >>= next).Refuses (n + 1) := by
  intro i j hr
  rcases fails_bind.1 hr with hfirst | ⟨a, k, hfirst, hr⟩
  · obtain ⟨ts, hspan, hopen, hrest⟩ := h i j hfirst
    exact ⟨ts, hspan, hopen, fun rest => fails_bind.2 (.inl (hrest rest))⟩
  · obtain ⟨us, hspan', hopen, hrest⟩ := hnext a k j hr
    obtain ⟨ts, hspan, hts⟩ := hprompt i
    obtain ⟨hresult, rfl⟩ := hfirst
    refine ⟨ts ++ us, Input.spans_append.2 ⟨_, hspan, hspan'⟩, ?_, fun rest => ?_⟩
    · rw [openers_append]
      omega
    · -- A token that opens a level is passed, so the first rule has looked at nothing new.
      have hhead : (us ++ rest).head? = (first i).stop.rest.head? := by
        rw [hspan'.1]
        cases us with
        | nil => simp [openers] at hopen
        | cons t us => rfl
      have hyields : first.Yields ⟨i.offset, ts ++ (us ++ rest)⟩ a
          ⟨(first i).stop.offset, us ++ rest⟩ := by
        rw [Yields, hts _ hhead]
        exact ⟨hresult, rfl⟩
      rw [List.append_assoc]
      exact fails_bind.2 (.inr ⟨a, _, hyields, hrest rest⟩)

theorem Refuses.note {n : Nat} {r : Rule α} (h : r.Refuses n) (step : Nat → Step) :
    Refuses n (do note step; r) := fun i j hr => h i j hr

section
variable {n : Nat} {r : Rule Expr}

theorem Refuses.behind (h : r.Refuses n) {i j : Input} {t : Token}
    (ht : i.rest.head? = some t) (hr : r.Fails i.tail .tooDeep j) :
    ∃ ts, i.Spans (t :: ts) j ∧ n + openers [t] ≤ openers (t :: ts) ∧
      ∀ rest, r.Fails (Input.tail ⟨i.offset, t :: ts ++ rest⟩) .tooDeep ⟨j.offset, rest⟩ := by
  obtain ⟨ts, hspan, hopen, hrest⟩ := h i.tail j hr
  obtain ⟨us, hus⟩ := List.head?_eq_some_iff.1 ht
  have htail : i.tail.offset = i.offset + 1 := by
    simp only [Input.tail, hus]
  refine ⟨ts, Input.spans_cons.2 ⟨ht, hspan⟩, ?_, fun rest => ?_⟩
  · have hcons : openers (t :: ts) = openers [t] + openers ts := openers_append [t] ts
    omega
  · have hfails := hrest rest
    rw [htail] at hfails
    exact hfails

theorem refuses_operand (h : r.Refuses n) : (operand r).Refuses (n + 1) := by
  intro i j hr
  rw [operand, fails_look_bind] at hr
  split at hr
  · exact absurd hr (congruence_shallow.list i j)
  · next hi =>
    rw [group, fails_note_bind, fails_skip_bind] at hr
    rcases fails_bind.1 hr with hr | ⟨_, k, -, hr⟩
    · obtain ⟨ts, hspan, hopen, hrest⟩ := h.behind hi hr
      refine ⟨_, hspan, hopen, fun rest => ?_⟩
      show (group r).Fails _ _ _
      rw [group, fails_note_bind, fails_skip_bind]
      exact fails_bind.2 (.inl (hrest rest))
    · rcases fails_bind.1 hr with hr | ⟨_, _, -, hr⟩
      · exact absurd hr (congruence_shallow.keyword _ k j)
      · exact absurd hr fails_pure
  · rcases fails_bind.1 hr with hr | ⟨_, _, -, hr⟩
    · exact absurd hr (congruence_shallow.literal _ i j)
    · exact absurd hr fails_pure

/-- A right operand is refused behind its operator, which may open a level itself. -/
theorem refuses_optional {m : Nat} (h : r.Refuses n) {keywords : List Keyword}
    (hm : ∀ k ∈ keywords, m ≤ openers [.keyword k]) (left : Expr) :
    (optional keywords r left).Refuses (n + m) := by
  intro i j hr
  obtain ⟨op, hk, ht, hr⟩ := fails_optional hr
  obtain ⟨ts, hspan, hopen, hrest⟩ := h.behind ht hr
  refine ⟨_, hspan, (Nat.add_le_add_left (hm _ hk) n).trans hopen, fun rest => ?_⟩
  have hop : operator? keywords (some (.keyword op.keyword)) = some op :=
    operator?_eq_some_iff.2 ⟨rfl, hk⟩
  rw [optional, fails_look_bind, List.cons_append, List.head?_cons, hop]
  rw [fails_note_bind, fails_skip_bind]
  exact fails_bind.2 (.inl (hrest rest))

/-- A phrase opens one level more than the expressions in it. -/
theorem refuses_clause (h : r.Refuses n) (hprompt : r.Prompt) : (clause r).Refuses (n + 1) := by
  have hoperand := refuses_operand h
  have hcomparand := refuses_of_shallow congruence_shallow.comparand (n + 1)
  have hmembership : (membership r).Refuses (n + 1) :=
    .note (hoperand.bind (closed_prompt.operand hprompt) fun e =>
      refuses_optional hoperand (fun _ _ => Nat.zero_le _) e) _
  have hcomparison : (comparison r).Refuses (n + 1) :=
    .note (hmembership.bind (closed_prompt.membership hprompt) fun e =>
      refuses_optional hcomparand (fun _ _ => Nat.zero_le _) e) _
  have hjunction : (junction r).Refuses (n + 1) :=
    .note (hcomparison.bind (closed_prompt.comparison hprompt) fun e =>
      refuses_optional h (by decide) e) _
  exact .note (hjunction.bind (closed_prompt.junction hprompt) fun e =>
    refuses_optional h (by decide) e) _

end

theorem refuses_expression (levels : Nat) : (expression levels).Refuses levels := by
  induction levels with
  | zero =>
    intro i j hr
    obtain ⟨-, rfl⟩ := fails_fail.1 (fails_note_bind.1 hr)
    exact ⟨[], by simp, Nat.zero_le _, fun _ => ⟨rfl, rfl⟩⟩
  | succ levels ih => exact (refuses_clause ih (closed_prompt.expression levels)).note _

theorem fails_groups (levels offset : Nat) (rest : List Token) :
    (expression levels).Fails ⟨offset, List.replicate levels (.keyword .openGroup) ++ rest⟩
      .tooDeep ⟨offset + levels, rest⟩ := by
  induction levels generalizing offset with
  | zero => exact ⟨rfl, rfl⟩
  | succ levels ih =>
    generalize hi :
      (⟨offset, List.replicate (levels + 1) (.keyword .openGroup) ++ rest⟩ : Input) = i
    have hinner := ih (offset + 1)
    rw [Nat.add_right_comm] at hinner
    have hoperand :
        (operand (expression levels)).Fails i .tooDeep ⟨offset + (levels + 1), rest⟩ := by
      rw [← hi, List.replicate_succ, List.cons_append, operand, fails_look_bind, List.head?_cons]
      rw [group, fails_note_bind, fails_skip_bind]
      exact fails_bind.2 (.inl hinner)
    have hmembership : (membership (expression levels)).Fails i .tooDeep _ :=
      fails_note_bind.2 (fails_bind.2 (.inl hoperand))
    have hcomparison : (comparison (expression levels)).Fails i .tooDeep _ :=
      fails_note_bind.2 (fails_bind.2 (.inl hmembership))
    have hjunction : (junction (expression levels)).Fails i .tooDeep _ :=
      fails_note_bind.2 (fails_bind.2 (.inl hcomparison))
    exact fails_note_bind.2 (fails_note_bind.2 (fails_bind.2 (.inl hjunction)))

/-! ## Without a limit -/

/-- The rule, which takes its steps back when it succeeds. -/
def pending (r : Rule α) : Rule α := fun i =>
  { r i with steps := if (r i).result.isOk then [] else (r i).steps }

/-- An expression, read by so many calls within one another at most. -/
def unlimitedWithin : Nat → Rule Expr
  | 0 => fail .tooDeep
  | bound + 1 => pending do
    note (.enter .expression)
    clause (unlimitedWithin bound)

/-- An expression, where no limit is set to the nesting. No more calls are open than there are
tokens left, and one. -/
def unlimited : Rule Expr := fun i => unlimitedWithin (i.rest.length + 1) i

theorem Prompt.pending {r : Rule α} (h : r.Prompt) : (pending r).Prompt := by
  intro i
  obtain ⟨ts, hspan, hts⟩ := h i
  refine ⟨ts, hspan, fun rest hrest => ?_⟩
  simp only [Rule.pending, hts rest hrest]

theorem Within.pending {r r' : Rule α} (h : r.Within r') : (pending r).Within (pending r') := by
  intro i
  rcases h i with hi | hi
  · exact .inl hi
  · right
    simp only [Rule.pending, hi]

theorem prompt_unlimitedWithin (bound : Nat) : (unlimitedWithin bound).Prompt := by
  induction bound with
  | zero => exact prompt_fail _
  | succ bound ih => exact ((prompt_note _).bind fun _ => closed_prompt.clause ih).pending

theorem refuses_unlimitedWithin (bound : Nat) : (unlimitedWithin bound).Refuses bound := by
  induction bound with
  | zero =>
    intro i j hr
    obtain ⟨-, rfl⟩ := fails_fail.1 hr
    exact ⟨[], by simp, Nat.zero_le _, fun _ => ⟨rfl, rfl⟩⟩
  | succ bound ih =>
    exact (refuses_clause ih (prompt_unlimitedWithin bound)).note (.enter .expression)

theorem within_unlimitedWithin {bound bound' : Nat} (h : bound ≤ bound') :
    (unlimitedWithin bound).Within (unlimitedWithin bound') := by
  induction bound generalizing bound' with
  | zero =>
    intro i
    left
    rfl
  | succ bound ih =>
    cases bound' with
    | zero => omega
    | succ bound' =>
      have hnext : (unlimitedWithin bound).Within (unlimitedWithin bound') := ih (by omega)
      exact ((Within.refl _).bind fun _ => congruence_within.clause hnext).pending

theorem unlimitedWithin_ne_tooDeep {bound : Nat} {i : Input} (h : i.rest.length < bound) :
    (unlimitedWithin bound i).result ≠ .error .tooDeep := by
  intro hdeep
  obtain ⟨ts, hspan, hopen, -⟩ := refuses_unlimitedWithin bound i _ ⟨hdeep, rfl⟩
  have hle : openers ts ≤ ts.length := List.countP_le_length
  have hlength := congrArg List.length hspan.1
  rw [List.length_append] at hlength
  omega

/-- Any bound on the open calls refuses an input or does not matter. -/
theorem unlimitedWithin_within (bound : Nat) : (unlimitedWithin bound).Within unlimited := by
  intro i
  rcases Nat.le_total bound (i.rest.length + 1) with hle | hle
  · exact within_unlimitedWithin hle i
  · have hne := unlimitedWithin_ne_tooDeep (Nat.lt_succ_self i.rest.length)
    exact .inr ((within_unlimitedWithin hle i).resolve_left hne).symm

/-- **The recursion without a limit.** The rule calls itself within the rule for clauses, with no
other condition. -/
theorem unlimited_eq : unlimited = pending (do note (.enter .expression); clause unlimited) := by
  funext i
  have hwithin : (unlimitedWithin (i.rest.length + 1)).Within
      (pending (do note (.enter .expression); clause unlimited)) :=
    ((Within.refl _).bind fun _ =>
      congruence_within.clause (unlimitedWithin_within i.rest.length)).pending
  exact (hwithin i).resolve_left (unlimitedWithin_ne_tooDeep (Nat.lt_succ_self _))

/-! ## Agreement -/

/-- The rule with a limit reads and fails as the one without, which leaves no call open when it
succeeds. Where a limit of so many calls is met at the end of the tokens, these are open. -/
structure Mirrors (n : Nat) (r r' : Rule α) : Prop where
  reads : ∀ {i : Input} {a : α} {j : Input}, r.Yields i a j →
    r'.Yields i a j ∧ (r' i).openExpressions = 0
  fails : ∀ {i : Input} {e : ParseError} {j : Input}, r.Fails i e j → e ≠ .tooDeep →
    r'.Fails i e j
  refused : ∀ {i j : Input}, r.Fails i .tooDeep j → j.rest = [] →
    ∃ e, r'.Fails i e j ∧ (r' i).openExpressions = n

theorem openExpressions_bind_of_yields {first : Rule α} {next : α → Rule β} {i k : Input} {a : α}
    (h : first.Yields i a k) : ((first >>= next) i).openExpressions =
      (first i).openExpressions + (next a k).openExpressions := by
  obtain ⟨ha, rfl⟩ := h
  rw [bind_of_ok ha]
  exact List.countP_append

theorem openExpressions_bind_of_fails {first : Rule α} {next : α → Rule β} {i j : Input}
    {e : ParseError} (h : first.Fails i e j) :
    ((first >>= next) i).openExpressions = (first i).openExpressions := by
  rw [bind_of_error h.1]
  rfl

theorem Mirrors.bind {n : Nat} {first first' : Rule α} {next next' : α → Rule β}
    (h : Mirrors n first first') (hnext : ∀ a, Mirrors n (next a) (next' a)) :
    Mirrors n (first >>= next) (first' >>= next') where
  reads hr := by
    obtain ⟨a, k, hfirst, hr⟩ := yields_bind.1 hr
    obtain ⟨hfirst', hnone⟩ := h.reads hfirst
    obtain ⟨hr', hnone'⟩ := (hnext a).reads hr
    refine ⟨yields_bind.2 ⟨a, k, hfirst', hr'⟩, ?_⟩
    rw [openExpressions_bind_of_yields hfirst', hnone, hnone']
  fails hr he := by
    rcases fails_bind.1 hr with hfirst | ⟨a, k, hfirst, hr⟩
    · exact fails_bind.2 (.inl (h.fails hfirst he))
    · exact fails_bind.2 (.inr ⟨a, k, (h.reads hfirst).1, (hnext a).fails hr he⟩)
  refused hr hend := by
    rcases fails_bind.1 hr with hfirst | ⟨a, k, hfirst, hr⟩
    · obtain ⟨e, hfirst', hopen⟩ := h.refused hfirst hend
      exact ⟨e, fails_bind.2 (.inl hfirst'), (openExpressions_bind_of_fails hfirst').trans hopen⟩
    · obtain ⟨hfirst', hnone⟩ := h.reads hfirst
      obtain ⟨e, hr', hopen⟩ := (hnext a).refused hr hend
      refine ⟨e, fails_bind.2 (.inr ⟨a, k, hfirst', hr'⟩), ?_⟩
      rw [openExpressions_bind_of_yields hfirst', hnone, hopen, Nat.zero_add]

theorem mirrors_self {n : Nat} {r : Rule α} (hshallow : ∀ i j, ¬ r.Fails i .tooDeep j)
    (hnone : ∀ i, (r i).openExpressions = 0) : Mirrors n r r where
  reads hr := ⟨hr, hnone _⟩
  fails hr _ := hr
  refused hr _ := absurd hr (hshallow _ _)

theorem openExpressions_note {step : Nat → Step} (h : ∀ n m, step n ≠ .enter .expression m)
    (i : Input) : (note step i).openExpressions = 0 := by
  have hstep : (step i.offset).isExpression = false := by
    unfold Step.isExpression
    split
    · next m hm => exact absurd hm (h _ m)
    · rfl
  simp [Reading.openExpressions, hstep]

theorem openExpressions_look_bind {next : Option Token → Rule β} (i : Input) :
    ((look >>= next) i).openExpressions = (next i.rest.head? i).openExpressions := rfl

theorem congruence_mirrors (n : Nat) : Congruence fun _ r r' => Mirrors n r r' where
  pure a := mirrors_self (congruence_shallow.pure a) fun _ => rfl
  bind := Mirrors.bind
  look := mirrors_self congruence_shallow.look fun _ => rfl
  skip := mirrors_self congruence_shallow.skip fun _ => rfl
  note step hstep :=
    mirrors_self (congruence_shallow.note step hstep) (openExpressions_note hstep)
  literal place := mirrors_self (congruence_shallow.literal place) fun i => by
    rw [literal, openExpressions_look_bind]
    cases i.rest.head?.bind Token.literal? <;> rfl
  keyword k := mirrors_self (congruence_shallow.keyword k) fun i => by
    rw [keyword, openExpressions_look_bind]
    split <;> rfl
  literals := mirrors_self congruence_shallow.literals fun _ => rfl

theorem openExpressions_note_bind {step : Nat → Step} {next : Unit → Rule β} (i : Input) :
    ((note step >>= next) i).openExpressions =
      (next () i).openExpressions + if (step i.offset).isExpression then 1 else 0 :=
  List.countP_cons

theorem openExpressions_pending_of_yields {r : Rule α} {i j : Input} {a : α}
    (h : r.Yields i a j) : (pending r i).openExpressions = 0 := by
  simp only [pending, h.1]
  rfl

theorem openExpressions_pending_of_fails {r : Rule α} {i j : Input} {e : ParseError}
    (h : r.Fails i e j) : (pending r i).openExpressions = (r i).openExpressions := by
  simp only [pending, h.1]
  rfl

theorem Mirrors.expression {n : Nat} {r r' : Rule Expr} (h : Mirrors n r r') :
    Mirrors (n + 1) (do note (.enter .expression); r)
      (pending do note (.enter .expression); r') where
  reads {i a j} hr := by
    have hr' : Yields (do note (.enter .expression); r') i a j :=
      yields_note_bind.2 (h.reads hr).1
    exact ⟨hr', openExpressions_pending_of_yields hr'⟩
  fails hr he := h.fails hr he
  refused {i j} hr hend := by
    obtain ⟨e, hclause, hopen⟩ := h.refused (fails_note_bind.1 hr) hend
    have hr' : Fails (do note (.enter .expression); r') i e j := fails_note_bind.2 hclause
    refine ⟨e, hr', ?_⟩
    rw [openExpressions_pending_of_fails hr', openExpressions_note_bind, hopen]
    rfl

/-- **A limit refuses or does not matter.** -/
theorem mirrors_expression (levels : Nat) : Mirrors (levels + 1) (expression levels) unlimited := by
  induction levels with
  | zero =>
    refine ⟨?_, ?_, ?_⟩
    · intro i a j hr
      exact absurd hr yields_fail
    · intro i e j hr he
      exact absurd (fails_fail.1 hr).1 he
    · intro i j hr hend
      obtain ⟨-, rfl⟩ := fails_fail.1 hr
      obtain ⟨offset, rest⟩ := j
      obtain rfl := hend
      rw [unlimited_eq]
      exact ⟨.expectedLiteral .operand none, ⟨rfl, rfl⟩, rfl⟩
  | succ levels ih =>
    rw [unlimited_eq]
    exact ((congruence_mirrors (levels + 1)).clause ih).expression

/-! ## Whole token sequences -/

/-- An expression with nothing after it. -/
def alone (expression : Rule Expr) : Rule Expr := do
  let e ← expression
  match ← look with
  | none => return e
  | some t => fail (.unexpectedToken t)

theorem complete_eq_alone (levels : Nat) : complete levels = alone (expression levels) := rfl

theorem Mirrors.alone {n : Nat} {r r' : Rule Expr} (h : Mirrors n r r') :
    Mirrors n (alone r) (alone r') := by
  refine h.bind fun e => (congruence_mirrors n).look.bind fun t => ?_
  cases t with
  | none => exact (congruence_mirrors n).pure e
  | some t => exact mirrors_self (fun _ _ hr => nomatch (fails_fail.1 hr).1) fun _ => rfl

theorem refuses_complete (levels : Nat) : (complete levels).Refuses levels := by
  intro i j hr
  rcases fails_complete hr with hr | ⟨_, _, -, -, he⟩
  · obtain ⟨ts, hspan, hopen, hrest⟩ := refuses_expression levels i j hr
    exact ⟨ts, hspan, hopen, fun rest => fails_bind.2 (.inl (hrest rest))⟩
  · cases he

end Rule

theorem Cursor.read_complete (tokens : List Token) :
    let x := Rule.complete maxNesting ⟨0, tokens⟩
    ∃ c, (ofTokens tokens).read .complete = (x.result, c) ∧ c.index = x.stop.offset := by
  intro x
  have hx : Phrase.complete.rule maxNesting (ofTokens tokens).input = x := rfl
  obtain ⟨ts, hspan, -⟩ := Rule.prompt_complete maxNesting ⟨0, tokens⟩
  have hle : x.stop.offset ≤ tokens.length := ((ofTokens tokens).isOf_input.spans hspan).1
  refine ⟨(ofTokens tokens).moveTo x.stop.offset, ?_, index_moveTo_ofTokens hle⟩
  simp only [read, hx]
  cases x.result <;> rfl

/-- **The limit only refuses.** Without a limit, the recursion for expressions is the same but for
the levels. What is not refused is read alike, to the same result and the same place. What is
refused stays so, whatever comes behind the place where it was; there, without a limit, one
expression more is open than the limit allows. And too few tokens that open a level are never
refused. -/
theorem limit_only_refuses (tokens : List Token) :
    Rule.unlimited =
      Rule.pending (do Rule.note (.enter .expression); Rule.clause Rule.unlimited) ∧
    (∀ result c, (Cursor.ofTokens tokens).read .complete = (result, c) →
      result ≠ .error .tooDeep →
        let x := Rule.alone Rule.unlimited ⟨0, tokens⟩
        x.result = result ∧ x.stop.offset = c.index) ∧
    (∀ c, (Cursor.ofTokens tokens).read .complete = (.error .tooDeep, c) →
      (∀ ext, ∃ c', (Cursor.ofTokens (tokens.take c.index ++ ext)).read .complete =
        (.error .tooDeep, c') ∧ c'.index = c.index) ∧
      let x := Rule.alone Rule.unlimited ⟨0, tokens.take c.index⟩
      (∃ e, x.result = .error e) ∧ x.stop.offset = c.index ∧
        x.openExpressions = maxNesting + 1) ∧
    (openers tokens ≤ maxNesting - 1 → Expr.ofTokens tokens ≠ .error .tooDeep) := by
  have hmirrors : Rule.Mirrors (maxNesting + 1) (Rule.complete maxNesting)
      (Rule.alone Rule.unlimited) := by
    rw [Rule.complete_eq_alone]
    exact (Rule.mirrors_expression maxNesting).alone
  obtain ⟨c₀, hread, hindex⟩ := Cursor.read_complete tokens
  refine ⟨Rule.unlimited_eq, ?_, ?_, ?_⟩
  · intro result c h hne
    obtain ⟨rfl, rfl⟩ := Prod.mk.inj (hread.symm.trans h)
    rw [hindex]
    cases hresult : (Rule.complete maxNesting ⟨0, tokens⟩).result with
    | ok e =>
      obtain ⟨⟨he, hstop⟩, -⟩ := hmirrors.reads ⟨hresult, rfl⟩
      exact ⟨he, congrArg Input.offset hstop⟩
    | error e =>
      rw [hresult] at hne
      obtain ⟨he, hstop⟩ := hmirrors.fails ⟨hresult, rfl⟩ fun h => hne (congrArg _ h)
      exact ⟨he, congrArg Input.offset hstop⟩
  · intro c h
    obtain ⟨hdeep, rfl⟩ := Prod.mk.inj (hread.symm.trans h)
    obtain ⟨ts, ⟨htokens, hoffset⟩, -, hrest⟩ :=
      Rule.refuses_complete maxNesting ⟨0, tokens⟩ _ ⟨hdeep, rfl⟩
    have hlength : c₀.index = ts.length := by
      rw [hindex]
      exact hoffset.trans (Nat.zero_add _)
    have htake : tokens.take c₀.index = ts := by
      rw [hlength, show tokens = ts ++ _ from htokens, List.take_left]
    rw [htake]
    refine ⟨fun ext => ?_, ?_⟩
    · obtain ⟨hdeep', hstop'⟩ := hrest ext
      obtain ⟨c', hread', hindex'⟩ := Cursor.read_complete (ts ++ ext)
      have hoffset' := congrArg Input.offset hstop'
      exact ⟨c', hread'.trans (congrArg (·, c') hdeep'), hindex'.trans (hoffset'.trans hindex.symm)⟩
    · -- What is refused before any rest is refused at the end of the tokens, too.
      have hend := hrest []
      rw [List.append_nil] at hend
      obtain ⟨e, ⟨he, hstop⟩, hopen⟩ := hmirrors.refused hend rfl
      have hoffset' := congrArg Input.offset hstop
      exact ⟨⟨e, he⟩, hoffset'.trans hindex.symm, hopen⟩
  · -- There are not as many openers as a refusal takes.
    intro hfew hdeep
    obtain ⟨ts, ⟨htokens, -⟩, hopen, -⟩ :=
      Rule.refuses_complete maxNesting ⟨0, tokens⟩ _ ⟨hdeep, rfl⟩
    have hsum := congrArg openers (show tokens = ts ++ _ from htokens)
    rw [openers_append] at hsum
    simp only [maxNesting] at hfew hopen
    omega

/-- Behind as many opening parentheses as the limit allows, nothing is read any more. -/
theorem limit_only_refuses_groups :
    let opening : List Token := List.replicate maxNesting (.keyword .openGroup)
    let rest : List Token := [.literal (.word "a")]
    ∃ c, (Cursor.ofTokens (opening ++ rest)).read .complete = (.error .tooDeep, c) ∧
      c.index = maxNesting ∧
      (∀ ext, ∃ c', (Cursor.ofTokens (opening ++ ext)).read .complete = (.error .tooDeep, c') ∧
        c'.index = maxNesting) ∧
      (Rule.alone Rule.unlimited ⟨0, opening⟩).openExpressions = maxNesting + 1 := by
  intro opening rest
  obtain ⟨c, hread, hindex⟩ := Cursor.read_complete (opening ++ rest)
  obtain ⟨hdeep, hstop⟩ : (Rule.complete maxNesting).Fails ⟨0, opening ++ rest⟩ .tooDeep
      ⟨0 + maxNesting, rest⟩ := Rule.fails_bind.2 (.inl (Rule.fails_groups maxNesting 0 rest))
  have hread' := hread.trans (congrArg (·, c) hdeep)
  have hoffset := congrArg Input.offset hstop
  have hplace : c.index = maxNesting := hindex.trans (hoffset.trans (Nat.zero_add _))
  have htake : (opening ++ rest).take c.index = opening := by
    rw [hplace, List.take_left' List.length_replicate]
  obtain ⟨hstays, -, -, hopen⟩ := (limit_only_refuses _).2.2.1 c hread'
  rw [htake] at hstays hopen
  rw [hplace] at hstays
  exact ⟨c, hread', hplace, hstays, hopen⟩

end FactQuery
