import FactQuery.Proofs.Extent

/-!
# How far a rule looks

A rule decides by the tokens it passes and by the one before which it stops, and looks at no other
(`Rule.Prompt`). So what comes behind that token can be exchanged, and the reading stays the same,
its steps included.

**Properties of all rules** (`Rule.Closed`). The rules of the grammar are put together from a few
elementary ones, and only `expression` is recursive. A property of the elementary rules that passes
on to sequences is a property of every rule, by one induction on the levels
(`Rule.Closed.expression`). In the same way a relation between rules for expressions passes on to
the rules that are made of them (`Rule.Congruence`).

**Theorem (`prompt_complete`).** The reading of a whole token sequence is prompt. Where it fails, it
fails in the same way on all sequences that begin with the same tokens, the offending one included.
-/

namespace FactQuery

theorem Input.Spans.unique {i j : Input} {ts us : List Token} (h : i.Spans ts j)
    (h' : i.Spans us j) : ts = us :=
  List.append_cancel_right (h.1.symm.trans h'.1)

namespace Rule

/-! ## Relations between rules -/

/-- A relation that holds between each elementary rule and itself and passes on to sequences. What
it makes of the step of an expression is left open. -/
structure Congruence (R : (α : Type) → Rule α → Rule α → Prop) : Prop where
  pure : ∀ {α : Type} (a : α), R α (Pure.pure a) (Pure.pure a)
  bind : ∀ {α β : Type} {first first' : Rule α} {next next' : α → Rule β}, R α first first' →
    (∀ a, R β (next a) (next' a)) → R β (first >>= next) (first' >>= next')
  look : R _ look look
  skip : R _ skip skip
  note : ∀ step, (∀ n m, step n ≠ .enter .expression m) → R _ (note step) (note step)
  literal : ∀ place, R _ (literal place) (literal place)
  keyword : ∀ k, R _ (keyword k) (keyword k)
  literals : R _ literals literals

namespace Congruence

variable {R : (α : Type) → Rule α → Rule α → Prop} (h : Congruence R)
include h

theorem list : R _ Rule.list Rule.list :=
  h.bind (h.note _ nofun) fun _ => h.bind h.skip fun _ => h.bind (h.literal _) fun _ =>
    h.bind h.literals fun _ => h.bind (h.keyword _) fun _ => h.pure _

theorem comparand : R _ Rule.comparand Rule.comparand := h.bind (h.literal _) fun _ => h.pure _

section
variable {r r' : Rule Expr} (hr : R _ r r')
include hr

theorem group : R _ (Rule.group r) (Rule.group r') :=
  h.bind (h.note _ nofun) fun _ => h.bind h.skip fun _ => h.bind hr fun _ =>
    h.bind (h.keyword _) fun _ => h.pure _

theorem operand : R _ (Rule.operand r) (Rule.operand r') := by
  refine h.bind h.look fun t => ?_
  split
  · exact h.list
  · exact h.group hr
  · exact h.bind (h.literal _) fun _ => h.pure _

theorem optional (keywords : List Keyword) (left : Expr) :
    R _ (Rule.optional keywords r left) (Rule.optional keywords r' left) := by
  refine h.bind h.look fun t => ?_
  split
  · exact h.bind (h.note _ nofun) fun _ => h.bind h.skip fun _ => h.bind hr fun _ => h.pure _
  · exact h.pure left

theorem membership : R _ (Rule.membership r) (Rule.membership r') :=
  h.bind (h.note _ nofun) fun _ => h.bind (h.operand hr) fun _ => h.optional (h.operand hr) _ _

theorem comparison : R _ (Rule.comparison r) (Rule.comparison r') :=
  h.bind (h.note _ nofun) fun _ => h.bind (h.membership hr) fun _ => h.optional h.comparand _ _

theorem junction : R _ (Rule.junction r) (Rule.junction r') :=
  h.bind (h.note _ nofun) fun _ => h.bind (h.comparison hr) fun _ => h.optional hr _ _

theorem clause : R _ (Rule.clause r) (Rule.clause r') :=
  h.bind (h.note _ nofun) fun _ => h.bind (h.junction hr) fun _ => h.optional hr _ _

end

end Congruence

/-! ## Properties of all rules -/

/-- A property of the elementary rules that passes on to sequences. -/
structure Closed (P : (α : Type) → Rule α → Prop) : Prop where
  pure : ∀ {α : Type} (a : α), P α (Pure.pure a)
  bind : ∀ {α β : Type} {first : Rule α} {next : α → Rule β}, P α first →
    (∀ a, P β (next a)) → P β (first >>= next)
  look : P _ look
  skip : P _ skip
  note : ∀ step, P _ (note step)
  literal : ∀ place, P _ (literal place)
  keyword : ∀ k, P _ (keyword k)
  literals : P _ literals
  tooDeep : P Expr (fail .tooDeep)

namespace Closed

variable {P : (α : Type) → Rule α → Prop} (h : Closed P)
include h

theorem congruence : Congruence fun α r _ => P α r where
  pure := h.pure
  bind := h.bind
  look := h.look
  skip := h.skip
  note step _ := h.note step
  literal := h.literal
  keyword := h.keyword
  literals := h.literals

section
variable {r : Rule Expr} (hr : P _ r)
include hr

theorem operand : P _ (Rule.operand r) := @Congruence.operand _ h.congruence r r hr

theorem membership : P _ (Rule.membership r) := @Congruence.membership _ h.congruence r r hr

theorem comparison : P _ (Rule.comparison r) := @Congruence.comparison _ h.congruence r r hr

theorem junction : P _ (Rule.junction r) := @Congruence.junction _ h.congruence r r hr

theorem clause : P _ (Rule.clause r) := @Congruence.clause _ h.congruence r r hr

end

/-- **Every rule has the property**, by induction on the levels. -/
theorem expression (levels : Nat) : P _ (Rule.expression levels) := by
  induction levels with
  | zero => exact h.bind (h.note _) fun _ => h.tooDeep
  | succ levels ih => exact h.bind (h.note _) fun _ => h.clause ih

end Closed

/-! ## Prompt rules -/

variable {α β : Type}

/-- The rule looks no further than at the token before which it stops. -/
def Prompt (r : Rule α) : Prop :=
  ∀ i, ∃ ts, i.Spans ts (r i).stop ∧ ∀ rest, rest.head? = (r i).stop.rest.head? →
    r ⟨i.offset, ts ++ rest⟩ = ⟨(r i).result, ⟨(r i).stop.offset, rest⟩, (r i).steps⟩

theorem prompt_pure (a : α) : (Pure.pure a : Rule α).Prompt := by
  intro i
  exact ⟨[], by simp, fun _ _ => rfl⟩

theorem prompt_look : look.Prompt := by
  intro i
  refine ⟨[], by simp, fun rest hrest => ?_⟩
  simp only [look_apply, List.nil_append] at hrest ⊢
  rw [hrest]

theorem prompt_note (step : Nat → Step) : (note step).Prompt := by
  intro i
  exact ⟨[], by simp, fun _ _ => rfl⟩

theorem prompt_fail (e : ParseError) : (fail e : Rule α).Prompt := by
  intro i
  exact ⟨[], by simp, fun _ _ => rfl⟩

theorem prompt_skip : skip.Prompt := by
  intro i
  obtain ⟨offset, tokens⟩ := i
  cases tokens with
  | nil =>
    refine ⟨[], by simp [Input.tail], fun rest hrest => ?_⟩
    have hnil : rest = [] := by simpa [Input.tail] using hrest
    rw [hnil]
    rfl
  | cons t tokens => exact ⟨[t], by simp [Input.tail], fun _ _ => rfl⟩

theorem prompt_literals : literals.Prompt := by
  intro i
  obtain ⟨hspan, hstop⟩ := yields_literals.1 ⟨rfl, rfl⟩
  refine ⟨_, hspan, fun rest hrest => ?_⟩
  generalize hinput : (⟨i.offset, (leadingLiterals i.rest).map Token.literal ++ rest⟩ : Input) = x
  have hyields : literals.Yields x (leadingLiterals i.rest) ⟨(literals i).stop.offset, rest⟩ := by
    rw [← hinput]
    exact yields_literals.2 ⟨⟨rfl, hspan.2⟩, by rw [hrest, hstop]⟩
  calc literals x = ⟨(literals x).result, (literals x).stop, []⟩ := rfl
    _ = ⟨.ok (leadingLiterals i.rest), ⟨(literals i).stop.offset, rest⟩, []⟩ := by
      rw [hyields.1, hyields.2]

/-- In a sequence the second rule looks at the token before which the first one stopped, or it has
passed it. -/
theorem Prompt.bind {first : Rule α} {next : α → Rule β} (h : first.Prompt)
    (hnext : ∀ a, (next a).Prompt) : (first >>= next).Prompt := by
  intro i
  obtain ⟨ts, hspan, hts⟩ := h i
  cases hr : (first i).result with
  | error e =>
    rw [bind_of_error hr]
    refine ⟨ts, hspan, fun rest hrest => ?_⟩
    have hfirst := hts rest hrest
    have hr' : (first ⟨i.offset, ts ++ rest⟩).result = .error e := by rw [hfirst, hr]
    rw [bind_of_error hr', hfirst]
  | ok a =>
    rw [bind_of_ok hr]
    obtain ⟨us, hspan', hus⟩ := hnext a (first i).stop
    refine ⟨ts ++ us, Input.spans_append.2 ⟨_, hspan, hspan'⟩, fun rest hrest => ?_⟩
    have hhead : (us ++ rest).head? = (first i).stop.rest.head? := by
      rw [hspan'.1]
      cases us with
      | nil => exact hrest
      | cons t us => rfl
    have hfirst := hts (us ++ rest) hhead
    have hr' : (first ⟨i.offset, ts ++ (us ++ rest)⟩).result = .ok a := by rw [hfirst, hr]
    rw [List.append_assoc, bind_of_ok hr', hfirst]
    simp only
    rw [hus rest hrest]

theorem prompt_literal (place : LiteralPlace) : (literal place).Prompt := by
  refine prompt_look.bind fun found => ?_
  split
  · exact prompt_skip.bind fun _ => prompt_pure _
  · exact prompt_fail _

theorem prompt_keyword (k : Keyword) : (keyword k).Prompt := by
  refine prompt_look.bind fun found => ?_
  split
  · exact prompt_skip
  · exact prompt_fail _

theorem closed_prompt : Closed fun _ r => r.Prompt where
  pure := prompt_pure
  bind := Prompt.bind
  look := prompt_look
  skip := prompt_skip
  note := prompt_note
  literal := prompt_literal
  keyword := prompt_keyword
  literals := prompt_literals
  tooDeep := prompt_fail _

/-- **A whole reading is prompt.** -/
theorem prompt_complete (levels : Nat) : (complete levels).Prompt := by
  refine (closed_prompt.expression levels).bind fun e => prompt_look.bind fun t => ?_
  split
  · exact prompt_pure e
  · exact prompt_fail _

end Rule

end FactQuery
