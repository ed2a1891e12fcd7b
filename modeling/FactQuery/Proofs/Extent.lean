import FactQuery.Grammar.Basic
import FactQuery.Proofs.Spelling

/-!
# How far a rule reads

A rule that succeeds has read the spelling of its tree and stopped before some token. Its *extent*
is the set of these pairs. The extent of every rule of the grammar is built in the same way as the
rule, so that the two inductions, over what a rule reads and over what it must read, are one.

**Theorem (`reads_expression`).** Where `expression` may open so many levels, it succeeds with a
tree exactly if the tokens begin with the spelling of the tree and the tree before the next token is
in the extent `Extent.expression` of these levels.

The steps of a reading play no part here: `Rule.Yields` forgets them.
-/

namespace FactQuery

namespace Input

/-- From the first input to the second one, just these tokens are passed. -/
def Spans (i : Input) (tokens : List Token) (j : Input) : Prop :=
  i.rest = tokens ++ j.rest ∧ j.offset = i.offset + tokens.length

@[simp] theorem spans_nil {i j : Input} : i.Spans [] j ↔ j = i := by
  obtain ⟨offset, rest⟩ := i
  obtain ⟨offset', rest'⟩ := j
  simp only [Spans, List.nil_append, List.length_nil, Nat.add_zero, mk.injEq]
  exact ⟨fun ⟨hr, ho⟩ => ⟨ho, hr.symm⟩, fun ⟨ho, hr⟩ => ⟨hr.symm, ho⟩⟩

theorem spans_append {i j : Input} {ts us : List Token} :
    i.Spans (ts ++ us) j ↔ ∃ k : Input, i.Spans ts k ∧ k.Spans us j := by
  refine ⟨?_, ?_⟩
  · intro h
    obtain ⟨hr, ho⟩ := h
    refine ⟨⟨i.offset + ts.length, us ++ j.rest⟩, ⟨?_, rfl⟩, rfl, ?_⟩
    · rw [hr, List.append_assoc]
    · rw [ho, List.length_append, Nat.add_assoc]
  · intro h
    obtain ⟨k, ⟨hr, ho⟩, ⟨hr', ho'⟩⟩ := h
    refine ⟨?_, ?_⟩
    · rw [hr, hr', List.append_assoc]
    · rw [ho', ho, List.length_append, Nat.add_assoc]

@[simp] theorem spans_cons {i j : Input} {t : Token} {ts : List Token} :
    i.Spans (t :: ts) j ↔ i.rest.head? = some t ∧ i.tail.Spans ts j := by
  obtain ⟨offset, rest⟩ := i
  cases rest with
  | nil => simp [Spans]
  | cons u us =>
    simp only [Spans, tail, List.head?_cons, Option.some.injEq, List.cons_append, List.cons.injEq,
      List.length_cons, and_assoc]
    rw [Nat.add_right_comm offset 1, Nat.add_assoc offset]

end Input

namespace Rule

variable {α β : Type}

/-! ## Successful readings -/

/-- The rule reads `a` from the first input and stops at the second one. -/
def Yields (r : Rule α) (i : Input) (a : α) (j : Input) : Prop :=
  (r i).result = .ok a ∧ (r i).stop = j

@[simp] theorem yields_pure {a b : α} {i j : Input} :
    (Pure.pure a : Rule α).Yields i b j ↔ b = a ∧ j = i := by
  simp [Yields, eq_comm]

@[simp] theorem yields_skip {u : Unit} {i j : Input} : skip.Yields i u j ↔ j = i.tail := by
  simp [Yields, eq_comm]

@[simp] theorem yields_fail {e : ParseError} {a : α} {i j : Input} :
    ¬ (fail e : Rule α).Yields i a j := by
  simp [Yields]

@[simp] theorem yields_bind {first : Rule α} {next : α → Rule β} {i j : Input} {b : β} :
    (first >>= next).Yields i b j ↔ ∃ a k, first.Yields i a k ∧ (next a).Yields k b j := by
  cases h : (first i).result with
  | error e => simp [Yields, bind_of_error h, h]
  | ok a =>
    simp only [Yields, bind_of_ok h, h]
    refine ⟨?_, ?_⟩
    · intro hnext
      exact ⟨a, (first i).stop, ⟨rfl, rfl⟩, hnext⟩
    · intro h
      obtain ⟨a', k, ⟨ha, rfl⟩, hnext⟩ := h
      cases ha
      exact hnext

@[simp] theorem yields_look_bind {next : Option Token → Rule β} {i j : Input} {b : β} :
    (look >>= next).Yields i b j ↔ (next i.rest.head?).Yields i b j := Iff.rfl

@[simp] theorem yields_skip_bind {next : Unit → Rule β} {i j : Input} {b : β} :
    (skip >>= next).Yields i b j ↔ (next ()).Yields i.tail b j := Iff.rfl

@[simp] theorem yields_note_bind {step : Nat → Step} {next : Unit → Rule β} {i j : Input}
    {b : β} : (note step >>= next).Yields i b j ↔ (next ()).Yields i b j := Iff.rfl

theorem Yields.unique {r : Rule α} {i j j' : Input} {a a' : α} (h : r.Yields i a j)
    (h' : r.Yields i a' j') : a = a' ∧ j = j' :=
  ⟨Except.ok.inj (h.1.symm.trans h'.1), h.2.symm.trans h'.2⟩

/-! ## Literals, lists and operators -/

theorem yields_literal {place : LiteralPlace} {l : Literal} {i j : Input} :
    (literal place).Yields i l j ↔ i.Spans [.literal l] j := by
  rw [literal, yields_look_bind, Input.spans_cons, Input.spans_nil]
  rcases i.rest.head? with _ | (k | l')
  · simp
  · simp [Token.literal?]
  · simp only [Token.literal?, Option.bind_some, yields_skip_bind, yields_pure,
      Option.some.injEq, Token.literal.injEq]
    rw [eq_comm]

theorem yields_keyword {k : Keyword} {u : Unit} {i j : Input} :
    (keyword k).Yields i u j ↔ i.Spans [.keyword k] j := by
  rw [keyword, yields_look_bind, Input.spans_cons, Input.spans_nil]
  by_cases hi : i.rest.head? = some (.keyword k)
  · rw [if_pos hi]
    simp [hi]
  · rw [if_neg hi]
    simp [hi]

/-- The leading literals are those up to the first token that is none. -/
theorem leadingLiterals_eq_iff {tokens : List Token} {ls : List Literal} :
    leadingLiterals tokens = ls ↔ ∃ rest, tokens = ls.map Token.literal ++ rest ∧
      rest.head?.bind Token.literal? = none := by
  induction tokens generalizing ls with
  | nil => cases ls <;> simp [leadingLiterals]
  | cons t tokens ih =>
    cases t with
    | keyword k => cases ls <;> simp [leadingLiterals, Token.literal?]
    | literal l =>
      cases ls with
      | nil => simp [leadingLiterals, Token.literal?]
      | cons l' ls => simp [leadingLiterals, ih, and_assoc]

theorem yields_literals {ls : List Literal} {i j : Input} :
    literals.Yields i ls j ↔ i.Spans (ls.map Token.literal) j ∧
      j.rest.head?.bind Token.literal? = none := by
  simp only [Yields, literals, Except.ok.injEq]
  refine ⟨?_, ?_⟩
  · intro h
    obtain ⟨hls, rfl⟩ := h
    obtain ⟨rest, hrest, hstop⟩ := leadingLiterals_eq_iff.1 hls
    have hdrop : i.rest.drop ls.length = rest := by
      rw [hrest, ← List.length_map (f := Token.literal), List.drop_left]
    rw [hls, Input.Spans, hdrop, List.length_map]
    exact ⟨⟨hrest, rfl⟩, hstop⟩
  · intro h
    obtain ⟨⟨hr, ho⟩, hstop⟩ := h
    have hls : leadingLiterals i.rest = ls := leadingLiterals_eq_iff.2 ⟨j.rest, hr, hstop⟩
    have hdrop : i.rest.drop ls.length = j.rest := by
      rw [hr, ← List.length_map (f := Token.literal), List.drop_left]
    rw [List.length_map] at ho
    rw [hls, hdrop, ← ho]
    exact ⟨rfl, rfl⟩

theorem operator?_eq_some_iff {keywords : List Keyword} {t : Option Token} {op : BinaryOp} :
    operator? keywords t = some op ↔ t = some (.keyword op.keyword) ∧ op.keyword ∈ keywords := by
  refine ⟨?_, ?_⟩
  · intro h
    unfold operator? at h
    split at h
    · split at h
      · next hk =>
        obtain rfl := BinaryOp.ofKeyword?_eq_some_iff.1 h
        exact ⟨rfl, hk⟩
      · simp at h
    · simp at h
  · intro h
    obtain ⟨rfl, hk⟩ := h
    simp only [operator?, if_pos hk]
    exact BinaryOp.ofKeyword?_eq_some_iff.2 rfl

theorem yields_optional {keywords : List Keyword} {right : Rule Expr} {left e : Expr}
    {i j : Input} :
    (optional keywords right left).Yields i e j ↔
      (operator? keywords i.rest.head? = none ∧ e = left ∧ j = i) ∨
      ∃ op r, op.keyword ∈ keywords ∧ i.rest.head? = some (.keyword op.keyword) ∧
        e = .binary op left r ∧ right.Yields i.tail r j := by
  rw [optional, yields_look_bind]
  refine ⟨?_, ?_⟩
  · intro h
    cases hop : operator? keywords i.rest.head? with
    | none =>
      rw [hop] at h
      exact .inl ⟨rfl, yields_pure.1 h⟩
    | some op =>
      obtain ⟨ht, hk⟩ := operator?_eq_some_iff.1 hop
      rw [hop] at h
      simp only [yields_note_bind, yields_skip_bind] at h
      obtain ⟨r, k, hr, hpure⟩ := yields_bind.1 h
      obtain ⟨rfl, rfl⟩ := yields_pure.1 hpure
      exact .inr ⟨op, r, hk, ht, rfl, hr⟩
  · intro h
    rcases h with ⟨hop, rfl, rfl⟩ | ⟨op, r, hk, ht, rfl, hr⟩
    · rw [hop]
      exact yields_pure.2 ⟨rfl, rfl⟩
    · rw [operator?_eq_some_iff.2 ⟨ht, hk⟩]
      simp only [yields_note_bind, yields_skip_bind]
      exact yields_bind.2 ⟨r, j, hr, yields_pure.2 ⟨rfl, rfl⟩⟩

end Rule

/-! ## Extents -/

/-- The trees that a rule may read, each with a token before which it may stop. -/
abbrev Extent := Expr → Option Token → Prop

namespace Extent

/-- An operand stops after its last token, whatever comes next. -/
def operand (E : Extent) : Extent := fun e _ =>
  match e with
  | .literal _ => True
  | .list _ => True
  | .group inner => E inner (some (.keyword .closeGroup))
  | _ => False

/-- A literal stops after its token. -/
def comparand : Extent := fun e _ => ∃ l, e = .literal l

/-- A left operand stops where no operator comes next; else the right operand decides. -/
def optional (keywords : List Keyword) (L R : Extent) : Extent := fun e next =>
  (L e next ∧ Rule.operator? keywords next = none) ∨
    ∃ op left right, e = .binary op left right ∧ op.keyword ∈ keywords ∧
      L left (some (.keyword op.keyword)) ∧ R right next

def membership (E : Extent) : Extent := optional [.membership] (operand E) (operand E)

def comparison (E : Extent) : Extent := optional Rule.comparators (membership E) comparand

def junction (E : Extent) : Extent := optional Rule.junctions (comparison E) E

def clause (E : Extent) : Extent := optional [.filter] (junction E) E

/-- The extent of an expression that may open so many levels. -/
def expression : Nat → Extent
  | 0 => fun _ _ => False
  | levels + 1 => clause (expression levels)

end Extent

namespace Rule

/-- A rule reads just the trees of an extent, each up to the token before which it may stop. -/
def Reads (r : Rule Expr) (X : Extent) : Prop :=
  ∀ (i : Input) (e : Expr) (j : Input), r.Yields i e j ↔ i.Spans e.spell j ∧ X e j.rest.head?

variable {r left right : Rule Expr} {E L R : Extent}

theorem reads_note {step : Nat → Step} (h : r.Reads E) :
    Reads (do note step; r) E := by
  intro i e j
  rw [yields_note_bind]
  exact h i e j

theorem reads_comparand : comparand.Reads Extent.comparand := by
  intro i e j
  simp only [comparand, Extent.comparand, yields_bind, yields_literal, yields_pure]
  refine ⟨?_, ?_⟩
  · intro h
    obtain ⟨l, k, hl, rfl, rfl⟩ := h
    exact ⟨hl, l, rfl⟩
  · intro h
    obtain ⟨hl, l, rfl⟩ := h
    exact ⟨l, j, hl, rfl, rfl⟩

theorem yields_list {i j : Input} {e : Expr}
    (hi : i.rest.head? = some (.keyword .openList)) :
    list.Yields i e j ↔ ∃ items, e = .list items ∧ i.Spans (Expr.list items).spell j := by
  rw [list, yields_note_bind, yields_skip_bind]
  simp only [yields_bind, yields_literal, yields_literals, yields_keyword, yields_pure,
    Expr.spell_list, Input.spans_cons, Input.spans_nil]
  refine ⟨?_, ?_⟩
  · intro h
    obtain ⟨first, _, ⟨hfirst, rfl⟩, others, k, ⟨hothers, -⟩, _, _, ⟨hclose, rfl⟩, rfl, rfl⟩ := h
    refine ⟨⟨first, others⟩, rfl, hi, hfirst, ?_⟩
    rw [Input.spans_append]
    exact ⟨k, hothers, by simp [hclose]⟩
  · intro h
    obtain ⟨⟨first, others⟩, rfl, -, hfirst, hrest⟩ := h
    obtain ⟨k, hothers, hclose⟩ := Input.spans_append.1 hrest
    simp only [Input.spans_cons, Input.spans_nil] at hclose
    obtain ⟨hclose, rfl⟩ := hclose
    have hend : k.rest.head?.bind Token.literal? = none := by
      rw [hclose]
      rfl
    exact ⟨first, i.tail.tail, ⟨hfirst, rfl⟩, others, k, ⟨hothers, hend⟩, (), k.tail,
      ⟨hclose, rfl⟩, rfl, rfl⟩

theorem yields_group (h : r.Reads E) {i j : Input} {e : Expr}
    (hi : i.rest.head? = some (.keyword .openGroup)) :
    (group r).Yields i e j ↔ ∃ inner, e = .group inner ∧
      i.Spans (Expr.group inner).spell j ∧ E inner (some (.keyword .closeGroup)) := by
  rw [group, yields_note_bind, yields_skip_bind]
  simp only [yields_bind, yields_keyword, yields_pure, Expr.spell_group, Input.spans_cons,
    Input.spans_nil]
  refine ⟨?_, ?_⟩
  · intro he
    obtain ⟨inner, k, hinner, _, _, ⟨hclose, rfl⟩, rfl, rfl⟩ := he
    obtain ⟨hspan, hE⟩ := (h _ inner k).1 hinner
    refine ⟨inner, rfl, ⟨hi, ?_⟩, hclose ▸ hE⟩
    rw [Input.spans_append]
    exact ⟨k, hspan, by simp [hclose]⟩
  · intro he
    obtain ⟨inner, rfl, ⟨-, hrest⟩, hE⟩ := he
    obtain ⟨k, hspan, hclose⟩ := Input.spans_append.1 hrest
    simp only [Input.spans_cons, Input.spans_nil] at hclose
    obtain ⟨hclose, rfl⟩ := hclose
    have hinner : r.Yields i.tail inner k := (h _ inner k).2 ⟨hspan, hclose ▸ hE⟩
    exact ⟨inner, k, hinner, (), k.tail, ⟨hclose, rfl⟩, rfl, rfl⟩

theorem reads_operand (h : r.Reads E) : (operand r).Reads (Extent.operand E) := by
  intro i e j
  rw [operand, yields_look_bind]
  refine ⟨?_, ?_⟩
  · intro hr
    split at hr
    · next hi =>
      obtain ⟨items, rfl, hspan⟩ := (yields_list hi).1 hr
      exact ⟨hspan, trivial⟩
    · next hi =>
      obtain ⟨inner, rfl, hspan, hE⟩ := (yields_group h hi).1 hr
      exact ⟨hspan, hE⟩
    · simp only [yields_bind, yields_literal, yields_pure] at hr
      obtain ⟨l, k, hl, rfl, rfl⟩ := hr
      exact ⟨hl, trivial⟩
  · intro he
    obtain ⟨hspan, hE⟩ := he
    cases e with
    | literal l =>
      have hi : i.rest.head? = some (.literal l) := (Input.spans_cons.1 hspan).1
      simp only [hi, yields_bind, yields_literal, yields_pure]
      exact ⟨l, j, hspan, rfl, rfl⟩
    | list items =>
      have hi : i.rest.head? = some (.keyword .openList) := (Input.spans_cons.1 hspan).1
      simp only [hi]
      exact (yields_list hi).2 ⟨items, rfl, hspan⟩
    | group inner =>
      have hi : i.rest.head? = some (.keyword .openGroup) := (Input.spans_cons.1 hspan).1
      simp only [hi]
      exact (yields_group h hi).2 ⟨inner, rfl, hspan, hE⟩
    | junction => exact hE.elim
    | comparison => exact hE.elim
    | membership => exact hE.elim
    | filtered => exact hE.elim

theorem reads_optional {keywords : List Keyword} (hl : left.Reads L) (hr : right.Reads R) :
    Reads (do optional keywords right (← left)) (Extent.optional keywords L R) := by
  intro i e j
  simp only [yields_bind, yields_optional]
  refine ⟨?_, ?_⟩
  · intro h
    obtain ⟨l, k, hleft, hright⟩ := h
    obtain ⟨hspan, hL⟩ := (hl _ _ _).1 hleft
    rcases hright with ⟨hop, rfl, rfl⟩ | ⟨op, r, hk, ht, rfl, hright⟩
    · exact ⟨hspan, .inl ⟨hL, hop⟩⟩
    · obtain ⟨hspan', hR⟩ := (hr _ _ _).1 hright
      refine ⟨?_, .inr ⟨op, l, r, rfl, hk, ht ▸ hL, hR⟩⟩
      rw [Expr.spell_binary, Input.spans_append]
      exact ⟨k, hspan, Input.spans_cons.2 ⟨ht, hspan'⟩⟩
  · intro h
    obtain ⟨hspan, hX⟩ := h
    rcases hX with ⟨hL, hop⟩ | ⟨op, l, r, rfl, hk, hL, hR⟩
    · exact ⟨e, j, (hl _ _ _).2 ⟨hspan, hL⟩, .inl ⟨hop, rfl, rfl⟩⟩
    · rw [Expr.spell_binary, Input.spans_append] at hspan
      obtain ⟨k, hspan, hspan'⟩ := hspan
      obtain ⟨ht, hspan'⟩ := Input.spans_cons.1 hspan'
      have hleft : left.Yields i l k := (hl _ _ _).2 ⟨hspan, ht ▸ hL⟩
      have hright : right.Yields k.tail r j := (hr _ _ _).2 ⟨hspan', hR⟩
      exact ⟨l, k, hleft, .inr ⟨op, r, hk, ht, rfl, hright⟩⟩

theorem reads_membership (h : r.Reads E) : (membership r).Reads (Extent.membership E) :=
  reads_note (reads_optional (reads_operand h) (reads_operand h))

theorem reads_comparison (h : r.Reads E) : (comparison r).Reads (Extent.comparison E) :=
  reads_note (reads_optional (reads_membership h) reads_comparand)

theorem reads_junction (h : r.Reads E) : (junction r).Reads (Extent.junction E) :=
  reads_note (reads_optional (reads_comparison h) h)

theorem reads_clause (h : r.Reads E) : (clause r).Reads (Extent.clause E) :=
  reads_note (reads_optional (reads_junction h) h)

/-- **What an expression reads.** -/
theorem reads_expression (levels : Nat) : (expression levels).Reads (Extent.expression levels) := by
  induction levels with
  | zero =>
    intro i e j
    simp [expression, Extent.expression]
  | succ levels ih => exact reads_note (reads_clause ih)

end Rule

end FactQuery
