import FactQuery.Proofs.Descent
import FactQuery.Proofs.RoundTrip

/-!
# Where a phrase leaves the cursor

**Theorem (`read_leaves_cursor`).** A phrase that is read leaves the cursor on its last token, or
behind it for the phrases that let the reader look at what follows (`Phrase.stopsAfter`). From where
the cursor was to that token, the tokens are the spelling of the tree. An operator that the phrase
would have taken does not come next (`Phrase.Leaves`), unless the phrase has had one of its class.

The extents of the rules hold all of this but the place of the cursor (`Phrase.reads`). That the
place is right for every single move on the way is `Phrase.descent_eq_read`.
-/

namespace FactQuery

/-! ## What comes next -/

namespace Extent

variable {E : Extent} {e : Expr} {next : Option Token} {levels : Nat}

theorem membership_next (h : membership E e next) :
    Rule.operator? [.membership] next = none ∨ ∃ left right, e = .membership left right := by
  rcases membership_iff.1 h with ⟨-, hop⟩ | ⟨left, right, he, -, -⟩
  · exact .inl hop
  · exact .inr ⟨left, right, he⟩

theorem comparison_next (h : comparison E e next) :
    Rule.operator? Rule.comparators next = none ∨
      ∃ op left right, e = .comparison op left right := by
  rcases comparison_iff.1 h with ⟨-, hop⟩ | ⟨op, left, l, he, -⟩
  · exact .inl hop
  · exact .inr ⟨op, left, .literal l, he⟩

/-- An expression takes every junction and filter that comes next, itself or by its last operand. -/
theorem expression_next (h : expression levels e next) :
    Rule.operator? Rule.junctions next = none ∧ Rule.operator? [.filter] next = none := by
  induction levels generalizing e with
  | zero => exact h.elim
  | succ levels ih =>
    rcases clause_iff.1 h with ⟨hj, hfilter⟩ | ⟨_, _, -, -, hc⟩
    · rcases junction_iff.1 hj with ⟨-, hop⟩ | ⟨_, _, _, -, -, hr⟩
      · exact ⟨hop, hfilter⟩
      · exact ih hr
    · exact ih hc

theorem junction_next (h : junction (expression levels) e next) :
    Rule.operator? Rule.junctions next = none := by
  rcases junction_iff.1 h with ⟨-, hop⟩ | ⟨_, _, _, -, -, hr⟩
  · exact hop
  · exact (expression_next hr).1

end Extent

theorem Rule.ne_keyword_of_operator? {keywords : List Keyword} {next : Option Token}
    (h : operator? keywords next = none) (op : BinaryOp) (hk : op.keyword ∈ keywords) :
    next ≠ some (.keyword op.keyword) := by
  intro hnext
  rw [operator?_eq_some_iff.2 ⟨hnext, hk⟩] at h
  cases h

namespace Phrase

/-- What may come after a tree of a phrase. -/
def Leaves : Phrase → Expr → Option Token → Prop
  | .complete, _, next => next = none
  | .expression, _, next | .clause, _, next =>
    next ≠ some (.keyword .conjunction) ∧ next ≠ some (.keyword .disjunction) ∧
      next ≠ some (.keyword .filter)
  | .junction, _, next =>
    next ≠ some (.keyword .conjunction) ∧ next ≠ some (.keyword .disjunction)
  | .comparison, e, next =>
    (∃ op left right, e = .comparison op left right) ∨
      ∀ op : Comparator, next ≠ some (.keyword (BinaryOp.comparison op).keyword)
  | .membership, e, next =>
    (∃ left right, e = .membership left right) ∨ next ≠ some (.keyword .membership)
  | .operand, _, _ | .literal, _, _ => True

/-- The extent of the rule of a phrase. -/
def extent (levels : Nat) : Phrase → Extent
  | .complete => fun e next => Extent.expression levels e next ∧ next = none
  | .expression => .expression levels
  | .clause => .clause (.expression levels)
  | .junction => .junction (.expression levels)
  | .comparison => .comparison (.expression levels)
  | .membership => .membership (.expression levels)
  | .operand => .operand (.expression levels)
  | .literal => .comparand

theorem reads (phrase : Phrase) (levels : Nat) :
    (phrase.rule levels).Reads (phrase.extent levels) := by
  have hr := Rule.reads_expression levels
  cases phrase with
  | complete =>
    intro i e j
    rw [rule, Rule.yields_complete, hr, and_assoc, ← List.head?_eq_none_iff]
    rfl
  | expression => exact hr
  | clause => exact Rule.reads_clause hr
  | junction => exact Rule.reads_junction hr
  | comparison => exact Rule.reads_comparison hr
  | membership => exact Rule.reads_membership hr
  | operand => exact Rule.reads_operand hr
  | literal => exact Rule.reads_comparand

variable {levels : Nat} {e : Expr} {next : Option Token}

theorem ne_junction (h : Rule.operator? Rule.junctions next = none) :
    next ≠ some (.keyword .conjunction) ∧ next ≠ some (.keyword .disjunction) :=
  ⟨Rule.ne_keyword_of_operator? h (.junction .and) (by decide),
    Rule.ne_keyword_of_operator? h (.junction .or) (by decide)⟩

theorem leaves_expression (h : Extent.expression levels e next) :
    next ≠ some (.keyword .conjunction) ∧ next ≠ some (.keyword .disjunction) ∧
      next ≠ some (.keyword .filter) := by
  obtain ⟨hjunction, hfilter⟩ := Extent.expression_next h
  obtain ⟨hand, hor⟩ := ne_junction hjunction
  exact ⟨hand, hor, Rule.ne_keyword_of_operator? hfilter .filter (by decide)⟩

theorem leaves {phrase : Phrase} (h : phrase.extent levels e next) : phrase.Leaves e next := by
  cases phrase with
  | complete => exact h.2
  | expression => exact leaves_expression h
  | clause =>
    have hx : Extent.expression (levels + 1) e next := h
    exact leaves_expression hx
  | junction => exact ne_junction (Extent.junction_next h)
  | comparison =>
    rcases Extent.comparison_next h with hop | he
    · exact .inr fun op => Rule.ne_keyword_of_operator? hop (.comparison op)
        (BinaryOp.keyword_mem_comparators_iff.2 ⟨op, rfl⟩)
    · exact .inl he
  | membership =>
    rcases Extent.membership_next h with hop | he
    · exact .inr (Rule.ne_keyword_of_operator? hop .membership (by decide))
    · exact .inl he
  | operand => trivial
  | literal => trivial

end Phrase

/-! ## Where the cursor is left -/

theorem Cursor.read_eq_ok_iff {phrase : Phrase} {c stop : Cursor} {e : Expr} :
    c.read phrase = (.ok e, stop) ↔ ∃ j, (phrase.rule maxNesting).Yields c.input e j ∧
      stop = c.moveTo (if phrase.stopsAfter then j.offset else j.offset - 1) := by
  refine ⟨?_, ?_⟩
  · intro h
    cases hres : (phrase.rule maxNesting c.input).result with
    | error e' => simp [Cursor.read, hres] at h
    | ok e' =>
      simp only [Cursor.read, hres, Prod.mk.injEq, Except.ok.injEq] at h
      obtain ⟨rfl, rfl⟩ := h
      exact ⟨_, ⟨hres, rfl⟩, rfl⟩
  · intro h
    obtain ⟨j, ⟨hres, rfl⟩, rfl⟩ := h
    simp only [Cursor.read, hres]

theorem Cursor.place_of_spans {c : Cursor} {j : Input} {ts : List Token}
    (h : c.input.Spans ts j) :
    j.offset = c.index + ts.length ∧ j.offset ≤ c.tokens.length ∧
      c.tokens.extract c.index j.offset = ts ∧ j.rest.head? = c.tokens[j.offset]? := by
  have hj : j.IsOf c.tokens := c.isOf_input.spans h
  obtain ⟨hrest, hoffset⟩ := h
  refine ⟨hoffset, hj.1, ?_, ?_⟩
  · have htake : j.offset - c.index = ts.length := by
      rw [hoffset]
      exact Nat.add_sub_cancel_left ..
    have hdrop : c.tokens.drop c.index = ts ++ j.rest := hrest
    rw [List.extract_eq_take_drop, htake, hdrop, List.take_left]
  · rw [hj.2, List.head?_drop]

/-- **Where a phrase leaves the cursor.** A phrase that is read starts before the end. Its spelling
reaches from there to the token the cursor is left on, or to the one before it. Single moves get to
the same place. -/
theorem read_leaves_cursor {phrase : Phrase} {c stop : Cursor} {e : Expr}
    (h : c.read phrase = (.ok e, stop)) :
    c.index < c.tokens.length ∧ stop.tokens = c.tokens ∧
    (phrase.stopsAfter = false →
      c.index ≤ stop.index ∧ stop.index < c.tokens.length ∧
        c.tokens.extract c.index (stop.index + 1) = e.spell ∧
        phrase.Leaves e c.tokens[stop.index + 1]?) ∧
    (phrase.stopsAfter = true →
      c.index < stop.index ∧ stop.index ≤ c.tokens.length ∧
        c.tokens.extract c.index stop.index = e.spell ∧
        phrase.Leaves e c.tokens[stop.index]?) ∧
    ∀ steps, ∃ more, phrase.descent ⟨c, 0, steps⟩ = .ok e ⟨stop, 0, more⟩ := by
  obtain ⟨j, hyields, hstop⟩ := Cursor.read_eq_ok_iff.1 h
  obtain ⟨hspan, hX⟩ := (phrase.reads maxNesting _ _ _).1 hyields
  obtain ⟨hoffset, hle, hextract, hhead⟩ := Cursor.place_of_spans hspan
  have hpos : 0 < e.spell.length := List.length_pos_iff.2 e.spell_ne_nil
  have hleaves : phrase.Leaves e c.tokens[j.offset]? := hhead ▸ Phrase.leaves hX
  refine ⟨by omega, ?_, ?_, ?_, ?_⟩
  · rw [hstop]
    rfl
  · intro hon
    have hindex : stop.index + 1 = j.offset := by
      simp only [hstop, hon, Cursor.moveTo, Bool.false_eq_true, if_false]
      omega
    rw [hindex]
    exact ⟨by omega, by omega, hextract, hleaves⟩
  · intro hbehind
    have hindex : stop.index = j.offset := by
      simp only [hstop, hbehind, Cursor.moveTo, if_true]
      omega
    rw [hindex]
    exact ⟨by omega, hle, hextract, hleaves⟩
  · intro steps
    rw [phrase.descent_eq_read, h]
    exact ⟨_, rfl⟩

/-- In `a in [b c] > d`, read from the first token on, a membership phrase leaves the cursor on the
closing bracket. -/
theorem read_leaves_cursor_list :
    let tokens : List Token :=
      [.literal (.word "a"), .keyword .membership, .keyword .openList, .literal (.word "b"),
       .literal (.word "c"), .keyword .closeList, .keyword .greater, .literal (.word "d")]
    let e : Expr := .membership (.literal (.word "a")) (.list ⟨.word "b", [.word "c"]⟩)
    let c : Cursor := .ofTokens tokens
    c.read .membership = (.ok e, c.moveTo 5) ∧ tokens.extract 0 6 = e.spell ∧
      ∃ more, Phrase.membership.descent ⟨c, 0, []⟩ = .ok e ⟨c.moveTo 5, 0, more⟩ := by
  intro tokens e c
  have hread : c.read .membership = (.ok e, c.moveTo 5) := by cbv
  obtain ⟨-, -, hon, -, hdescent⟩ := read_leaves_cursor hread
  obtain ⟨-, -, hspell, -⟩ := hon rfl
  exact ⟨hread, hspell, hdescent []⟩

end FactQuery
