import FactQuery.Proofs.Extent

/-!
# Reading inverts spelling

The parser and the spelling of trees are inverse to each other. A token sequence is read as a tree
exactly if the tree is canonical, its spelling is the sequence and its levels are within the limit.

The extents of `Extent.lean` say so for every rule, but speak of the next token. An expression of
the language is followed by a closing parenthesis or by nothing (`Closes`). There no operator goes
on, and the extent of an expression is the set of canonical trees of bounded depth
(`Extent.expression_iff`).
-/

namespace FactQuery

/-! ## The keywords of each class of operators -/

namespace BinaryOp

theorem keyword_eq_membership_iff {op : BinaryOp} :
    op.keyword ∈ [Keyword.membership] ↔ op = .membership := by
  rcases op with (_ | _) | (_ | _ | _ | _ | _ | _) | _ | _ <;> decide

theorem keyword_eq_filter_iff {op : BinaryOp} :
    op.keyword ∈ [Keyword.filter] ↔ op = .filter := by
  rcases op with (_ | _) | (_ | _ | _ | _ | _ | _) | _ | _ <;> decide

theorem keyword_mem_comparators_iff {op : BinaryOp} :
    op.keyword ∈ Rule.comparators ↔ ∃ c, op = .comparison c := by
  rcases op with (_ | _) | (_ | _ | _ | _ | _ | _) | _ | _ <;> simp [keyword, Rule.comparators]

theorem keyword_mem_junctions_iff {op : BinaryOp} :
    op.keyword ∈ Rule.junctions ↔ ∃ c, op = .junction c := by
  rcases op with (_ | _) | (_ | _ | _ | _ | _ | _) | _ | _ <;> simp [keyword, Rule.junctions]

end BinaryOp

/-! ## Extents, phrase by phrase -/

namespace Extent

variable {E : Extent} {e : Expr} {next : Option Token}

theorem membership_iff :
    membership E e next ↔ (operand E e next ∧ Rule.operator? [.membership] next = none) ∨
      ∃ left right, e = .membership left right ∧ operand E left next ∧ operand E right next := by
  simp only [membership, optional, BinaryOp.keyword_eq_membership_iff]
  refine ⟨?_, ?_⟩
  · intro h
    rcases h with h | ⟨op, left, right, rfl, rfl, hl, hr⟩
    · exact .inl h
    · exact .inr ⟨left, right, rfl, hl, hr⟩
  · intro h
    rcases h with h | ⟨left, right, rfl, hl, hr⟩
    · exact .inl h
    · exact .inr ⟨.membership, left, right, rfl, rfl, hl, hr⟩

theorem comparison_iff :
    comparison E e next ↔ (membership E e next ∧ Rule.operator? Rule.comparators next = none) ∨
      ∃ op left l, e = .comparison op left (.literal l) ∧
        membership E left (some (.keyword (BinaryOp.comparison op).keyword)) := by
  simp only [comparison, optional, BinaryOp.keyword_mem_comparators_iff, comparand]
  refine ⟨?_, ?_⟩
  · intro h
    rcases h with h | ⟨_, left, _, rfl, ⟨op, rfl⟩, hl, l, rfl⟩
    · exact .inl h
    · exact .inr ⟨op, left, l, rfl, hl⟩
  · intro h
    rcases h with h | ⟨op, left, l, rfl, hl⟩
    · exact .inl h
    · exact .inr ⟨.comparison op, left, .literal l, rfl, ⟨op, rfl⟩, hl, l, rfl⟩

theorem junction_iff :
    junction E e next ↔ (comparison E e next ∧ Rule.operator? Rule.junctions next = none) ∨
      ∃ op left right, e = .junction op left right ∧
        comparison E left (some (.keyword (BinaryOp.junction op).keyword)) ∧ E right next := by
  simp only [junction, optional, BinaryOp.keyword_mem_junctions_iff]
  refine ⟨?_, ?_⟩
  · intro h
    rcases h with h | ⟨_, left, right, rfl, ⟨op, rfl⟩, hl, hr⟩
    · exact .inl h
    · exact .inr ⟨op, left, right, rfl, hl, hr⟩
  · intro h
    rcases h with h | ⟨op, left, right, rfl, hl, hr⟩
    · exact .inl h
    · exact .inr ⟨.junction op, left, right, rfl, ⟨op, rfl⟩, hl, hr⟩

theorem clause_iff :
    clause E e next ↔ (junction E e next ∧ Rule.operator? [.filter] next = none) ∨
      ∃ subject condition, e = .filtered subject condition ∧
        junction E subject (some (.keyword .filter)) ∧ E condition next := by
  simp only [clause, optional, BinaryOp.keyword_eq_filter_iff]
  refine ⟨?_, ?_⟩
  · intro h
    rcases h with h | ⟨_, subject, condition, rfl, rfl, hs, hc⟩
    · exact .inl h
    · exact .inr ⟨subject, condition, rfl, hs, hc⟩
  · intro h
    rcases h with h | ⟨subject, condition, rfl, hs, hc⟩
    · exact .inl h
    · exact .inr ⟨.filter, subject, condition, rfl, rfl, hs, hc⟩

/-- An expression goes on at a filter: it takes the filter as its own, or its last operand does. -/
theorem not_expression_filter (levels : Nat) :
    ¬ expression levels e (some (.keyword .filter)) := by
  induction levels generalizing e with
  | zero => exact id
  | succ levels ih =>
    intro h
    rcases clause_iff.1 h with ⟨-, hop⟩ | ⟨subject, condition, rfl, -, hc⟩
    · simp [Rule.operator?, BinaryOp.ofKeyword?] at hop
    · exact ih hc

/-! ## Extents before a closing token -/

/-- Nothing more, or a closing parenthesis. -/
def Closes (next : Option Token) : Prop := next = none ∨ next = some (.keyword .closeGroup)

theorem Closes.operator? (h : Closes next) (keywords : List Keyword) :
    Rule.operator? keywords next = none := by
  rcases h with rfl | rfl <;> simp [Rule.operator?, BinaryOp.ofKeyword?]

section
variable {levels : Nat} (hE : ∀ e next, Closes next →
  (E e next ↔ Expr.Canonical .expression e ∧ e.opens < levels))
include hE

theorem operand_iff_canonical :
    operand E e next ↔ Expr.Canonical .operand e ∧ e.opens ≤ levels := by
  refine ⟨?_, ?_⟩
  · intro h
    cases e with
    | literal l => exact ⟨.literal l, Nat.zero_le levels⟩
    | list items => exact ⟨.list items, Nat.zero_le levels⟩
    | group inner =>
      obtain ⟨hc, ho⟩ := (hE inner _ (.inr rfl)).1 h
      refine ⟨.group hc, ?_⟩
      rw [Expr.opens]
      omega
    | junction => exact h.elim
    | comparison => exact h.elim
    | membership => exact h.elim
    | filtered => exact h.elim
  · intro h
    obtain ⟨h, ho⟩ := h
    cases h with
    | literal => exact trivial
    | list => exact trivial
    | @group inner hc =>
      rw [Expr.opens] at ho
      exact (hE inner _ (.inr rfl)).2 ⟨hc, by omega⟩

theorem membership_iff_canonical (hin : Rule.operator? [.membership] next = none) :
    membership E e next ↔ Expr.Canonical .membership e ∧ e.opens ≤ levels := by
  simp only [membership_iff, operand_iff_canonical hE]
  refine ⟨?_, ?_⟩
  · intro h
    rcases h with ⟨⟨h, ho⟩, -⟩ | ⟨left, right, rfl, ⟨hl, hlo⟩, hr, hro⟩
    · exact ⟨.ofOperand h, ho⟩
    · exact ⟨.membership hl hr, Nat.max_le.2 ⟨hlo, hro⟩⟩
  · intro h
    obtain ⟨h, ho⟩ := h
    cases h with
    | ofOperand h => exact .inl ⟨⟨h, ho⟩, hin⟩
    | membership hl hr =>
      obtain ⟨hlo, hro⟩ := Nat.max_le.1 ho
      exact .inr ⟨_, _, rfl, ⟨hl, hlo⟩, hr, hro⟩

theorem comparison_iff_canonical (hin : Rule.operator? [.membership] next = none)
    (hcmp : Rule.operator? Rule.comparators next = none) :
    comparison E e next ↔ Expr.Canonical .comparison e ∧ e.opens ≤ levels := by
  have hleft (op : Comparator) (left : Expr) :
      membership E left (some (.keyword (BinaryOp.comparison op).keyword)) ↔
        Expr.Canonical .membership left ∧ left.opens ≤ levels :=
    membership_iff_canonical hE (by cases op <;> rfl)
  simp only [comparison_iff, membership_iff_canonical hE hin, hleft]
  refine ⟨?_, ?_⟩
  · intro h
    rcases h with ⟨⟨h, ho⟩, -⟩ | ⟨op, left, l, rfl, h, ho⟩
    · exact ⟨.ofMembership h, ho⟩
    · exact ⟨.comparison op h l, Nat.max_le.2 ⟨ho, Nat.zero_le levels⟩⟩
  · intro h
    obtain ⟨h, ho⟩ := h
    cases h with
    | ofMembership h => exact .inl ⟨⟨h, ho⟩, hcmp⟩
    | comparison op h l => exact .inr ⟨op, _, l, rfl, h, (Nat.max_le.1 ho).1⟩

end

/-- **Expressions before a closing token** are the canonical ones that open less than the levels
there are. -/
theorem expression_iff {levels : Nat} (h : Closes next) :
    expression levels e next ↔ Expr.Canonical .expression e ∧ e.opens < levels := by
  induction levels generalizing e next with
  | zero => simp [expression]
  | succ levels ih =>
    have hE (e : Expr) (next : Option Token) (h : Closes next) := ih (e := e) h
    have hcomparison {e : Expr} {next : Option Token}
        (hin : Rule.operator? [.membership] next = none)
        (hcmp : Rule.operator? Rule.comparators next = none) :
        comparison (expression levels) e next ↔
          Expr.Canonical .comparison e ∧ e.opens ≤ levels :=
      comparison_iff_canonical hE hin hcmp
    have hjunction (op : Junction) (left : Expr) :
        comparison (expression levels) left (some (.keyword (BinaryOp.junction op).keyword)) ↔
          Expr.Canonical .comparison left ∧ left.opens ≤ levels :=
      hcomparison (by cases op <;> rfl) (by cases op <;> rfl)
    rw [expression, clause_iff]
    simp only [junction_iff, hcomparison (h.operator? _) (h.operator? _)]
    refine ⟨?_, ?_⟩
    · intro he
      rcases he with ⟨hj, -⟩ | ⟨subject, condition, rfl, hj, hc⟩
      · rcases hj with ⟨⟨hc, ho⟩, -⟩ | ⟨op, left, right, rfl, hl, hr⟩
        · exact ⟨.ofComparison hc, by omega⟩
        · obtain ⟨hl, hlo⟩ := (hjunction op left).1 hl
          obtain ⟨hr, hro⟩ := (ih h).1 hr
          refine ⟨.junction op hl hr, ?_⟩
          rw [Expr.opens]
          omega
      · rcases hj with ⟨hs, -⟩ | ⟨op, left, right, rfl, -, hr⟩
        · obtain ⟨hs, hso⟩ := (hcomparison rfl rfl).1 hs
          obtain ⟨hc, hco⟩ := (ih h).1 hc
          refine ⟨.filtered hs hc, ?_⟩
          rw [Expr.opens]
          omega
        · -- The right operand would have taken the filter.
          exact absurd hr (not_expression_filter levels)
    · intro he
      obtain ⟨hc, ho⟩ := he
      cases hc with
      | ofComparison hc =>
        exact .inl ⟨.inl ⟨⟨hc, by omega⟩, h.operator? _⟩, h.operator? _⟩
      | @junction op left right hl hr =>
        rw [Expr.opens] at ho
        have hleft := (hjunction op left).2 ⟨hl, by omega⟩
        have hright := (ih h).2 ⟨hr, by omega⟩
        exact .inl ⟨.inr ⟨op, left, right, rfl, hleft, hright⟩, h.operator? _⟩
      | @filtered subject condition hs hc =>
        rw [Expr.opens] at ho
        have hsubject : comparison (expression levels) subject (some (.keyword .filter)) :=
          (hcomparison rfl rfl).2 ⟨hs, by omega⟩
        have hcondition := (ih h).2 ⟨hc, by omega⟩
        exact .inr ⟨subject, condition, rfl, .inl ⟨hsubject, rfl⟩, hcondition⟩

end Extent

/-! ## Canonical trees before a closing token -/

namespace Expr.Canonical

theorem yields {e : Expr} {levels : Nat} {us : List Token} (h : Canonical .expression e)
    (ho : e.opens < levels) (hus : Extent.Closes us.head?) (offset : Nat) :
    (Rule.expression levels).Yields ⟨offset, e.spell ++ us⟩ e ⟨offset + e.spell.length, us⟩ := by
  have hspan : Input.Spans ⟨offset, e.spell ++ us⟩ e.spell ⟨offset + e.spell.length, us⟩ :=
    ⟨rfl, rfl⟩
  have hX : Extent.expression levels e us.head? := (Extent.expression_iff hus).2 ⟨h, ho⟩
  exact (Rule.reads_expression levels _ _ _).2 ⟨hspan, hX⟩

/-- Before a closing token, a canonical tree is determined by the tokens that begin with it. -/
theorem eq_of_append_eq {e e' : Expr} {us us' : List Token} (h : Canonical .expression e)
    (h' : Canonical .expression e') (hus : Extent.Closes us.head?)
    (hus' : Extent.Closes us'.head?) (heq : e.spell ++ us = e'.spell ++ us') :
    e = e' ∧ us = us' := by
  have ho : e.opens < e.opens + e'.opens + 1 := by omega
  have ho' : e'.opens < e.opens + e'.opens + 1 := by omega
  have hread := h.yields ho hus 0
  have hread' := h'.yields ho' hus' 0
  rw [heq] at hread
  obtain ⟨he, hstop⟩ := hread.unique hread'
  exact ⟨he, congrArg Input.rest hstop⟩

theorem eq_of_spell_eq {e e' : Expr} (h : Canonical .expression e) (h' : Canonical .expression e')
    (hs : e.spell = e'.spell) : e = e' := by
  have heq : e.spell ++ [] = e'.spell ++ [] := by rw [hs]
  exact (h.eq_of_append_eq h' (.inl rfl) (.inl rfl) heq).1

end Expr.Canonical

/-! ## Whole token sequences -/

namespace Rule

theorem yields_complete {levels : Nat} {i j : Input} {e : Expr} :
    (complete levels).Yields i e j ↔ (expression levels).Yields i e j ∧ j.rest = [] := by
  rw [complete, yields_bind]
  refine ⟨?_, ?_⟩
  · intro h
    obtain ⟨e', k, he, h⟩ := h
    rw [yields_look_bind] at h
    cases hk : k.rest with
    | nil =>
      simp only [hk, List.head?_nil, yields_pure] at h
      obtain ⟨rfl, rfl⟩ := h
      exact ⟨he, hk⟩
    | cons t rest => simp [hk] at h
  · intro h
    obtain ⟨he, hj⟩ := h
    refine ⟨e, j, he, ?_⟩
    rw [yields_look_bind, hj]
    exact yields_pure.2 ⟨rfl, rfl⟩

/-- With so many levels, just the canonical trees that open fewer are read from their spelling. -/
theorem complete_eq_ok_iff {levels : Nat} {tokens : List Token} {e : Expr} :
    (complete levels ⟨0, tokens⟩).result = .ok e ↔
      Expr.Canonical .expression e ∧ e.spell = tokens ∧ e.opens < levels := by
  refine ⟨?_, ?_⟩
  · intro h
    obtain ⟨he, hj⟩ := yields_complete.1 ⟨h, rfl⟩
    obtain ⟨⟨hspell, -⟩, hX⟩ := (reads_expression levels _ _ _).1 he
    rw [hj, List.append_nil] at hspell
    rw [hj] at hX
    obtain ⟨hc, ho⟩ := (Extent.expression_iff (.inl rfl)).1 hX
    exact ⟨hc, hspell.symm, ho⟩
  · intro h
    obtain ⟨hc, rfl, ho⟩ := h
    have hnil : Extent.Closes ([] : List Token).head? := .inl rfl
    have he := hc.yields ho hnil 0
    rw [List.append_nil] at he
    exact (yields_complete.2 ⟨he, rfl⟩).1

end Rule

namespace Expr

/-- **Reading inverts spelling.** A token sequence is read as a tree exactly if the tree is
canonical, it spells the sequence, and it opens less than the levels that an expression may open,
one of which is its own. -/
theorem ofTokens_eq_ok_iff_spell (tokens : List Token) (e : Expr) :
    ofTokens tokens = .ok e ↔
      Canonical .expression e ∧ e.spell = tokens ∧ e.opens ≤ maxNesting - 1 := by
  have hlimit : e.opens ≤ maxNesting - 1 ↔ e.opens < maxNesting := by
    simp only [maxNesting]
    omega
  rw [hlimit]
  exact Rule.complete_eq_ok_iff

end Expr

end FactQuery
