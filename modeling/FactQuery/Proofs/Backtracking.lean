import FactQuery.Proofs.CursorConvention

/-!
# An operator that is not there

An optional operator is looked for one token on. If it is not there, the cursor is moved back by one
token. Both moves stop at the ends of the tokens, so the second one does not always undo the first.

**Theorem (`optional_absent`).** Whatever was read before, the left operand comes back alone. The
cursor is where it was, except that a cursor behind the last token is left on that token.

**Inside the grammar** the exception does not arise: where an operator is looked for and the cursor
restored, the left operand has left the cursor on its last token (`read_then_operator_absent`).
-/

namespace FactQuery

namespace Cursor

theorem next_back (c : Cursor) : c.next.back = c.moveTo (min c.index (c.tokens.length - 1)) := by
  have hindex : min (c.index + 1) c.tokens.length - 1 = min c.index (c.tokens.length - 1) := by
    omega
  show c.moveTo (min (c.index + 1) c.tokens.length - 1) = _
  rw [hindex]

/-- The two moves undo each other before the end, and where there is no token at all. -/
theorem next_back_eq_self_iff (c : Cursor) :
    c.next.back = c ↔ c.index < c.tokens.length ∨ c.tokens = [] := by
  have hle := c.index_le
  rw [next_back, ← List.length_eq_zero_iff]
  refine ⟨?_, ?_⟩
  · intro h
    have hindex : min (min c.index (c.tokens.length - 1)) c.tokens.length = c.index :=
      congrArg index h
    omega
  · intro h
    have hindex : min c.index (c.tokens.length - 1) = c.index := by omega
    rw [hindex, moveTo_index]

end Cursor

/-- **An operator that is not there.** The look for it succeeds with the left operand in every state
and takes no step. The cursor is restored exactly if it stood at a token or there are no tokens;
from behind the last token it is moved onto that token. -/
theorem optional_absent {s : Descent.State} {keywords : List Keyword}
    (h : Rule.operator? keywords s.cursor.next.current? = none) (left : Expr)
    (right : Descent Expr) :
    ∃ stop : Cursor,
      Descent.optional keywords right true left s = .ok left { s with cursor := stop } ∧
      (∀ phrase, s.cursor.operator keywords left phrase true = (.ok left, stop)) ∧
      stop.tokens = s.cursor.tokens ∧
      stop.index = min s.cursor.index (s.cursor.tokens.length - 1) ∧
      (stop = s.cursor ↔ s.cursor.index < s.cursor.tokens.length ∨ s.cursor.tokens = []) := by
  refine ⟨s.cursor.next.back, ?_, ?_, rfl, ?_, s.cursor.next_back_eq_self_iff⟩
  · simp only [Descent.optional, Descent.next, Descent.current, Descent.back, modify, modifyGet,
      MonadStateOf.modifyGet, EStateM.modifyGet, get, getThe, MonadStateOf.get, EStateM.get,
      bind, EStateM.bind, pure, EStateM.pure, h, if_true]
  · intro phrase
    simp only [Cursor.operator, h, if_true]
  · rw [Cursor.next_back]
    show min (min s.cursor.index (s.cursor.tokens.length - 1)) s.cursor.tokens.length = _
    omega

/-- At the `b` of `a && b` no operator of a filter comes next, and the cursor stays there. -/
theorem optional_absent_last :
    let tokens : List Token :=
      [.literal (.word "a"), .keyword .conjunction, .literal (.word "b")]
    let s : Descent.State := ⟨(Cursor.ofTokens tokens).moveTo 2, 0, []⟩
    let left : Expr := .literal (.word "b")
    Rule.operator? [.filter] s.cursor.next.current? = none ∧
      Descent.optional [.filter] Phrase.expression.descent true left s = .ok left s := by
  intro tokens s left
  have h : Rule.operator? [.filter] s.cursor.next.current? = none := rfl
  obtain ⟨stop, hrun, -, -, -, hrestored⟩ :=
    optional_absent h left Phrase.expression.descent
  have hstop : stop = s.cursor := hrestored.2 (.inl (by decide))
  rw [hstop] at hrun
  exact ⟨h, hrun⟩

/-- The one token `a` is read as an expression, which leaves the cursor behind it. The look for a
conjunction there, which is to restore the cursor, leaves it on `a`. -/
theorem operator_absent_at_end :
    let a : Expr := .literal (.word "a")
    let c : Cursor := .ofTokens [.literal (.word "a")]
    c.read .expression = (.ok a, c.moveTo 1) ∧
      Rule.operator? [.conjunction] (c.moveTo 1).next.current? = none ∧
      (c.moveTo 1).operator [.conjunction] a .expression true = (.ok a, c.moveTo 0) ∧
      (c.moveTo 0).index ≠ (c.moveTo 1).index := by
  intro a c
  exact ⟨by cbv, rfl, rfl, by decide⟩

/-! ## Inside the grammar -/

/-- **After a phrase that is left on its last token** an operator that is not there restores the
cursor. -/
theorem read_then_operator_absent {phrase : Phrase} {c stop : Cursor} {e : Expr}
    (h : c.read phrase = (.ok e, stop)) (hon : phrase.stopsAfter = false)
    {keywords : List Keyword} (habsent : Rule.operator? keywords stop.next.current? = none)
    (right : Phrase) : stop.operator keywords e right true = (.ok e, stop) := by
  obtain ⟨j, hyields, hstop⟩ := Cursor.read_eq_ok_iff.1 h
  obtain ⟨hspan, -⟩ := (phrase.reads maxNesting _ _ _).1 hyields
  obtain ⟨hoffset, hle, -, -⟩ := Cursor.place_of_spans hspan
  have hpos : 0 < e.spell.length := List.length_pos_iff.2 e.spell_ne_nil
  have hlast : stop.index < stop.tokens.length := by
    simp only [hstop, hon, Bool.false_eq_true, if_false, Cursor.moveTo]
    omega
  have hback : stop.next.back = stop := stop.next_back_eq_self_iff.2 (.inl hlast)
  simp only [Cursor.operator, habsent, if_true, hback]

end FactQuery
