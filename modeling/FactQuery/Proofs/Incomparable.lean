import FactQuery.Evaluation.Basic
import FactQuery.Proofs.Coherence

/-!
# Comparisons without an order

A comparison looks up a field and asks for the order of its value and the literal. Either step may
come to nothing: the record may lack the field, and the two values may have no order.

**Theorem (`comparison_without_order`).** Without the field no comparison holds. Without an order
the comparison by `!=` holds, unless the literal is falsy, and no other one does. There is no order
where the two are not both texts and one of them is not numeric.

**The exception** (`notEqual_holds_of_null`). A field that holds nothing satisfies `!=`, although a
field that is missing does not. The other comparators are read off the order, but `!=` is the
negation of `==`.
-/

namespace FactQuery

/-- **Comparisons without an order.** Where a record lacks the field, no comparison holds. Where its
value has no order with the literal, only `!=` holds, and only of a literal that is not falsy. -/
theorem comparison_without_order (op : Comparator) (field : String) (l : Literal) (record : Fact) :
    let e : Expr := .comparison op (.literal (.word field)) (.literal l)
    (record.get? field = none → e.verdict (.single record) = .ok false) ∧
    ∀ actual, record.get? field = some actual →
      (actual.looseCompare l.toValue = none ↔
        (actual.isText = false ∨ l.toValue.isText = false) ∧
          ¬ (actual.IsNumeric ∧ l.toValue.IsNumeric)) ∧
      (actual.looseCompare l.toValue = none →
        e.verdict (.single record) = .ok (op == .notEqual && !l.isFalsy)) := by
  intro e
  have hverdict : e.verdict (.single record) =
      .ok ((record.get? field).any fun actual => !l.isFalsy && op.apply actual l.toValue) :=
    Expr.eval_comparison_field op field l (.ofFacts (.single record))
  rw [hverdict]
  refine ⟨?_, ?_⟩
  · intro h
    rw [h]
    rfl
  · intro actual h
    refine ⟨Value.looseCompare_eq_none_iff, fun horder => ?_⟩
    rw [h, Option.any_some, op.apply_eq_accepts, horder, op.accepts_none, Bool.and_comm]

/-- A missing field, and a text that is no number where a number is asked for. -/
theorem comparison_without_order_text :
    let record : Fact := ⟨[("a", .text "x")]⟩
    let asks (op : Comparator) (field : String) : Expr :=
      .comparison op (.literal (.word field)) (.literal (.integer 1))
    record.get? "b" = none ∧ (asks .notEqual "b").verdict (.single record) = .ok false ∧
      record.get? "a" = some (.text "x") ∧
      (Value.text "x").looseCompare (.integer 1) = none ∧
      (asks .less "a").verdict (.single record) = .ok false ∧
      (asks .notEqual "a").verdict (.single record) = .ok true := by
  intro record asks
  have habsent : record.get? "b" = none := by decide
  have hpresent : record.get? "a" = some (.text "x") := by decide
  have horder : (Value.text "x").looseCompare (.integer 1) = none := by decide +kernel
  obtain ⟨hmissing, -⟩ := comparison_without_order .notEqual "b" (.integer 1) record
  obtain ⟨-, hless⟩ := comparison_without_order .less "a" (.integer 1) record
  obtain ⟨-, hne⟩ := comparison_without_order .notEqual "a" (.integer 1) record
  exact ⟨habsent, hmissing habsent, hpresent, horder, (hless _ hpresent).2 horder,
    (hne _ hpresent).2 horder⟩

/-- Nothing has no order with 1, and yet a field that holds nothing satisfies `!= 1`. -/
theorem notEqual_holds_of_null :
    let record : Fact := ⟨[("a", .null)]⟩
    let e : Expr := .comparison .notEqual (.literal (.word "a")) (.literal (.integer 1))
    record.get? "a" = some .null ∧ Value.null.looseCompare (.integer 1) = none ∧
      e.verdict (.single record) = .ok true ∧ e.verdict (.single record) ≠ .ok false := by
  intro record e
  have htrue : e.verdict (.single record) = .ok true := by decide
  refine ⟨by decide, rfl, htrue, ?_⟩
  rw [htrue]
  nofun

end FactQuery
