import Mathlib
import FactQuery.Evaluation.Basic

/-!
# Membership as a disjunction

A membership test and a comparison by `==` ask for the same equality, but they are decided apart:
the test looks its field up once and goes through the list, and it takes no notice of falsy
literals.

**One field.** In whatever scope, either of the two asks something of the one value that the field
has there (`Expr.eval_isMember`, `Expr.eval_comparison_field`). So does a disjunction of
comparisons, which therefore asks what the test asks, but of the literals that are not falsy alone
(`Expr.eval_equalsAnyOf`).

**Contexts** (`Context`). A condition can stand anywhere below groups, junctions and filters. It can
be replaced there by one that has the same verdicts in all scopes (`Context.eval_fill`).

**Theorem (`membership_as_disjunction`).** A membership test holds where the field has a value that
is loosely equal to some literal of the list. So neither the order of the literals nor their number
counts, and where no literal is falsy the test can be replaced by the disjunction of comparisons.
-/

namespace FactQuery

/-! ## Lists -/

namespace Items

theorem contains_eq_true_iff {items : Items} {value : Value} :
    items.contains value = true ↔ ∃ l ∈ items.toList, value.looseEq l.toValue = true := by
  rw [contains, List.any_eq_true]

theorem contains_congr {items items' : Items} (h : ∀ l, l ∈ items.toList ↔ l ∈ items'.toList) :
    items.contains = items'.contains := by
  funext value
  rw [Bool.eq_iff_iff, contains_eq_true_iff, contains_eq_true_iff]
  simp only [h]

theorem any_of_not_falsy {items : Items} (h : ∀ l ∈ items.toList, l.isFalsy = false)
    (value : Value) :
    (items.toList.any fun l => !l.isFalsy && value.looseEq l.toValue) = items.contains value := by
  rw [Bool.eq_iff_iff, List.any_eq_true, contains_eq_true_iff]
  refine exists_congr fun l => and_congr_right fun hl => ?_
  rw [h l hl, Bool.not_false, Bool.true_and]

end Items

/-! ## Tests of a field -/

namespace Expr

/-- A membership test of a field. -/
def isMember (field : String) (items : Items) : Expr :=
  .membership (.literal (.word field)) (.list items)

/-- The comparison of a field with a literal by `==`. -/
def equals (field : String) (l : Literal) : Expr :=
  .comparison .equal (.literal (.word field)) (.literal l)

/-- The comparisons of a field with literals by `==`, joined by `||` to the right. -/
def equalsAnyOf (field : String) (first : Literal) : List Literal → Expr
  | [] => equals field first
  | l :: others => .junction .or (equals field first) (equalsAnyOf field l others)

/-- The comparisons of a field with the literals of a list by `==`, joined by `||` to the right. -/
def equalsAny (field : String) (items : Items) : Expr := equalsAnyOf field items.first items.others

theorem eval_isMember (field : String) (items : Items) (s : Scope) :
    (isMember field items).eval s = .ok ((s.get? field).any items.contains) := rfl

theorem eval_equals (field : String) (l : Literal) (s : Scope) :
    (equals field l).eval s =
      .ok ((s.get? field).any fun value => !l.isFalsy && value.looseEq l.toValue) :=
  eval_comparison_field .equal field l s

/-- **A disjunction of comparisons** holds where the field has a value that is loosely equal to some
literal that is not falsy. -/
theorem eval_equalsAnyOf (field : String) (first : Literal) (others : List Literal) (s : Scope) :
    (equalsAnyOf field first others).eval s =
      .ok ((s.get? field).any fun value =>
        (first :: others).any fun l => !l.isFalsy && value.looseEq l.toValue) := by
  induction others generalizing first with
  | nil =>
    rw [equalsAnyOf, eval_equals]
    simp only [List.any_cons, List.any_nil, Bool.or_false]
  | cons l others ih =>
    rw [equalsAnyOf, eval, eval_equals, ih]
    cases s.get? field <;> rfl

/-- **A membership test** holds where there is a record in scope in which the field has a value that
is loosely equal to some literal of the list. -/
theorem isMember_holds_iff {field : String} {items : Items} {s : Scope} :
    (s.get? field).any items.contains = true ↔
      ∃ record value, s.record = some record ∧ record.get? field = some value ∧
        ∃ l ∈ items.toList, value.looseEq l.toValue = true := by
  rw [Option.any_eq_true, Scope.get?]
  simp only [Option.bind_eq_some_iff, Items.contains_eq_true_iff]
  refine ⟨?_, ?_⟩
  · intro h
    obtain ⟨value, ⟨record, hrecord, hvalue⟩, hequal⟩ := h
    exact ⟨record, value, hrecord, hvalue, hequal⟩
  · intro h
    obtain ⟨record, value, hrecord, hvalue, hequal⟩ := h
    exact ⟨value, ⟨record, hrecord, hvalue⟩, hequal⟩

theorem eval_isMember_congr {field : String} {items items' : Items}
    (h : ∀ l, l ∈ items.toList ↔ l ∈ items'.toList) (s : Scope) :
    (isMember field items).eval s = (isMember field items').eval s := by
  rw [eval_isMember, eval_isMember, Items.contains_congr h]

theorem eval_isMember_of_not_falsy {field : String} {items : Items}
    (h : ∀ l ∈ items.toList, l.isFalsy = false) (s : Scope) :
    (isMember field items).eval s = (equalsAny field items).eval s := by
  have hcontains : items.contains = fun value =>
      (items.first :: items.others).any fun l => !l.isFalsy && value.looseEq l.toValue := by
    funext value
    exact (Items.any_of_not_falsy h value).symm
  rw [eval_isMember, equalsAny, eval_equalsAnyOf, hcontains]

end Expr

/-! ## Contexts -/

/-- An expression in which a condition is left open. -/
inductive Context where
  | here
  | group (inner : Context)
  | junctionLeft (op : Junction) (left : Context) (right : Expr)
  | junctionRight (op : Junction) (left : Expr) (right : Context)
  | filteredSubject (subject : Context) (condition : Expr)
  | filteredCondition (subject : Expr) (condition : Context)

namespace Context

/-- The expression with the condition put in. -/
def fill (e : Expr) : Context → Expr
  | .here => e
  | .group inner => .group (inner.fill e)
  | .junctionLeft op left right => .junction op (left.fill e) right
  | .junctionRight op left right => .junction op left (right.fill e)
  | .filteredSubject subject condition => .filtered (subject.fill e) condition
  | .filteredCondition subject condition => .filtered subject (condition.fill e)

/-- **Conditions with the same verdicts** can be put in each other's place. A filter binds records,
so they have to agree in all scopes and not in the scope of the whole alone. -/
theorem eval_fill {e e' : Expr} (h : ∀ s, e.eval s = e'.eval s) (C : Context) (s : Scope) :
    (C.fill e).eval s = (C.fill e').eval s := by
  induction C generalizing s with
  | here => exact h s
  | group inner ih => exact ih s
  | junctionLeft op left right ih => simp only [fill, Expr.eval, ih]
  | junctionRight op left right ih => simp only [fill, Expr.eval, ih]
  | filteredSubject subject condition ih => simp only [fill, Expr.eval, ih]
  | filteredCondition subject condition ih => simp only [fill, Expr.eval, ih]

theorem verdict_fill {e e' : Expr} (h : ∀ s, e.eval s = e'.eval s) (C : Context) (facts : Facts) :
    (C.fill e).verdict facts = (C.fill e').verdict facts :=
  C.eval_fill h (.ofFacts facts)

end Context

/-- **Membership as a disjunction.** In every scope, a membership test of a field has a verdict,
which is true where the field has a value in scope that is loosely equal to some literal of the
list. In any context the list can be replaced by one with the same literals, and where no literal
is falsy the test can be replaced by the disjunction of the comparisons by `==`. -/
theorem membership_as_disjunction (field : String) (items : Items) :
    (∀ s : Scope, ∃ v, (Expr.isMember field items).eval s = .ok v ∧
      (v = true ↔ ∃ record value, s.record = some record ∧ record.get? field = some value ∧
        ∃ l ∈ items.toList, value.looseEq l.toValue = true)) ∧
    (∀ items' : Items, (∀ l, l ∈ items.toList ↔ l ∈ items'.toList) →
      ∀ (C : Context) (facts : Facts),
        (C.fill (.isMember field items)).verdict facts =
          (C.fill (.isMember field items')).verdict facts) ∧
    ((∀ l ∈ items.toList, l.isFalsy = false) →
      ∀ (C : Context) (facts : Facts),
        (C.fill (.isMember field items)).verdict facts =
          (C.fill (.equalsAny field items)).verdict facts) := by
  refine ⟨fun s => ⟨_, Expr.eval_isMember field items s, Expr.isMember_holds_iff⟩, ?_, ?_⟩
  · intro items' h C facts
    exact C.verdict_fill (Expr.eval_isMember_congr h) facts
  · intro h C facts
    exact C.verdict_fill (Expr.eval_isMember_of_not_falsy h) facts

/-- In the condition of a filter over records, with a literal that stands twice in the list. -/
theorem membership_as_disjunction_filtered :
    let items : Items := ⟨.integer 1, [.word "x", .integer 1]⟩
    let items' : Items := ⟨.word "x", [.integer 1]⟩
    let hot : Expr := .comparison .greater (.literal (.word "t")) (.literal (.integer 30))
    let C : Context := .filteredCondition hot (.group .here)
    let facts : Facts := .many [⟨[("a", .text "y"), ("t", .integer 40)]⟩,
      ⟨[("a", .text "1"), ("t", .integer 31)]⟩]
    (∀ l, l ∈ items.toList ↔ l ∈ items'.toList) ∧
      (∀ l ∈ items.toList, l.isFalsy = false) ∧
      (C.fill (.isMember "a" items)).verdict facts = .ok true ∧
      (C.fill (.isMember "a" items')).verdict facts = .ok true ∧
      (C.fill (.equalsAny "a" items)).verdict facts = .ok true := by
  intro items items' hot C facts
  have hsame : ∀ l, l ∈ items.toList ↔ l ∈ items'.toList := by
    intro l
    show l ∈ [.integer 1, .word "x", .integer 1] ↔ l ∈ [.word "x", .integer 1]
    rw [List.mem_cons, or_iff_right_of_imp]
    rintro rfl
    decide
  have hfalsy : ∀ l ∈ items.toList, l.isFalsy = false := by decide
  have hmember : (C.fill (.isMember "a" items)).verdict facts = .ok true := by decide +kernel
  obtain ⟨-, hlist, hdisjunction⟩ := membership_as_disjunction "a" items
  refine ⟨hsame, hfalsy, hmember, ?_, ?_⟩
  · rw [← hlist items' hsame C facts]
    exact hmember
  · rw [← hdisjunction hfalsy C facts]
    exact hmember

end FactQuery
