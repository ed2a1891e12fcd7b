import FactQuery.Expr.Operator
import FactQuery.Proofs.ExactOrder

/-!
# One order behind six comparators

Whether a comparator holds of two values is decided by their order, or by their having none
(`Comparator.apply_eq_accepts`). So all that holds between the comparators comes from two facts
about the order.

* *Reversal*: seen from the other side, two values have the reverse order, and they have none from
  either side or from both (`Value.looseCompare_swap`). The values may compare as texts, as decimals
  or as binary numbers, and each of the three orders is reversed.
* *Absence*: two values have no order exactly if they do not both compare as texts and one of them
  is not numeric (`Value.looseCompare_eq_none_iff`). Nothing, a text that spells no number and `nan`
  are not numeric.

**Theorem (`comparators_coherent`).** The comparators are coherent on all values.
-/

namespace FactQuery

namespace Comparator

/-! ## Comparators and orders -/

/-- Whether a comparator holds of two values with the given order. -/
def accepts : Comparator → Option Ordering → Bool
  | .equal, order => order == some .eq
  | .notEqual, order => order != some .eq
  | .atLeast, order => order == some .gt || order == some .eq
  | .atMost, order => order == some .lt || order == some .eq
  | .greater, order => order == some .gt
  | .less, order => order == some .lt

/-- The comparator that says the same with the two sides exchanged. -/
def converse : Comparator → Comparator
  | .equal => .equal
  | .notEqual => .notEqual
  | .atLeast => .atMost
  | .atMost => .atLeast
  | .greater => .less
  | .less => .greater

/-- **The order of two values decides** all comparators. -/
theorem apply_eq_accepts (op : Comparator) (a b : Value) :
    op.apply a b = op.accepts (a.looseCompare b) := by
  cases op with
  | atLeast => rcases h : a.looseCompare b with _ | (_ | _ | _) <;> simp [apply, accepts, h]
  | atMost => rcases h : a.looseCompare b with _ | (_ | _ | _) <;> simp [apply, accepts, h]
  | _ => rfl

theorem accepts_converse (op : Comparator) (order : Option Ordering) :
    op.converse.accepts (order.map Ordering.swap) = op.accepts order := by
  rcases order with _ | (_ | _ | _) <;> cases op <;> rfl

theorem accepts_none (op : Comparator) : op.accepts none = (op == .notEqual) := by
  cases op <;> rfl

end Comparator

/-! ## Reversal -/

namespace Decimal

theorem order_swap (a b : Decimal) : (a.order b).swap = b.order a := Int.compare_swap _ _

theorem order_self (a : Decimal) : a.order a = .eq := Std.compare_self

theorem toBinary64_ne_nan (a : Decimal) : a.toBinary64 ≠ .nan := nofun

end Decimal

namespace Binary64

theorem compare?_swap (x y : Binary64) : (x.compare? y).map Ordering.swap = y.compare? x := by
  cases x with
  | nan => cases y <;> rfl
  | number s a =>
    cases y with
    | nan => rfl
    | number t b => exact congrArg some (Int.compare_swap _ _)

theorem compare?_eq_none_iff {x y : Binary64} : x.compare? y = none ↔ x = .nan ∨ y = .nan := by
  cases x <;> cases y <;> simp [compare?]

theorem compare?_self {x : Binary64} (h : x ≠ .nan) : x.compare? x = some .eq := by
  cases x with
  | nan => exact absurd rfl h
  | number s a => exact congrArg some Std.compare_self

end Binary64

namespace Number

theorem compare?_swap (m n : Number) : (m.compare? n).map Ordering.swap = n.compare? m := by
  cases m with
  | exact a =>
    cases n with
    | exact b => exact congrArg some (a.order_swap b)
    | approximate y => exact a.toBinary64.compare?_swap y
  | approximate x => cases n <;> exact x.compare?_swap _

/-- Decimals are converted to finite numbers, so only `nan` itself is without an order. -/
theorem compare?_eq_none_iff {m n : Number} :
    m.compare? n = none ↔ m = .approximate .nan ∨ n = .approximate .nan := by
  cases m with
  | exact a =>
    cases n with
    | exact b => simp [compare?]
    | approximate y =>
      simp [compare?, toBinary64, Binary64.compare?_eq_none_iff, Decimal.toBinary64_ne_nan]
  | approximate x =>
    cases n <;>
      simp [compare?, toBinary64, Binary64.compare?_eq_none_iff, Decimal.toBinary64_ne_nan]

theorem compare?_self {m : Number} (h : m ≠ .approximate .nan) : m.compare? m = some .eq := by
  cases m with
  | exact a => exact congrArg some a.order_self
  | approximate x => exact Binary64.compare?_self fun hx => h (congrArg _ hx)

end Number

namespace Value

variable {a b : Value}

/-- A value that has an order with numbers: it reads as a number, and not as `nan`. -/
def IsNumeric (a : Value) : Prop := ∃ n, a.number? = some n ∧ n ≠ .approximate .nan

theorem isNumeric_iff {n : Number} (h : a.number? = some n) :
    a.IsNumeric ↔ n ≠ .approximate .nan := by
  simp [IsNumeric, h]

theorem not_isNumeric (h : a.number? = none) : ¬ a.IsNumeric := by
  simp [IsNumeric, h]

theorem texts_or_not_text (a b : Value) :
    (∃ s t, a = .text s ∧ b = .text t) ∨ a.isText = false ∨ b.isText = false := by
  cases a with
  | text s =>
    cases b with
    | text t => exact .inl ⟨s, t, rfl, rfl⟩
    | _ => exact .inr (.inr rfl)
  | _ => exact .inr (.inl rfl)

/-- **Seen from the other side** the order is reversed. -/
theorem looseCompare_swap (a b : Value) :
    b.looseCompare a = (a.looseCompare b).map Ordering.swap := by
  rcases texts_or_not_text a b with ⟨s, t, rfl, rfl⟩ | h
  · exact congrArg some Std.OrientedOrd.eq_swap
  · rw [looseCompare_of_not_text h, looseCompare_of_not_text h.symm]
    cases a.number? with
    | none => cases b.number? <;> rfl
    | some m =>
      cases b.number? with
      | none => rfl
      | some n => exact (m.compare?_swap n).symm

/-! ## Absence -/

/-- **Values without an order** are not both texts, and one of them is not numeric. -/
theorem looseCompare_eq_none_iff :
    a.looseCompare b = none ↔
      (a.isText = false ∨ b.isText = false) ∧ ¬ (a.IsNumeric ∧ b.IsNumeric) := by
  rcases texts_or_not_text a b with ⟨s, t, rfl, rfl⟩ | h
  · simp [looseCompare, isText]
  · rw [looseCompare_of_not_text h, and_iff_right h]
    cases ha : a.number? with
    | none => simp [not_isNumeric ha]
    | some m =>
      cases hb : b.number? with
      | none => simp [not_isNumeric hb]
      | some n =>
        show m.compare? n = none ↔ _
        rw [isNumeric_iff ha, isNumeric_iff hb, Number.compare?_eq_none_iff, ← not_or, not_not]

/-- Nothing and `nan` are not equal to themselves, and all other values are. -/
theorem looseCompare_self_iff (a : Value) :
    a.looseCompare a = some .eq ↔ a ≠ .null ∧ a ≠ .float .nan := by
  cases a with
  | null => exact iff_of_false nofun fun h => h.1 rfl
  | boolean b => exact iff_of_true (congrArg some (Decimal.order_self _)) ⟨nofun, nofun⟩
  | integer n => exact iff_of_true (congrArg some (Decimal.order_self _)) ⟨nofun, nofun⟩
  | float x =>
    by_cases hx : x = .nan
    · subst hx
      exact iff_of_false nofun fun h => h.2 rfl
    · have hne : Number.approximate x ≠ .approximate .nan := by simpa using hx
      exact iff_of_true (Number.compare?_self hne) ⟨nofun, by simpa using hx⟩
  | text s => exact iff_of_true (congrArg some Std.compare_self) ⟨nofun, nofun⟩

end Value

/-! ## Coherence -/

namespace Comparator

/-- The comparators that say which order two values have. -/
def strict : List Comparator := [.less, .equal, .greater]

theorem existsUnique_accepts (order : Ordering) :
    ∃! op, op ∈ strict ∧ op.accepts (some order) = true := by
  cases order with
  | lt => exact ⟨.less, by decide, fun op h => by revert h; cases op <;> decide⟩
  | eq => exact ⟨.equal, by decide, fun op h => by revert h; cases op <;> decide⟩
  | gt => exact ⟨.greater, by decide, fun op h => by revert h; cases op <;> decide⟩

theorem apply_converse (op : Comparator) (a b : Value) : op.converse.apply b a = op.apply a b := by
  rw [apply_eq_accepts, apply_eq_accepts, Value.looseCompare_swap a b, accepts_converse]

end Comparator

/-- **The comparators are coherent** on all values. The order is reversed with the two sides, and so
is every comparator. Values with an order have exactly one of the three orders, and values without
one are only unequal. The other three comparators follow from these, and every value but nothing and
`nan` is equal to itself. -/
theorem comparators_coherent (a b : Value) :
    b.looseCompare a = (a.looseCompare b).map Ordering.swap ∧
    (∀ op : Comparator, op.apply a b = op.converse.apply b a) ∧
    (a.looseCompare b ≠ none → ∃! op, op ∈ Comparator.strict ∧ op.apply a b = true) ∧
    (a.looseCompare b = none → ∀ op : Comparator, op ≠ .notEqual → op.apply a b = false) ∧
    Comparator.atMost.apply a b = (Comparator.less.apply a b || Comparator.equal.apply a b) ∧
    Comparator.atLeast.apply a b = (Comparator.greater.apply a b || Comparator.equal.apply a b) ∧
    Comparator.notEqual.apply a b = !Comparator.equal.apply a b ∧
    (a.looseCompare a = some .eq ↔ a ≠ .null ∧ a ≠ .float .nan) := by
  refine ⟨a.looseCompare_swap b, fun op => (op.apply_converse a b).symm, ?_⟩
  simp only [Comparator.apply_eq_accepts]
  refine ⟨?_, ?_, rfl, rfl, rfl, a.looseCompare_self_iff⟩
  · intro h
    obtain ⟨order, horder⟩ := Option.ne_none_iff_exists'.1 h
    rw [horder]
    exact Comparator.existsUnique_accepts order
  · intro h op hop
    rw [h, Comparator.accepts_none, beq_eq_false_iff_ne]
    exact hop

/-- A text that only binary numbers can spell is in order with the greatest integer, and a text that
spells no number is not. -/
theorem comparators_coherent_texts :
    let spelled : Value := .text " 1e40 "
    let unspelled : Value := .text "1e40x"
    let greatest : Value := .integer Int64.maxValue
    spelled.looseCompare greatest ≠ none ∧
      (∃! op, op ∈ Comparator.strict ∧ op.apply spelled greatest = true) ∧
      unspelled.looseCompare greatest = none ∧ Comparator.less ≠ .notEqual ∧
      Comparator.less.apply unspelled greatest = false ∧
      Comparator.less.apply greatest unspelled = false := by
  intro spelled unspelled greatest
  have hspelled : spelled.looseCompare greatest ≠ none := by decide +kernel
  have hunspelled : unspelled.looseCompare greatest = none := by decide +kernel
  obtain ⟨-, -, hordered, -⟩ := comparators_coherent spelled greatest
  obtain ⟨-, hconverse, -, hunordered, -⟩ := comparators_coherent unspelled greatest
  have hless := hunordered hunspelled .less nofun
  have hgreater := hunordered hunspelled .greater nofun
  rw [hconverse .greater] at hgreater
  exact ⟨hspelled, hordered hspelled, hunspelled, nofun, hless, hgreater⟩

end FactQuery
