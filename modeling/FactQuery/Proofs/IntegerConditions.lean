import FactQuery.Proofs.Coherence
import FactQuery.Proofs.Composition
import FactQuery.Proofs.Segmentation

/-!
# Conditions on integers

A condition compares a field with an integer written in decimal. The integer is read in one of two
ways: a minus belongs to words, so a negative integer is a word, and any other one is a number
(`Literal.ofDecimal`).

Both ways lead to the same order. The word denotes a text, and a text is compared with an integer as
the decimal that it spells, which is the integer again (`Literal.spells_ofDecimal`). An integer has
at most 19 digits, so no digit of it is rounded off.

**Theorem (`evaluate_integer_condition`).** On a field that holds an integer, a condition says of
the two integers what its comparator says. Only a condition on zero is different, for it never
holds.
-/

namespace FactQuery

/-! ## Integers in decimal -/

theorem toList_toString_of_nonneg {n : Int} (h : ¬ n < 0) :
    (toString n).toList = Nat.toDigits 10 n.natAbs := by
  cases n with
  | ofNat n => exact Nat.toList_repr
  | negSucc n => exact absurd (Int.negSucc_lt_zero n) h

theorem toList_toString_of_neg {n : Int} (h : n < 0) :
    (toString n).toList = '-' :: Nat.toDigits 10 n.natAbs := by
  cases n with
  | ofNat n => exact absurd h (Int.not_lt.2 (Int.natCast_nonneg n))
  | negSucc n =>
    show ("-" ++ (n + 1).repr).toList = _
    rw [String.toList_append, Nat.toList_repr]
    rfl

/-- The literal that an integer is read as where it is written in decimal. -/
def Literal.ofDecimal (n : Int64) : Literal :=
  if n.toInt < 0 then .word (toString n.toInt) else .integer n

namespace Literal

variable {n : Int64}

theorem ofDecimal_of_neg (h : n.toInt < 0) : ofDecimal n = .word (toString n.toInt) := if_pos h

theorem ofDecimal_of_nonneg (h : ¬ n.toInt < 0) : ofDecimal n = .integer n := if_neg h

theorem isFalsy_ofDecimal (h : n ≠ 0) : (ofDecimal n).isFalsy = false := by
  by_cases hn : n.toInt < 0
  · rw [ofDecimal_of_neg hn, isFalsy, beq_eq_false_iff_ne]
    intro hempty
    have hlist := toList_toString_of_neg hn
    rw [hempty] at hlist
    cases hlist
  · rw [ofDecimal_of_nonneg hn, isFalsy, beq_eq_false_iff_ne]
    exact h

end Literal

/-! ## Reading -/

theorem isWordChar_of_mem_minus {n : Nat} :
    ∀ c ∈ '-' :: Nat.toDigits 10 n, isWordChar c = true :=
  List.forall_mem_cons.2
    ⟨by decide, fun c hc => isWordChar_of_isDigit (Lexeme.isDigit_of_mem_toDigits c hc)⟩

theorem numberReading_toDigits {n : Int64} (h : ¬ n.toInt < 0) :
    Lexeme.numberReading (Nat.toDigits 10 n.toInt.natAbs) = .integer n := by
  have hvalue : (n.toInt.natAbs : Int) = n.toInt := by omega
  have hinteger : Int64.ofNat n.toInt.natAbs = n :=
    calc Int64.ofNat n.toInt.natAbs
        = Int64.ofInt (n.toInt.natAbs : Int) := rfl
      _ = Int64.ofInt n.toInt := by rw [hvalue]
      _ = n := Int64.ofInt_toInt n
  have hmax : n.toInt ≤ Int64.maxValue.toInt := n.toInt_le
  have hpoint : '.' ∉ Nat.toDigits 10 n.toInt.natAbs :=
    Lexeme.point_notMem Lexeme.isDigit_of_mem_toDigits
  rw [Lexeme.numberReading, Nat.ofDigitChars_ten_toDigits, hvalue, if_pos ⟨hpoint, hmax⟩, hinteger]

theorem wordReading_minus {s : String} {tail : List Char} (h : s.toList = '-' :: tail) :
    wordReading s.toList = .literal (.word s) := by
  have hwhere : s.toList ≠ "where".toList := by simp [h]
  have hin : s.toList ≠ "in".toList := by simp [h]
  rw [wordReading, if_neg hwhere, if_neg hin, String.ofList_toList]

/-- **The decimal text of an integer** is a single lexeme, of one kind or the other. -/
theorem isLexeme_decimal (n : Int64) :
    IsLexeme (toString n.toInt).toList none (.literal (.ofDecimal n)) := by
  by_cases h : n.toInt < 0
  · have hlist := toList_toString_of_neg h
    have hfirst : ∀ c ∈ ('-' :: Nat.toDigits 10 n.toInt.natAbs).head?, c.isDigit = false := by
      simp
    rw [Literal.ofDecimal_of_neg h, ← wordReading_minus hlist, hlist]
    exact .word (List.cons_ne_nil _ _) isWordChar_of_mem_minus hfirst nofun
  · rw [Literal.ofDecimal_of_nonneg h, toList_toString_of_nonneg h, ← numberReading_toDigits h]
    exact .numeral (Lexeme.isNumeral_toDigits _) nofun

theorem parse_comparison {f field num : String} {l : Literal}
    (hf : lex f = .ok [.literal (.word field)]) (hnum : scan num.toList = ([.literal l], none))
    (op : Comparator) :
    parse (f ++ " " ++ (BinaryOp.comparison op).spelling ++ " " ++ num) =
      .ok (.comparison op (.literal (.word field)) (.literal l)) := by
  have hlist : (f ++ " " ++ (BinaryOp.comparison op).spelling ++ " " ++ num).toList =
      f.toList ++ ' ' :: ((BinaryOp.comparison op).spelling.toList ++ ' ' :: num.toList) := by
    simp
  have hc : Expr.Canonical .expression
      (.comparison op (.literal (.word field)) (.literal l)) :=
    .ofComparison (.comparison op (.ofOperand (.literal (.word field))) l)
  refine parse_of_scan_spell hc (by simp [Expr.opens, maxNesting]) ?_
  rw [hlist, scan_append isBreak_space, scan_of_lex hf, scan_operator, hnum]
  rfl

/-! ## Comparing -/

theorem Text.trim_eq_self {s : List Char} (h : ∀ c ∈ s, isBlank c = false) : trim s = s := by
  have hdrop {s : List Char} (h : ∀ c ∈ s, isBlank c = false) : s.dropWhile isBlank = s := by
    show ([] ++ s).dropWhile isBlank = s
    exact dropWhile_run nofun fun c hc => h c (List.mem_of_mem_head? hc)
  have hreverse : ∀ c ∈ s.reverse, isBlank c = false := fun c hc => h c (List.mem_reverse.1 hc)
  rw [trim, hdrop h, hdrop hreverse, List.reverse_reverse]

theorem isShort_toDigits (n : Int64) : Lexeme.IsShort (Nat.toDigits 10 n.toInt.natAbs) := by
  have hlt : n.toInt.natAbs < 10 ^ 28 := by
    have hlo := n.le_toInt
    have hhi := n.toInt_lt
    omega
  have hlength : (Nat.toDigits 10 n.toInt.natAbs).length ≤ 28 :=
    (Nat.length_toDigits_le_iff (by decide) (by decide)).2 hlt
  exact ⟨Lexeme.isNumeral_toDigits _, List.countP_le_length.trans hlength⟩

theorem toRat_numeral_toDigits (n : Nat) :
    (Lexeme.numeral (Nat.toDigits 10 n)).toRat = n := by
  rw [Lexeme.numeral_digits Lexeme.isDigit_of_mem_toDigits, Nat.ofDigitChars_ten_toDigits,
    Scientific.toRat, zpow_zero, mul_one]

/-- **Written as a word or as a number**, an integer denotes a value that spells it. -/
theorem Literal.spells_ofDecimal (n : Int64) : (ofDecimal n).toValue.Spells n.toInt := by
  by_cases h : n.toInt < 0
  · have hlist := toList_toString_of_neg h
    have htrim : Text.trim (toString n.toInt).toList = '-' :: Nat.toDigits 10 n.toInt.natAbs := by
      rw [hlist]
      exact Text.trim_eq_self fun c hc => not_isBlank (.inr (.inr (isWordChar_of_mem_minus c hc)))
    have hvalue : (n.toInt : ℚ) = -(Lexeme.numeral (Nat.toDigits 10 n.toInt.natAbs)).toRat := by
      have habs : n.toInt = -(n.toInt.natAbs : Int) := by omega
      rw [toRat_numeral_toDigits]
      exact_mod_cast habs
    rw [ofDecimal_of_neg h, hvalue]
    exact .text (htrim ▸ .minus (isShort_toDigits n))
  · rw [ofDecimal_of_nonneg h]
    exact .integer n

/-- An integer is in order with any value that spells an integer. -/
theorem Value.looseCompare_integer (m : Int64) {b : Value} {n : Int} (h : b.Spells n) :
    (Value.integer m).looseCompare b = some (compare m.toInt n) := by
  obtain ⟨d, hd, hrat⟩ := h.number?
  have hcast : compare (m.toInt : ℚ) n = compare m.toInt n := by
    rw [← cmp_eq_compare, ← cmp_eq_compare]
    exact Int.cast_strictMono.cmp_map_eq _ _
  rw [looseCompare_of_number? (.inl rfl) rfl hd, Number.compare?, Decimal.order_eq_compare,
    Decimal.toRat_ofInt64, hrat, hcast]

/-- The relation of two integers that a comparator stands for. -/
def Comparator.onIntegers : Comparator → Int → Int → Bool
  | .equal, m, n => m == n
  | .notEqual, m, n => m != n
  | .atLeast, m, n => n ≤ m
  | .atMost, m, n => m ≤ n
  | .greater, m, n => n < m
  | .less, m, n => m < n

theorem Comparator.accepts_compare (op : Comparator) (m n : Int) :
    op.accepts (some (compare m n)) = op.onIntegers m n := by
  rw [Bool.eq_iff_iff]
  cases op with
  | atLeast =>
    simp only [accepts, onIntegers, Bool.or_eq_true, beq_iff_eq, Option.some.injEq,
      Int.compare_eq_gt, Int.compare_eq_eq, decide_eq_true_eq]
    omega
  | atMost =>
    simp only [accepts, onIntegers, Bool.or_eq_true, beq_iff_eq, Option.some.injEq,
      Int.compare_eq_lt, Int.compare_eq_eq, decide_eq_true_eq]
    omega
  | _ => simp [accepts, onIntegers, Int.compare_eq_lt, Int.compare_eq_gt]

/-! ## Conditions -/

/-- **Conditions on integers.** An integer in decimal is a single token, a word if it is negative
and else a number. On a field that holds an integer, a condition on another integer says what its
comparator says of the two. A condition on zero never holds. -/
theorem evaluate_integer_condition {f field : String} (hf : lex f = .ok [.literal (.word field)])
    {record : Fact} {m : Int64} (hm : record.get? field = some (.integer m)) (op : Comparator) :
    (∀ n : Int64, lex (toString n.toInt) =
      .ok [.literal (if n.toInt < 0 then .word (toString n.toInt) else .integer n)]) ∧
    (∀ n : Int64, n ≠ 0 →
      evaluate (f ++ " " ++ (BinaryOp.comparison op).spelling ++ " " ++ toString n.toInt)
        (.single record) = .ok (op.onIntegers m.toInt n.toInt)) ∧
    evaluate (f ++ " " ++ (BinaryOp.comparison op).spelling ++ " " ++ "0") (.single record) =
      .ok false := by
  have hscan (n : Int64) : scan (toString n.toInt).toList = ([.literal (.ofDecimal n)], none) :=
    scan_lexeme (isLexeme_decimal n)
  have hevaluate (n : Int64) :
      evaluate (f ++ " " ++ (BinaryOp.comparison op).spelling ++ " " ++ toString n.toInt)
        (.single record) =
          .ok (!(Literal.ofDecimal n).isFalsy && op.onIntegers m.toInt n.toInt) := by
    have hget : (Scope.ofFacts (.single record)).get? field = some (.integer m) := hm
    rw [evaluate_of_parse (parse_comparison hf (hscan n) op), Expr.verdict,
      Expr.eval_comparison_field, hget, Option.any_some, op.apply_eq_accepts,
      Value.looseCompare_integer m (Literal.spells_ofDecimal n), op.accepts_compare]
    rfl
  refine ⟨fun n => ?_, fun n hn => ?_, ?_⟩
  · exact lex_of_scan_spell (e := .literal (.ofDecimal n)) (hscan n)
  · rw [hevaluate, Literal.isFalsy_ofDecimal hn]
    rfl
  · -- Zero is falsy, whatever the comparator.
    exact hevaluate 0

/-- The least integer against the condition that names it, against the greatest one, and against
zero. -/
theorem evaluate_integer_condition_least :
    let facts : Facts := .single ⟨[("b1", .integer Int64.minValue)]⟩
    lex "b1" = .ok [.literal (.word "b1")] ∧
      Fact.get? ⟨[("b1", .integer Int64.minValue)]⟩ "b1" = some (.integer Int64.minValue) ∧
      Int64.minValue ≠ 0 ∧ evaluate "b1 >= -9223372036854775808" facts = .ok true ∧
      Int64.maxValue ≠ 0 ∧ evaluate "b1 >= 9223372036854775807" facts = .ok false ∧
      evaluate "b1 < 0" facts = .ok false := by
  intro facts
  have hf : lex "b1" = .ok [.literal (.word "b1")] := by decide +kernel
  have hm : Fact.get? ⟨[("b1", .integer Int64.minValue)]⟩ "b1" =
      some (.integer Int64.minValue) := rfl
  have hmin : Int64.minValue ≠ 0 := by decide
  have hmax : Int64.maxValue ≠ 0 := by decide
  have hminText : "b1" ++ " " ++ (BinaryOp.comparison .atLeast).spelling ++ " " ++
      toString Int64.minValue.toInt = "b1 >= -9223372036854775808" := by decide +kernel
  have hmaxText : "b1" ++ " " ++ (BinaryOp.comparison .atLeast).spelling ++ " " ++
      toString Int64.maxValue.toInt = "b1 >= 9223372036854775807" := by decide +kernel
  obtain ⟨-, hatLeast, -⟩ := evaluate_integer_condition hf hm .atLeast
  obtain ⟨-, -, hless⟩ := evaluate_integer_condition hf hm .less
  refine ⟨hf, hm, hmin, ?_, hmax, ?_, hless⟩
  · rw [← hminText, hatLeast _ hmin]
    decide
  · rw [← hmaxText, hatLeast _ hmax]
    decide

end FactQuery
