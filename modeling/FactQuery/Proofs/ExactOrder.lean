import FactQuery.Proofs.Numerals

/-!
# The order of exact values

Truth values, integers and short decimal texts each spell a rational number (`Value.Spells`). A text
does so by its digits, the place of the point among them and its sign. The blanks around it count
for nothing, and a blank text is zero.

**Theorem (`looseCompare_exact`).** Of two such values, not both texts, the loose order is that of
the two rational numbers. So it does not depend on which of the values that spell a number is taken.

The argument has two parts. A numeral of at most 28 digits is kept digit by digit
(`Decimal.takePlain_numeral`): `10 ^ 28` is below the limit of the coefficients and 28 the most
places, so nothing is rounded, and the reader of binary numbers is not asked. And decimals of
different scales compare as the rational numbers they stand for (`Decimal.order_eq_compare`).
-/

namespace FactQuery

/-! ## Rational numbers -/

theorem tenPow_pos (n : Nat) : (0 : ℚ) < tenPow n := by
  have h : 0 < tenPow n := Nat.pow_pos (by decide)
  exact_mod_cast h

/-- The rational number `coefficient · 10 ^ exponent`. -/
def Scientific.toRat (x : Scientific) : ℚ := x.coefficient * (10 : ℚ) ^ x.exponent

namespace Decimal

def toRat (x : Decimal) : ℚ := x.coefficient / tenPow x.scale

/-- Decimals are in the order of their rational numbers. -/
theorem order_eq_compare (a b : Decimal) : a.order b = compare a.toRat b.toRat := by
  have ha := tenPow_pos a.scale
  have hb := tenPow_pos b.scale
  have hscaled (x y : Decimal) : ((x.coefficient * tenPow y.scale : Int) : ℚ) =
      x.toRat * (tenPow x.scale * tenPow y.scale) := by
    have hx := tenPow_pos x.scale
    rw [toRat]
    push_cast
    field_simp
  calc a.order b
      = cmp (a.coefficient * tenPow b.scale : Int) (b.coefficient * tenPow a.scale) :=
        (cmp_eq_compare _ _).symm
    _ = cmp ((a.coefficient * tenPow b.scale : Int) : ℚ)
          ((b.coefficient * tenPow a.scale : Int) : ℚ) :=
        (Int.cast_strictMono.cmp_map_eq _ _).symm
    _ = cmp a.toRat b.toRat := by
        rw [hscaled a b, hscaled b a, mul_comm (tenPow b.scale : ℚ),
          cmp_mul_pos_right (mul_pos ha hb)]
    _ = compare a.toRat b.toRat := cmp_eq_compare _ _

theorem toRat_ofInt64 (n : Int64) : (ofInt64 n).toRat = n.toInt := by
  simp [toRat, ofInt64, tenPow]

theorem exists_ofParts? (negative : Bool) {coefficient scale : Nat}
    (hc : coefficient < coefficientLimit) (hs : scale ≤ maxScale) :
    ∃ x, ofParts? negative coefficient scale = some x ∧
      x.toRat = (if negative then -1 else 1) *
        (⟨coefficient, -(scale : Int)⟩ : Scientific).toRat := by
  refine ⟨_, dif_pos ⟨hc, hs⟩, ?_⟩
  cases negative <;> simp [toRat, Scientific.toRat, tenPow, div_eq_mul_inv]

end Decimal

/-! ## Short numerals -/

namespace Lexeme

/-- A numeral of at most 28 digits. -/
structure IsShort (run : List Char) : Prop extends IsNumeral run where
  short : run.countP Char.isDigit ≤ 28

theorem isShort_iff {run : List Char} :
    IsShort run ↔ run.all isNumberChar = true ∧ run.any Char.isDigit = true ∧
      run.count '.' ≤ 1 ∧ run.countP Char.isDigit ≤ 28 := by
  rw [List.all_eq_true, List.any_eq_true]
  exact ⟨fun h => ⟨h.chars, h.digit, h.point, h.short⟩,
    fun ⟨hchars, hdigit, hpoint, hshort⟩ => ⟨⟨hchars, hdigit, hpoint⟩, hshort⟩⟩

instance (run : List Char) : Decidable (IsShort run) := decidable_of_iff' _ isShort_iff

end Lexeme

namespace Decimal

/-! ## Short numerals are kept -/

/-- What has been kept after some digits. -/
def Kept.ofDigits (digits : List Char) (places : Option Nat) : Kept :=
  ⟨Nat.ofDigitChars 10 digits 0, places, !digits.isEmpty⟩

theorem digitValue_le {c : Char} (h : c.isDigit = true) : digitValue c ≤ 9 := by
  have hrange : 48 ≤ c.toNat ∧ c.toNat ≤ 57 := Char.isDigit_iff_toNat.1 h
  have hzero : '0'.toNat = 48 := rfl
  rw [digitValue, hzero]
  omega

theorem ofDigitChars_lt {digits : List Char} (h : ∀ c ∈ digits, c.isDigit = true) :
    Nat.ofDigitChars 10 digits 0 < 10 ^ digits.length := by
  induction digits with
  | nil => simp
  | cons c digits ih =>
    have hc : digitValue c ≤ 9 := digitValue_le (h c (by simp))
    have hrest := ih fun d hd => h d (by simp [hd])
    calc Nat.ofDigitChars 10 (c :: digits) 0
        = 10 ^ digits.length * digitValue c + Nat.ofDigitChars 10 digits 0 := by
          rw [Nat.ofDigitChars_cons, Nat.ofDigitChars_eq_ofDigitChars_zero, mul_zero, zero_add,
            digitValue]
      _ < 10 ^ digits.length * 9 + 10 ^ digits.length :=
          Nat.add_lt_add_of_le_of_lt (Nat.mul_le_mul_left _ hc) hrest
      _ = 10 ^ (c :: digits).length := by rw [List.length_cons, Nat.pow_succ]; ring

theorem push_ofDigits (digits : List Char) (places : Option Nat) (c : Char) :
    (Kept.ofDigits digits places).push (digitValue c) =
      .ofDigits (digits ++ [c]) (places.map (· + 1)) := by
  simp [Kept.push, Kept.ofDigits, Nat.ofDigitChars, digitValue]

theorem ofDigitChars_lt_coefficientLimit {digits : List Char}
    (h : ∀ c ∈ digits, c.isDigit = true) (hshort : digits.length ≤ 28) :
    Nat.ofDigitChars 10 digits 0 < coefficientLimit :=
  calc Nat.ofDigitChars 10 digits 0
      < 10 ^ digits.length := ofDigitChars_lt h
    _ ≤ 10 ^ 28 := Nat.pow_le_pow_right (by decide) hshort
    _ < coefficientLimit := by decide

theorem Kept.finish_ofDigits {digits : List Char} {places : Option Nat} (h : digits ≠ []) :
    (Kept.ofDigits digits places).finish =
      some (Nat.ofDigitChars 10 digits 0, places.getD 0) := by
  simp [Kept.finish, Kept.ofDigits, h]

theorem takePlain_digit {digits s : List Char} {places : Option Nat} {c : Char}
    (hdigits : ∀ d ∈ digits ++ [c], d.isDigit = true) (hshort : digits.length < 28)
    (hplaces : ∀ p ∈ places, p ≤ digits.length) :
    takePlain (.ofDigits digits places) (c :: s) =
      takePlain (.ofDigits (digits ++ [c]) (places.map (· + 1))) s := by
  have hc : c.isDigit = true := hdigits c (by simp)
  have hfull : (Kept.ofDigits digits places).isFull = false := by
    cases places with
    | none => rfl
    | some p =>
      have hp : p ≤ digits.length := hplaces p rfl
      have hne : p ≠ maxScale := by
        rw [maxScale]
        omega
      simp [Kept.isFull, Kept.ofDigits, hne]
  have hlimit : ¬ coefficientLimit ≤ (Kept.ofDigits (digits ++ [c])
      (places.map (· + 1))).coefficient :=
    Nat.not_le.2 (ofDigitChars_lt_coefficientLimit hdigits (by simpa using hshort))
  rw [takePlain]
  simp only [hc, push_ofDigits, hfull, hlimit, decide_false, Bool.or_self, if_true,
    Bool.false_eq_true, if_false]

theorem takePlain_digits {digits more s : List Char} {places : Option Nat}
    (hdigits : ∀ d ∈ digits ++ more, d.isDigit = true) (hshort : (digits ++ more).length ≤ 28)
    (hplaces : ∀ p ∈ places, p ≤ digits.length) :
    takePlain (.ofDigits digits places) (more ++ s) =
      takePlain (.ofDigits (digits ++ more) (places.map (· + more.length))) s := by
  induction more generalizing digits places with
  | nil => simp
  | cons c more ih =>
    have happend : digits ++ c :: more = digits ++ [c] ++ more := by simp
    rw [happend] at hdigits hshort ⊢
    have hlength : digits.length < 28 := by
      simp only [List.length_append, List.length_singleton] at hshort
      omega
    have hc : ∀ d ∈ digits ++ [c], d.isDigit = true := fun d hd =>
      hdigits d (List.mem_append_left _ hd)
    have hplaces' : ∀ p ∈ places.map (· + 1), p ≤ (digits ++ [c]).length := by
      intro p hp
      obtain ⟨q, hq, rfl⟩ := Option.mem_map.1 hp
      simpa using hplaces q hq
    have hmap : (places.map (· + 1)).map (· + more.length) =
        places.map (· + (c :: more).length) := by
      rw [Option.map_map]
      refine congrArg (places.map ·) (funext fun p => ?_)
      simp only [Function.comp_apply, List.length_cons]
      omega
    rw [List.cons_append, takePlain_digit hc hlength hplaces, ih hdigits hshort hplaces', hmap]

theorem takePlain_numeral {run : List Char} (h : Lexeme.IsShort run) :
    ∃ coefficient scale, takePlain .start run = some (coefficient, scale) ∧
      coefficient < coefficientLimit ∧ scale ≤ maxScale ∧
      Lexeme.numeral run = ⟨coefficient, -(scale : Int)⟩ := by
  have hall {digits : List Char} (hdigits : ∀ c ∈ digits, c.isDigit = true) :
      digits.countP Char.isDigit = digits.length := List.countP_eq_length.2 hdigits
  have hshort := h.short
  have hstart : Kept.start = .ofDigits [] none := rfl
  rw [hstart]
  rcases h.digits_or_pointed with hdigits | ⟨whole, fraction, rfl, hw, hf⟩
  · have hlength : run.length ≤ 28 := hall hdigits ▸ hshort
    have hread : takePlain (.ofDigits [] none) (run ++ []) = takePlain (.ofDigits run none) [] :=
      takePlain_digits hdigits hlength nofun
    rw [List.append_nil, takePlain, Kept.finish_ofDigits h.ne_nil] at hread
    exact ⟨_, _, hread, ofDigitChars_lt_coefficientLimit hdigits hlength, Nat.zero_le _,
      Lexeme.numeral_digits hdigits⟩
  · have hdigits : ∀ c ∈ whole ++ fraction, c.isDigit = true :=
      List.forall_mem_append.2 ⟨hw, hf⟩
    have hlength : (whole ++ fraction).length ≤ 28 := by
      rw [List.countP_append, List.countP_cons_of_neg (by decide), hall hw, hall hf] at hshort
      simpa using hshort
    have hne : whole ++ fraction ≠ [] := (Lexeme.isNumeral_pointed_iff hw hf).1 h.toIsNumeral
    have hwholeLength : whole.length ≤ 28 := by
      rw [List.length_append] at hlength
      omega
    have hscale : fraction.length ≤ maxScale := by
      rw [List.length_append] at hlength
      rw [maxScale]
      omega
    -- The whole part, the point and the fraction are kept one after another.
    have hwhole : takePlain (.ofDigits [] none) (whole ++ '.' :: fraction) =
        takePlain (.ofDigits whole none) ('.' :: fraction) :=
      takePlain_digits hw hwholeLength nofun
    have hpoint : takePlain (.ofDigits whole none) ('.' :: fraction) =
        takePlain (.ofDigits whole (some 0)) fraction := by
      simp [takePlain, Kept.ofDigits]
    have hfraction : takePlain (.ofDigits whole (some 0)) (fraction ++ []) =
        takePlain (.ofDigits (whole ++ fraction) (some (0 + fraction.length))) [] :=
      takePlain_digits hdigits hlength (by simp)
    rw [List.append_nil, takePlain, Kept.finish_ofDigits hne, Nat.zero_add] at hfraction
    exact ⟨_, _, hwhole.trans (hpoint.trans hfraction),
      ofDigitChars_lt_coefficientLimit hdigits hlength, hscale, Lexeme.numeral_pointed hw hf⟩

theorem exists_ofText? {run s : List Char} {negative : Bool} (h : Lexeme.IsShort run)
    (hs : takeSign s = (negative, run)) :
    ∃ x, ofText? s = some x ∧
      x.toRat = (if negative then -1 else 1) * (Lexeme.numeral run).toRat := by
  obtain ⟨coefficient, scale, hread, hc, hscale, hnumeral⟩ := takePlain_numeral h
  obtain ⟨x, hx, hrat⟩ := exists_ofParts? negative hc hscale
  have hplain : plain? s = some x := by
    simp only [plain?, hs, hread, hx]
  refine ⟨x, ?_, ?_⟩
  · rw [ofText?, hplain]
  · rw [hrat, hnumeral]

end Decimal

/-! ## Exact values -/

/-- The rational numbers that short texts spell: none at all for zero, or a numeral with or without
a sign. -/
inductive SpellsRat : List Char → ℚ → Prop
  | blank : SpellsRat [] 0
  | unsigned {run : List Char} (h : Lexeme.IsShort run) :
      SpellsRat run (Lexeme.numeral run).toRat
  | plus {run : List Char} (h : Lexeme.IsShort run) :
      SpellsRat ('+' :: run) (Lexeme.numeral run).toRat
  | minus {run : List Char} (h : Lexeme.IsShort run) :
      SpellsRat ('-' :: run) (-(Lexeme.numeral run).toRat)

/-- The rational numbers that values spell exactly. -/
inductive Value.Spells : Value → ℚ → Prop
  | boolean (b : Bool) : Spells (.boolean b) (if b then 1 else 0)
  | integer (n : Int64) : Spells (.integer n) n.toInt
  | text {s : String} {x : ℚ} (h : SpellsRat (Text.trim s.toList) x) : Spells (.text s) x

/-- A value that is compared as a text with other texts. -/
def Value.isText : Value → Bool
  | .text _ => true
  | _ => false

/-- A text spells zero by being empty, or what it is read as by the reader of decimals. -/
theorem SpellsRat.exists_decimal {s : List Char} {x : ℚ} (h : SpellsRat s x) :
    s = [] ∧ x = 0 ∨ s ≠ [] ∧ ∃ d, Decimal.ofText? s = some d ∧ d.toRat = x := by
  cases h with
  | blank => exact .inl ⟨rfl, rfl⟩
  | unsigned h =>
    have hd := Decimal.exists_ofText? h (takeSign_of_isNumberChar h.chars)
    exact .inr ⟨h.ne_nil, by simpa using hd⟩
  | plus h =>
    have hd := Decimal.exists_ofText? h (s := '+' :: _) rfl
    exact .inr ⟨List.cons_ne_nil _ _, by simpa using hd⟩
  | minus h =>
    have hd := Decimal.exists_ofText? h (s := '-' :: _) rfl
    exact .inr ⟨List.cons_ne_nil _ _, by simpa using hd⟩

/-- A short text is not left to the reader of binary numbers. -/
theorem SpellsRat.ofText? {s : String} {x : ℚ} (h : SpellsRat (Text.trim s.toList) x) :
    ∃ d, Number.ofText? s = some (.exact d) ∧ d.toRat = x := by
  unfold Number.ofText?
  rcases h.exists_decimal with ⟨hs, rfl⟩ | ⟨hs, d, hd, rfl⟩
  · rw [hs]
    refine ⟨.zero, rfl, ?_⟩
    rw [Decimal.zero, Decimal.toRat_ofInt64]
    rfl
  · refine ⟨d, ?_, rfl⟩
    split
    · next hempty => exact absurd hempty hs
    · rw [hd]

namespace Value

theorem Spells.number? {a : Value} {x : ℚ} (h : a.Spells x) :
    ∃ d, a.number? = some (.exact d) ∧ d.toRat = x := by
  cases h with
  | boolean b =>
    refine ⟨_, rfl, ?_⟩
    cases b <;> simp [Decimal.zero, Decimal.one, Decimal.toRat_ofInt64]
  | integer n => exact ⟨_, rfl, Decimal.toRat_ofInt64 n⟩
  | text h => exact h.ofText?

theorem Spells.unique {a : Value} {x y : ℚ} (hx : a.Spells x) (hy : a.Spells y) : x = y := by
  obtain ⟨d, hd, rfl⟩ := hx.number?
  obtain ⟨e, he, rfl⟩ := hy.number?
  obtain rfl : d = e := by simpa using hd.symm.trans he
  rfl

/-- Values that are not both texts compare as the numbers that they read as. -/
theorem looseCompare_of_not_text {a b : Value} (h : a.isText = false ∨ b.isText = false) :
    a.looseCompare b = a.number?.bind fun m => b.number?.bind m.compare? := by
  unfold looseCompare
  split
  · simp [isText] at h
  · cases a.number? <;> cases b.number? <;> rfl

theorem looseCompare_of_number? {a b : Value} {m n : Number}
    (h : a.isText = false ∨ b.isText = false) (ha : a.number? = some m)
    (hb : b.number? = some n) : a.looseCompare b = m.compare? n := by
  rw [looseCompare_of_not_text h, ha, hb]
  rfl

end Value

/-- **Exact comparison.** Two exact values that are not both texts are in the order of the rational
numbers that they spell. So any other values that spell these numbers are in the same order. -/
theorem looseCompare_exact {a b : Value} {x y : ℚ} (ha : a.Spells x) (hb : b.Spells y)
    (h : a.isText = false ∨ b.isText = false) :
    a.looseCompare b = some (compare x y) ∧
      ∀ a' b' : Value, a'.Spells x → b'.Spells y → a'.isText = false ∨ b'.isText = false →
        a'.looseCompare b' = a.looseCompare b := by
  have hcompare {a b : Value} (ha : a.Spells x) (hb : b.Spells y)
      (h : a.isText = false ∨ b.isText = false) : a.looseCompare b = some (compare x y) := by
    obtain ⟨d, hd, rfl⟩ := ha.number?
    obtain ⟨e, he, rfl⟩ := hb.number?
    rw [Value.looseCompare_of_number? h hd he, Number.compare?, Decimal.order_eq_compare]
  refine ⟨hcompare ha hb h, ?_⟩
  intro a' b' ha' hb' h'
  rw [hcompare ha' hb' h', hcompare ha hb h]

/-- Half below the least integer, written with blanks, needless zeros and without them. -/
theorem looseCompare_exact_below :
    let a : Value := .text " -009223372036854775808.50\t"
    let a' : Value := .text "-9223372036854775808.5"
    let b : Value := .integer Int64.minValue
    let x : ℚ := -(9223372036854775808 + 1 / 2)
    a.Spells x ∧ a'.Spells x ∧ b.Spells (-9223372036854775808) ∧
      a.looseCompare b = some .lt ∧ a'.looseCompare b = some .lt := by
  intro a a' b x
  have hminus (s run : String) (n : Scientific) (hs : Text.trim s.toList = '-' :: run.toList)
      (hrun : Lexeme.IsShort run.toList) (hn : Lexeme.numeral run.toList = n)
      (hx : -n.toRat = x) : (Value.text s).Spells x := by
    rw [← hx, ← hn]
    exact .text (hs ▸ .minus hrun)
  have ha : a.Spells x :=
    hminus _ "009223372036854775808.50" ⟨922337203685477580850, -2⟩ (by decide) (by decide)
      (by decide) (by norm_num [Scientific.toRat, x])
  have ha' : a'.Spells x :=
    hminus _ "9223372036854775808.5" ⟨92233720368547758085, -1⟩ (by decide) (by decide)
      (by decide) (by norm_num [Scientific.toRat, x])
  have hb : b.Spells (-9223372036854775808) := by
    have h := Value.Spells.integer Int64.minValue
    have hmin : Int64.minValue.toInt = -9223372036854775808 := by decide
    rw [hmin] at h
    exact_mod_cast h
  have hlt : compare x (-9223372036854775808) = .lt := by
    rw [compare_lt_iff_lt]
    norm_num [x]
  obtain ⟨hcompare, hrespelled⟩ := looseCompare_exact ha hb (.inr rfl)
  rw [hlt] at hcompare
  refine ⟨ha, ha', hb, hcompare, ?_⟩
  rw [hrespelled a' b ha' hb (.inr rfl), hcompare]

end FactQuery
