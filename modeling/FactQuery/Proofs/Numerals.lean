import Mathlib
import FactQuery.Token.Lexeme

/-!
# Which runs of digits and points are numbers

**Theorem (`Lexeme.number?_eq_some_iff`).** A run of digits and points spells a number exactly if it
has a digit and at most one point. Without a point it is an integer as long as it fits, and else the
binary number nearest to what it spells (`Lexeme.numberReading`).

The reader of binary numbers knows more texts than these: signs, exponents and words. None of them
is a run of digits and points, so of that reader only the digits around an optional point count
(`Binary64.ofText?_of_isNumberChar`).
-/

namespace FactQuery

/-! ## Runs -/

section
variable {α : Type} {p : α → Bool} {run rest : List α}

/-- A run is taken up to the first character that does not belong to it. -/
theorem takeWhile_run (hrun : ∀ c ∈ run, p c = true) (hrest : ∀ c ∈ rest.head?, p c = false) :
    (run ++ rest).takeWhile p = run := by
  rw [List.takeWhile_append_of_pos hrun]
  cases rest with
  | nil => simp
  | cons c rest => simp [hrest c rfl]

theorem dropWhile_run (hrun : ∀ c ∈ run, p c = true) (hrest : ∀ c ∈ rest.head?, p c = false) :
    (run ++ rest).dropWhile p = rest := by
  rw [List.dropWhile_append_of_pos hrun]
  cases rest with
  | nil => rfl
  | cons c rest => simp [hrest c rfl]

theorem not_of_mem_head?_dropWhile {c : α} {l : List α} (h : c ∈ (l.dropWhile p).head?) :
    p c = false := by
  have hnot := List.head?_dropWhile_not p l
  rw [Option.mem_def.1 h] at hnot
  simpa using hnot

end

/-! ## Digits and points -/

/-- The digits and the point. -/
def numberChars : List Char := ['0', '1', '2', '3', '4', '5', '6', '7', '8', '9', '.']

theorem mem_numberChars {c : Char} (h : isNumberChar c = true) : c ∈ numberChars := by
  rcases Bool.or_eq_true_iff.1 h with h | h
  · obtain ⟨hlo, hhi⟩ : 48 ≤ c.toNat ∧ c.toNat ≤ 57 := Char.isDigit_iff_toNat.1 h
    rw [← Char.ofNat_toNat c]
    generalize c.toNat = n at hlo hhi
    interval_cases n <;> decide
  · simp [eq_of_beq h, numberChars]

theorem isDigit_eq_false_iff {c : Char} (h : isNumberChar c = true) :
    c.isDigit = false ↔ c = '.' := by
  have hall : ∀ c ∈ numberChars, (c.isDigit = false ↔ c = '.') := by simp [numberChars]
  exact hall c (mem_numberChars h)

theorem takeSign_of_isNumberChar {run : List Char} (hrun : ∀ c ∈ run, isNumberChar c = true) :
    takeSign run = (false, run) := by
  cases run with
  | nil => rfl
  | cons c run =>
    have hall : ∀ c ∈ numberChars, c ≠ '-' ∧ c ≠ '+' := by simp [numberChars]
    obtain ⟨hminus, hplus⟩ := hall c (mem_numberChars (hrun c (by simp)))
    unfold takeSign
    split
    · next heq => exact absurd (List.cons.inj heq).1 hminus
    · next heq => exact absurd (List.cons.inj heq).1 hplus
    · rfl

/-- Digits and points spell no word, in whatever case. -/
theorem toLower_run_ne {run : List Char} (hrun : ∀ c ∈ run, isNumberChar c = true)
    {c : Char} (hc : c ∉ numberChars) (word : List Char) :
    String.ofList (run.map Char.toLower) ≠ String.ofList (c :: word) := by
  intro h
  have hlist : run.map Char.toLower = c :: word := String.ofList_injective h
  cases run with
  | nil => cases hlist
  | cons d run =>
    have hd : d ∈ numberChars := mem_numberChars (hrun d (by simp))
    have hlower : ∀ d ∈ numberChars, d.toLower = d := by simp [numberChars]
    have heq : d.toLower = c := (List.cons.inj hlist).1
    rw [hlower d hd] at heq
    exact hc (heq ▸ hd)

namespace Binary64

/-- Of a run of digits and points, only the digits around the first point are looked at. -/
theorem ofText?_of_isNumberChar {run : List Char} (hrun : ∀ c ∈ run, isNumberChar c = true) :
    ofText? run = (Scientific.ofText? run).map (ofScientific false) := by
  have hi : String.ofList (run.map Char.toLower) ≠ "inf" := toLower_run_ne hrun (by decide) _
  have hinf : String.ofList (run.map Char.toLower) ≠ "infinity" :=
    toLower_run_ne hrun (by decide) _
  have hn : String.ofList (run.map Char.toLower) ≠ "nan" := toLower_run_ne hrun (by decide) _
  rw [ofText?, takeSign_of_isNumberChar hrun]
  simp only [hi, hinf, hn, or_self, if_false]

end Binary64

namespace Scientific

theorem ofText?_digits {run : List Char} (hrun : ∀ c ∈ run, c.isDigit = true) (hne : run ≠ []) :
    ofText? run = some ⟨Nat.ofDigitChars 10 run 0, 0⟩ := by
  have htake : run.takeWhile Char.isDigit = run := List.takeWhile_eq_self_iff.2 hrun
  have hdrop : run.dropWhile Char.isDigit = [] := List.dropWhile_eq_nil_iff.2 hrun
  simp [ofText?, takePointed, htake, hdrop, hne]

theorem ofText?_pointed {whole fraction : List Char} (hw : ∀ c ∈ whole, c.isDigit = true)
    (hf : ∀ c ∈ fraction, c.isDigit = true) :
    ofText? (whole ++ '.' :: fraction) =
      if whole ++ fraction = [] then none
      else some ⟨Nat.ofDigitChars 10 (whole ++ fraction) 0, -(fraction.length : Int)⟩ := by
  have hpoint : ∀ c ∈ ('.' :: fraction).head?, c.isDigit = false := by simp
  have htake : fraction.takeWhile Char.isDigit = fraction := List.takeWhile_eq_self_iff.2 hf
  have hdrop : fraction.dropWhile Char.isDigit = [] := List.dropWhile_eq_nil_iff.2 hf
  by_cases hempty : whole ++ fraction = []
  · simp [ofText?, takePointed, takeWhile_run hw hpoint, dropWhile_run hw hpoint, htake, hempty]
  · simp [ofText?, takePointed, takeWhile_run hw hpoint, dropWhile_run hw hpoint, htake, hdrop,
      hempty]

theorem ofText?_two_points {whole fraction rest : List Char}
    (hw : ∀ c ∈ whole, c.isDigit = true) (hf : ∀ c ∈ fraction, c.isDigit = true) :
    ofText? (whole ++ '.' :: (fraction ++ '.' :: rest)) = none := by
  have hpoint (s : List Char) : ∀ c ∈ ('.' :: s).head?, c.isDigit = false := by simp
  have htake := takeWhile_run hf (hpoint rest)
  have hdrop := dropWhile_run hf (hpoint rest)
  by_cases hempty : whole ++ fraction = []
  · simp [ofText?, takePointed, takeWhile_run hw (hpoint _), dropWhile_run hw (hpoint _), htake,
      hempty]
  · simp [ofText?, takePointed, takeWhile_run hw (hpoint _), dropWhile_run hw (hpoint _), htake,
      hdrop, hempty]

end Scientific

/-! ## Numerals -/

namespace Lexeme

/-- A run of digits and points with at least one digit and at most one point. -/
structure IsNumeral (run : List Char) : Prop where
  chars : ∀ c ∈ run, isNumberChar c = true
  digit : ∃ c ∈ run, c.isDigit = true
  point : run.count '.' ≤ 1

theorem IsNumeral.ne_nil {run : List Char} (h : IsNumeral run) : run ≠ [] := by
  obtain ⟨c, hc, -⟩ := h.digit
  exact List.ne_nil_of_mem hc

/-- What a numeral spells: its digits, and so many of them behind the point. -/
def numeral (run : List Char) : Scientific :=
  ⟨Nat.ofDigitChars 10 (run.filter Char.isDigit) 0,
    -(((run.dropWhile (· != '.')).drop 1).length : Int)⟩

/-- The literal that a numeral is read as: without a point an integer, as long as it is one of 64
bits, and else the nearest binary number. -/
def numberReading (run : List Char) : Literal :=
  if '.' ∉ run ∧ (Nat.ofDigitChars 10 run 0 : Int) ≤ Int64.maxValue.toInt then
    .integer (Int64.ofNat (Nat.ofDigitChars 10 run 0))
  else .float (Binary64.ofScientific false (numeral run))

theorem point_notMem {run : List Char} (h : ∀ c ∈ run, c.isDigit = true) : '.' ∉ run := by
  intro hmem
  have hdigit : ('.' : Char).isDigit = true := h '.' hmem
  revert hdigit
  decide

theorem exists_first_point {run : List Char} (hrun : ∀ c ∈ run, isNumberChar c = true)
    (h : ¬ ∀ c ∈ run, c.isDigit = true) :
    ∃ whole tail, run = whole ++ '.' :: tail ∧ (∀ c ∈ whole, c.isDigit = true) ∧
      ∀ c ∈ tail, isNumberChar c = true := by
  have hsplit : run.takeWhile Char.isDigit ++ run.dropWhile Char.isDigit = run :=
    List.takeWhile_append_dropWhile
  cases hdrop : run.dropWhile Char.isDigit with
  | nil => exact absurd (List.dropWhile_eq_nil_iff.1 hdrop) h
  | cons c tail =>
    rw [hdrop] at hsplit
    have hc : c.isDigit = false := not_of_mem_head?_dropWhile (l := run) (by rw [hdrop]; rfl)
    have hnumber : isNumberChar c = true := hrun c (by rw [← hsplit]; simp)
    obtain rfl := (isDigit_eq_false_iff hnumber).1 hc
    refine ⟨_, tail, hsplit.symm, fun d hd => List.mem_takeWhile_imp hd, fun d hd => ?_⟩
    exact hrun d (by rw [← hsplit]; simp [hd])

theorem isNumberChar_of_isDigit {c : Char} (h : c.isDigit = true) : isNumberChar c = true := by
  simp [isNumberChar, h]

section
variable {run whole fraction : List Char}

theorem isNumeral_digits (h : ∀ c ∈ run, c.isDigit = true) (hne : run ≠ []) : IsNumeral run := by
  obtain ⟨c, hc⟩ := List.exists_mem_of_ne_nil run hne
  refine ⟨fun d hd => isNumberChar_of_isDigit (h d hd), ⟨c, hc, h c hc⟩, ?_⟩
  rw [List.count_eq_zero_of_not_mem (point_notMem h)]
  exact Nat.zero_le 1

theorem isDigit_of_mem_toDigits {n : Nat} : ∀ c ∈ Nat.toDigits 10 n, c.isDigit = true :=
  fun _ hc => Nat.isDigit_of_mem_toDigits (by decide) (by decide) hc

theorem isNumeral_toDigits (n : Nat) : IsNumeral (Nat.toDigits 10 n) :=
  isNumeral_digits isDigit_of_mem_toDigits Nat.toDigits_ne_nil

/-- Around a single point there has to be a digit. -/
theorem isNumeral_pointed_iff (hw : ∀ c ∈ whole, c.isDigit = true)
    (hf : ∀ c ∈ fraction, c.isDigit = true) :
    IsNumeral (whole ++ '.' :: fraction) ↔ whole ++ fraction ≠ [] := by
  have hdigits : ∀ c ∈ whole ++ fraction, c.isDigit = true := by
    intro c hc
    rcases List.mem_append.1 hc with hc | hc
    · exact hw c hc
    · exact hf c hc
  have hmem (c : Char) : c ∈ whole ++ '.' :: fraction ↔ c = '.' ∨ c ∈ whole ++ fraction := by
    simp only [List.mem_append, List.mem_cons]
    exact or_left_comm
  refine ⟨?_, ?_⟩
  · intro h hempty
    obtain ⟨c, hc, hdigit⟩ := h.digit
    rcases (hmem c).1 hc with rfl | hc
    · revert hdigit
      decide
    · rw [hempty] at hc
      cases hc
  · intro hne
    obtain ⟨c, hc⟩ := List.exists_mem_of_ne_nil _ hne
    refine ⟨fun d hd => ?_, ⟨c, (hmem c).2 (.inr hc), hdigits c hc⟩, ?_⟩
    · rcases (hmem d).1 hd with rfl | hd
      · rfl
      · exact isNumberChar_of_isDigit (hdigits d hd)
    · rw [List.count_append, List.count_cons_self,
        List.count_eq_zero_of_not_mem (point_notMem hw),
        List.count_eq_zero_of_not_mem (point_notMem hf)]

theorem not_isNumeral_two_points (rest : List Char) :
    ¬ IsNumeral (whole ++ '.' :: (fraction ++ '.' :: rest)) := by
  intro h
  have hcount := h.point
  simp only [List.count_append, List.count_cons_self] at hcount
  omega

theorem numeral_digits (h : ∀ c ∈ run, c.isDigit = true) :
    numeral run = ⟨Nat.ofDigitChars 10 run 0, 0⟩ := by
  have hfilter : run.filter Char.isDigit = run := List.filter_eq_self.2 h
  have hdrop : run.dropWhile (· != '.') = [] := by
    refine List.dropWhile_eq_nil_iff.2 fun c hc => ?_
    simp only [bne_iff_ne, ne_eq]
    rintro rfl
    exact point_notMem h hc
  simp [numeral, hfilter, hdrop]

theorem numeral_pointed (hw : ∀ c ∈ whole, c.isDigit = true)
    (hf : ∀ c ∈ fraction, c.isDigit = true) :
    numeral (whole ++ '.' :: fraction) =
      ⟨Nat.ofDigitChars 10 (whole ++ fraction) 0, -(fraction.length : Int)⟩ := by
  have hfilter : (whole ++ '.' :: fraction).filter Char.isDigit = whole ++ fraction := by
    rw [List.filter_append, List.filter_cons_of_neg (by decide), List.filter_eq_self.2 hw,
      List.filter_eq_self.2 hf]
  have hdrop : (whole ++ '.' :: fraction).dropWhile (· != '.') = '.' :: fraction := by
    refine dropWhile_run (fun c hc => ?_) (by simp)
    simp only [bne_iff_ne, ne_eq]
    rintro rfl
    exact point_notMem hw hc
  simp [numeral, hfilter, hdrop]

/-- A numeral is made of digits, or of digits around one point. -/
theorem IsNumeral.digits_or_pointed (h : IsNumeral run) :
    (∀ c ∈ run, c.isDigit = true) ∨ ∃ whole fraction, run = whole ++ '.' :: fraction ∧
      (∀ c ∈ whole, c.isDigit = true) ∧ ∀ c ∈ fraction, c.isDigit = true := by
  by_cases hdigits : ∀ c ∈ run, c.isDigit = true
  · exact .inl hdigits
  obtain ⟨whole, tail, rfl, hw, ht⟩ := exists_first_point h.chars hdigits
  by_cases htail : ∀ c ∈ tail, c.isDigit = true
  · exact .inr ⟨whole, tail, rfl, hw, htail⟩
  · obtain ⟨fraction, rest, rfl, hf, -⟩ := exists_first_point ht htail
    exact absurd h (not_isNumeral_two_points rest)

/-! ## Reading numerals -/

theorem number?_digits (h : ∀ c ∈ run, c.isDigit = true) (hne : run ≠ []) :
    number? run = some (numberReading run) := by
  have hall : run.all Char.isDigit = true := List.all_eq_true.2 h
  have hlimit : (Nat.ofDigitChars 10 run 0 : Int) ≤ Int64.maxValue.toInt ↔
      Nat.ofDigitChars 10 run 0 < integerLimit := by
    have hmax : Int64.maxValue.toInt = (integerLimit : Int) - 1 := by decide
    rw [hmax]
    omega
  simp only [number?, numberReading, hall, point_notMem h, hlimit, numeral_digits h,
    Binary64.ofText?_of_isNumberChar (isNumeral_digits h hne).chars,
    Scientific.ofText?_digits h hne, Bool.true_and, decide_eq_true_eq, not_false_eq_true, true_and,
    Option.map_some]
  split <;> rfl

theorem number?_of_point (hrun : ∀ c ∈ run, isNumberChar c = true) (h : '.' ∈ run) :
    number? run =
      (Scientific.ofText? run).map fun x => .float (Binary64.ofScientific false x) := by
  have hall : run.all Char.isDigit = false := by
    rw [List.all_eq_false]
    exact ⟨'.', h, by decide⟩
  simp [number?, hall, Binary64.ofText?_of_isNumberChar hrun, Function.comp_def]

theorem numberReading_pointed (hw : ∀ c ∈ whole, c.isDigit = true)
    (hf : ∀ c ∈ fraction, c.isDigit = true) :
    numberReading (whole ++ '.' :: fraction) = .float (Binary64.ofScientific false
      ⟨Nat.ofDigitChars 10 (whole ++ fraction) 0, -(fraction.length : Int)⟩) := by
  simp [numberReading, numeral_pointed hw hf]

/-- **Which runs are numbers**, and which numbers they are. -/
theorem number?_eq_some_iff {l : Literal} (hrun : ∀ c ∈ run, isNumberChar c = true)
    (hne : run ≠ []) : number? run = some l ↔ IsNumeral run ∧ l = numberReading run := by
  by_cases hdigits : ∀ c ∈ run, c.isDigit = true
  · rw [number?_digits hdigits hne, Option.some.injEq,
      and_iff_right (isNumeral_digits hdigits hne), eq_comm]
  obtain ⟨whole, tail, rfl, hw, ht⟩ := exists_first_point hrun hdigits
  rw [number?_of_point hrun (by simp)]
  by_cases htail : ∀ c ∈ tail, c.isDigit = true
  · rw [Scientific.ofText?_pointed hw htail, isNumeral_pointed_iff hw htail,
      numberReading_pointed hw htail]
    by_cases hempty : whole ++ tail = []
    · simp [hempty]
    · rw [if_neg hempty, Option.map_some, Option.some.injEq, and_iff_right hempty, eq_comm]
  · obtain ⟨fraction, rest, rfl, hf, -⟩ := exists_first_point ht htail
    rw [Scientific.ofText?_two_points hw hf]
    simp [not_isNumeral_two_points]

end

end Lexeme

end FactQuery
