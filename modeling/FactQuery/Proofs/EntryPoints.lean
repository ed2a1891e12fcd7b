import Mathlib
import FactQuery.Check

/-!
# Entry points

A text can be checked, shown as a tree, or decided on facts. Each of these reads it on its own, and
all of them have to agree on which texts are expressions.

**The order of faults.** What is wrong with the expression comes before anything that is wrong with
the facts, whichever the entry point. So the facts of a check are not looked at before the
expression is known to be well formed, and not at all if only the syntax is checked.

**Checks and verdicts** (`checkOn`). From there on a check is told by the verdicts of the text on
facts alone: the facts may be missing, be no JSON, or have the wrong shape, and else there is the
verdict or the error of the evaluation.

**Theorem (`check_agrees`).** These are all the outcomes of a check.
-/

namespace FactQuery

/-- An error of reading the text, and not of deciding the expression. -/
inductive QueryError.IsReading : QueryError → Prop
  | lex (e : LexError) : IsReading (.lex e)
  | parse (e : ParseError) : IsReading (.parse e)

section
variable (complaint : String → String)

/-- What is wrong with a text for every entry point. -/
structure Rejected (source : String) (e : QueryError) : Prop where
  isReading : e.IsReading
  check : ∀ facts syntaxOnly, check complaint source facts syntaxOnly = .error (.query e)
  showTree : ∀ pretty, showTree source pretty = .error (.query e)
  evaluate : ∀ facts, evaluate source facts = .error e

/-- The outcome of a check, told by the verdicts on facts. -/
def checkOn (facts : Option String) (verdict : Facts → Except QueryError Bool) :
    Except CheckError CheckResult :=
  match facts with
  | none => .error .noFacts
  | some text =>
    match JsonValue.ofText? text with
    | none => .error (.invalidJson (complaint text))
    | some v =>
      match Facts.ofJson v with
      | .error fault => .error (.invalidFacts fault)
      | .ok facts =>
        match verdict facts with
        | .error e => .error (.query e)
        | .ok v => .ok (.verdict v)

end

/-! ## Texts that are no expressions -/

/-- What keeps a text from being an expression is an error of the lexer or of the grammar. -/
theorem isReading_of_parse_eq_error {source : String} {e : QueryError}
    (h : parse source = .error e) : e.IsReading := by
  unfold parse at h
  cases hlex : lex source with
  | error fault =>
    rw [hlex] at h
    cases h
    exact .lex fault
  | ok tokens =>
    rw [hlex] at h
    cases hread : Expr.ofTokens tokens with
    | error fault =>
      simp only [hread, Except.mapError, Except.error.injEq] at h
      subst h
      exact .parse fault
    | ok x => simp [hread, Except.mapError] at h

theorem rejected_of_parse (complaint : String → String) {source : String} {e : QueryError}
    (h : parse source = .error e) : Rejected complaint source e where
  isReading := isReading_of_parse_eq_error h
  check facts syntaxOnly := by simp only [check, h]
  showTree pretty := by simp only [showTree, h]
  evaluate facts := by simp only [evaluate, h]

/-! ## Texts that are expressions -/

section
variable {source : String} {x : Expr} (h : parse source = .ok x)
include h

theorem check_syntaxOnly_of_parse (complaint : String → String) (facts : Option String) :
    check complaint source facts true = .ok .syntaxValid := by
  simp only [check, h, if_true]

theorem showTree_of_parse (pretty : Bool) :
    showTree source pretty = .ok (if pretty then x.indented else x.compact) := by
  simp only [showTree, h]

/-- A check of an expression looks at the facts, and then gives the verdict of the text on them. -/
theorem check_of_parse (complaint : String → String) (facts : Option String) :
    check complaint source facts false = checkOn complaint facts (evaluate source) := by
  unfold check checkOn
  rw [h]
  cases facts with
  | none => rfl
  | some text =>
    simp only [givenFacts, factsOfText, evaluate_of_parse h]
    cases JsonValue.ofText? text with
    | none => rfl
    | some v =>
      cases hv : Facts.ofJson v with
      | error fault => simp [hv, Except.mapError]
      | ok facts =>
        cases hx : x.verdict facts with
        | error fault => simp [hv, hx, Except.mapError]
        | ok v => simp [hv, hx, Except.mapError]

end

/-- **The entry points agree.** A check of the syntax alone does not depend on the facts, and
accepts just the texts that have a tree to show. What it rejects is rejected everywhere for the same
reason, which is one of the lexer or of the grammar. For what it accepts, a check gives what is
wrong with the facts, or else what deciding the text on them gives. -/
theorem check_agrees (complaint : String → String) (source : String) :
    (∀ facts facts', check complaint source facts true = check complaint source facts' true) ∧
    (∀ facts pretty, check complaint source facts true = .ok .syntaxValid ↔
      ∃ text, showTree source pretty = .ok text) ∧
    (∀ facts e, check complaint source facts true = .error e →
      ∃ q, e = .query q ∧ Rejected complaint source q) ∧
    (∀ facts, check complaint source facts true = .ok .syntaxValid →
      (∀ facts', check complaint source facts' false =
        checkOn complaint facts' (evaluate source)) ∧
      ∀ facts' q, evaluate source facts' = .error q → ∃ e, q = .eval e) := by
  cases h : parse source with
  | error q =>
    have hrejected := rejected_of_parse complaint h
    refine ⟨?_, ?_, ?_, ?_⟩
    · intro facts facts'
      rw [hrejected.check, hrejected.check]
    · intro facts pretty
      simp [hrejected.check, hrejected.showTree]
    · intro facts e he
      rw [hrejected.check, Except.error.injEq] at he
      exact ⟨q, he.symm, hrejected⟩
    · intro facts hvalid
      simp [hrejected.check] at hvalid
  | ok x =>
    have hvalid := check_syntaxOnly_of_parse h complaint
    refine ⟨?_, ?_, ?_, ?_⟩
    · intro facts facts'
      rw [hvalid, hvalid]
    · intro facts pretty
      simp [hvalid, showTree_of_parse h]
    · intro facts e he
      simp [hvalid] at he
    · intro facts _
      refine ⟨check_of_parse h complaint, fun facts' q hq => ?_⟩
      rw [evaluate_of_parse h] at hq
      cases hx : x.verdict facts' with
      | error e =>
        simp only [hx, Except.mapError, Except.error.injEq] at hq
        exact ⟨e, hq.symm⟩
      | ok v => simp [hx, Except.mapError] at hq

/-- Where the right operand is missing, facts that are no JSON are not even looked at. What an
expression says wrongly is no fault before the facts are in order. -/
theorem check_agrees_faults :
    let missing : QueryError := .parse (.expectedLiteral .comparison none)
    let number : QueryError := .eval (.notAField (.comparison .equal) (.literal (.integer 1)))
    let complaint := fun _ => "EOF while parsing"
    check complaint "a ==" (some "\x7b") true = .error (.query missing) ∧
      Rejected complaint "a ==" missing ∧
      check complaint "1 == 2" none true = .ok .syntaxValid ∧
      check complaint "1 == 2" (some "\x7b") false = .error (.invalidJson "EOF while parsing") ∧
      check complaint "1 == 2" (some "[0]") false =
        .error (.invalidFacts (.notAnObject .number)) ∧
      check complaint "1 == 2" (some "[]") false = .error (.query number) := by
  intro missing number complaint
  obtain ⟨-, -, hrejected, -⟩ := check_agrees (fun _ => "EOF while parsing") "a =="
  obtain ⟨-, -, -, hchecked⟩ := check_agrees (fun _ => "EOF while parsing") "1 == 2"
  have hinvalid : check (fun _ => "EOF while parsing") "a ==" (some "\x7b") true =
      .error (.query (.parse (.expectedLiteral .comparison none))) := by cbv
  have hvalid : check (fun _ => "EOF while parsing") "1 == 2" none true = .ok .syntaxValid := by cbv
  obtain ⟨q, hq, hmissing⟩ := hrejected _ _ hinvalid
  obtain ⟨hcheck, -⟩ := hchecked _ hvalid
  cases hq
  refine ⟨hinvalid, hmissing, hvalid, (hcheck _).trans ?_, (hcheck _).trans ?_,
    (hcheck _).trans ?_⟩
  · cbv
  · cbv
  · cbv

end FactQuery
