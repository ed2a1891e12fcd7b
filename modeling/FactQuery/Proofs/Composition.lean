import FactQuery.Proofs.Adjacency
import FactQuery.Proofs.Nesting
import FactQuery.Proofs.Scoping
import FactQuery.Proofs.Separation
import FactQuery.Query

/-!
# Texts put together

Put in parentheses, a text can stand on the left of every operator, and the text behind the operator
is its whole right operand. So the verdict of the whole text is composed of the verdicts of its
parts.

**Theorem (`evaluate_composed`).** For texts that spell expressions, the verdicts of `(A)`,
`(A) && B`, `(A) || B` and `(A) where B` follow from those of `A` and `B`, errors included, unless
the nesting gets too deep.

From the text to the verdict, each stage adds one fact: the tokens are those of the parts around the
new keywords (`scan_joined`), they are the spelling of a canonical tree (`Expr.Canonical`), which
passes the check of neighbours and is read from its spelling (`Means.of_spell`), and the verdict of
the tree comes from the verdicts of its operands.
-/

namespace FactQuery

/-! ## Texts and their tokens -/

theorem parse_of_scan_spell {source : String} {e : Expr} (hc : Expr.Canonical .expression e)
    (ho : e.opens < maxNesting) (hscan : scan source.toList = (e.spell, none)) :
    parse source = .ok e := by
  have hread : Expr.ofTokens e.spell = .ok e := Rule.complete_eq_ok_iff.2 ⟨hc, rfl, ho⟩
  exact parse_eq_ok_iff.2 ⟨e.spell, hscan, hread⟩

theorem scan_group {s : List Char} {ts : List Token} (h : scan s = (ts, none)) (u : List Char) :
    scan ('(' :: (s ++ ')' :: u)) =
      (.keyword .openGroup :: (ts ++ .keyword .closeGroup :: (scan u).1), (scan u).2) := by
  have hopen (s : List Char) : Lexeme.read ('(' :: s) = .token (.keyword .openGroup) s :=
    Lexeme.read_bracket (by decide) (by decide) (by decide) (by decide) s
  have hclose (s : List Char) : Lexeme.read (')' :: s) = .token (.keyword .closeGroup) s :=
    Lexeme.read_bracket (by decide) (by decide) (by decide) (by decide) s
  rw [scan_of_token (hopen _), scan_append isBreak_closeGroup, h, scan_of_token (hclose u)]

/-- An operator between blanks, with more text behind it. -/
theorem scan_operator (op : BinaryOp) (u : List Char) :
    scan (' ' :: (op.spelling.toList ++ ' ' :: u)) =
      (.keyword op.keyword :: (scan u).1, (scan u).2) := by
  have hop : scan (' ' :: op.spelling.toList) = ([.keyword op.keyword], none) := by
    rcases op with (_ | _) | (_ | _ | _ | _ | _ | _) | _ | _ <;> decide +kernel
  have happend := scan_append isBreak_space (' ' :: op.spelling.toList) u
  rw [hop, scan_cons_of_isBlank (by decide)] at happend
  exact happend

theorem scan_joined (op : BinaryOp) {A B : String} {as bs : List Token}
    (hA : scan A.toList = (as, none)) (hB : scan B.toList = (bs, none)) :
    scan ("(" ++ A ++ ") " ++ op.spelling ++ " " ++ B).toList =
      (.keyword .openGroup :: (as ++ .keyword .closeGroup :: .keyword op.keyword :: bs),
        none) := by
  have hlist : ("(" ++ A ++ ") " ++ op.spelling ++ " " ++ B).toList =
      '(' :: (A.toList ++ ')' :: (' ' :: (op.spelling.toList ++ ' ' :: B.toList))) := by
    simp
  rw [hlist, scan_group hA, scan_operator, hB]

/-! ## Texts and their verdicts -/

/-- The text is too deep, or it spells an expression with these verdicts. -/
def Means (source : String) (verdict : Facts → Except QueryError Bool) : Prop :=
  parse source ≠ .error (.parse .tooDeep) →
    (∃ e, parse source = .ok e) ∧ ∀ facts, evaluate source facts = verdict facts

theorem Means.of_spell {source : String} {e : Expr} {verdict : Facts → Except QueryError Bool}
    (hc : Expr.Canonical .expression e) (hscan : scan source.toList = (e.spell, none))
    (hverdict : ∀ facts, (e.verdict facts).mapError .eval = verdict facts) :
    Means source verdict := by
  intro hdepth
  have hparse : parse source = .ok e := by
    rcases hc.ofTokens_spell with hok | hdeep
    · exact parse_eq_ok_iff.2 ⟨e.spell, hscan, hok⟩
    · refine absurd ?_ hdepth
      rw [parse, lex_of_scan_spell hscan]
      simp only [hdeep, Except.mapError]
  exact ⟨⟨e, hparse⟩, fun facts => (evaluate_of_parse hparse facts).trans (hverdict facts)⟩

theorem scan_of_parse {source : String} {e : Expr} (h : parse source = .ok e) :
    Expr.Canonical .expression e ∧ scan source.toList = (e.spell, none) := by
  obtain ⟨ts, hscan, hread⟩ := parse_eq_ok_iff.1 h
  obtain ⟨hc, rfl⟩ := Expr.canonical_of_ofTokens hread
  exact ⟨hc, hscan⟩

theorem Expr.Canonical.comparison_group {e : Expr} (h : Canonical .expression e) :
    Canonical .comparison (.group e) :=
  .ofMembership (.ofOperand (.group h))

section
variable {A B : String} {a b : Expr} (hA : parse A = .ok a)
include hA

theorem means_group : Means ("(" ++ A ++ ")") (evaluate A) := by
  obtain ⟨hca, hscan⟩ := scan_of_parse hA
  have hlist : ("(" ++ A ++ ")").toList = '(' :: (A.toList ++ [')']) := by simp
  have hgroup : scan ("(" ++ A ++ ")").toList = ((Expr.group a).spell, none) := by
    rw [hlist, scan_group hscan, scan_of_finish (s := []) rfl]
    rfl
  exact .of_spell (.ofComparison hca.comparison_group) hgroup fun facts =>
    (evaluate_of_parse hA facts).symm

variable (hB : parse B = .ok b)
include hB

/-- Around an operator, the tokens are the spelling of the operator's tree. -/
theorem scan_binary (op : BinaryOp) :
    scan ("(" ++ A ++ ") " ++ op.spelling ++ " " ++ B).toList =
      ((Expr.binary op (.group a) b).spell, none) := by
  rw [scan_joined op (scan_of_parse hA).2 (scan_of_parse hB).2]
  simp

theorem means_junction (op : Junction) :
    Means ("(" ++ A ++ ") " ++ (BinaryOp.junction op).spelling ++ " " ++ B)
      fun facts => both op.apply (evaluate A facts) (evaluate B facts) := by
  refine .of_spell (.junction op (scan_of_parse hA).1.comparison_group (scan_of_parse hB).1)
    (scan_binary hA hB (.junction op)) fun facts => ?_
  rw [evaluate_of_parse hA, evaluate_of_parse hB, ← both_mapError, Expr.verdict_junction]
  rfl

theorem means_filtered :
    Means ("(" ++ A ++ ") " ++ BinaryOp.filter.spelling ++ " " ++ B)
      fun facts => ((Expr.filtered (.group a) b).verdict facts).mapError .eval :=
  .of_spell (.filtered (scan_of_parse hA).1.comparison_group (scan_of_parse hB).1)
    (scan_binary hA hB .filter) fun _ => rfl

/-- On a single record, a filter asks for the text behind it, then for the text before it. -/
theorem filtered_verdict_single (record : Fact) :
    ((Expr.filtered (.group a) b).verdict (.single record)).mapError .eval =
      match evaluate B (.single record) with
      | .ok true => evaluate A (.single record)
      | v => v := by
  rw [evaluate_of_parse hA, evaluate_of_parse hB, Expr.verdict_filtered_single]
  rcases b.verdict (.single record) with e | (_ | _) <;> rfl

end

/-- **Texts put together** have the verdicts of their parts put together, unless they are too deep.
-/
theorem evaluate_composed {A B : String} {a b : Expr} (hA : parse A = .ok a)
    (hB : parse B = .ok b) :
    Means ("(" ++ A ++ ")") (evaluate A) ∧
    Means ("(" ++ A ++ ") && " ++ B)
      (fun facts => both (· && ·) (evaluate A facts) (evaluate B facts)) ∧
    Means ("(" ++ A ++ ") || " ++ B)
      (fun facts => both (· || ·) (evaluate A facts) (evaluate B facts)) ∧
    Means ("(" ++ A ++ ") where " ++ B) fun
      | .single record => match evaluate B (.single record) with
        | .ok true => evaluate A (.single record)
        | v => v
      | .many records => decision (records.map fun record =>
        evaluate ("(" ++ A ++ ") where " ++ B) (.single record)) := by
  have htext (op : BinaryOp) (text : String) (h : ") " ++ op.spelling ++ " " = text) :
      "(" ++ A ++ ") " ++ op.spelling ++ " " ++ B = "(" ++ A ++ text ++ B := by
    rw [← h]
    simp only [String.append_assoc]
  have hand := means_junction hA hB .and
  have hor := means_junction hA hB .or
  have hfilter := means_filtered hA hB
  rw [htext _ ") && " rfl] at hand
  rw [htext _ ") || " rfl] at hor
  rw [htext _ ") where " rfl] at hfilter
  refine ⟨means_group hA, hand, hor, fun hdepth => ?_⟩
  -- The text is read once, and decided record by record.
  obtain ⟨hparse, hverdict⟩ := hfilter hdepth
  refine ⟨hparse, fun facts => ?_⟩
  cases facts with
  | single record => exact (hverdict _).trans (filtered_verdict_single hA hB record)
  | many records =>
    simp only [hverdict]
    rw [Expr.verdict_filtered_many, decision_mapError, List.map_map]
    rfl

/-- The text behind `&&` is its whole right operand, filter included. -/
theorem evaluate_composed_conjunction :
    (∃ a, parse "a == 1 || b == 2" = .ok a) ∧ (∃ b, parse "c == 3 where d == 4" = .ok b) ∧
    parse ("(" ++ "a == 1 || b == 2" ++ ") && " ++ "c == 3 where d == 4") ≠
      .error (.parse .tooDeep) ∧
    ∀ facts, evaluate ("(" ++ "a == 1 || b == 2" ++ ") && " ++ "c == 3 where d == 4") facts =
      both (· && ·) (evaluate "a == 1 || b == 2" facts)
        (evaluate "c == 3 where d == 4" facts) := by
  have hcondition (field : String) (n : Int64) : Expr.Canonical .comparison
      (.comparison .equal (.literal (.word field)) (.literal (.integer n))) :=
    .comparison .equal (.ofOperand (.literal (.word field))) (.integer n)
  have ha := Expr.Canonical.junction .or (hcondition "a" 1) (.ofComparison (hcondition "b" 2))
  have hb := Expr.Canonical.filtered (hcondition "c" 3) (.ofComparison (hcondition "d" 4))
  have hab := Expr.Canonical.junction .and ha.comparison_group hb
  have hA : parse "a == 1 || b == 2" = .ok _ :=
    parse_of_scan_spell ha (by decide) (by decide +kernel)
  have hB : parse "c == 3 where d == 4" = .ok _ :=
    parse_of_scan_spell hb (by decide) (by decide +kernel)
  have hAB : parse ("(" ++ "a == 1 || b == 2" ++ ") && " ++ "c == 3 where d == 4") = .ok _ :=
    parse_of_scan_spell hab (by decide) (by decide +kernel)
  have hdepth : parse ("(" ++ "a == 1 || b == 2" ++ ") && " ++ "c == 3 where d == 4") ≠
      .error (.parse .tooDeep) := by
    rw [hAB]
    nofun
  obtain ⟨-, hand, -⟩ := evaluate_composed hA hB
  exact ⟨⟨_, hA⟩, ⟨_, hB⟩, hdepth, (hand hdepth).2⟩

end FactQuery
