import FactQuery.Proofs.Lookahead
import FactQuery.Proofs.RoundTrip

/-!
# Fewer and more levels

The limit shows in one way only. A rule that may open fewer levels reads the same, with the same
steps and the same stop, or it fails with `tooDeep` (`Rule.Within`). Every rule of the grammar
passes this relation on from the rule for the next level.

So a canonical tree is read from its spelling whatever its depth, or its depth is refused.
-/

namespace FactQuery

namespace Rule

variable {α β : Type}

/-- The first rule is the second one, except that it may find some inputs too deep. -/
def Within (r r' : Rule α) : Prop := ∀ i, (r i).result = .error .tooDeep ∨ r i = r' i

theorem Within.refl (r : Rule α) : r.Within r := fun _ => .inr rfl

theorem Within.bind {first first' : Rule α} {next next' : α → Rule β} (h : first.Within first')
    (hnext : ∀ a, (next a).Within (next' a)) : (first >>= next).Within (first' >>= next') := by
  intro i
  rcases h i with hi | hi
  · left
    rw [bind_of_error hi]
  · cases hr : (first' i).result with
    | error e =>
      right
      rw [bind_of_error (hi ▸ hr), bind_of_error hr, hi]
    | ok a =>
      rw [bind_of_ok (hi ▸ hr), bind_of_ok hr, hi]
      rcases hnext a (first' i).stop with hj | hj
      · exact .inl hj
      · right
        rw [hj]

theorem congruence_within : Congruence fun _ r r' => r.Within r' where
  pure _ := .refl _
  bind := Within.bind
  look := .refl _
  skip := .refl _
  note _ _ := .refl _
  literal _ := .refl _
  keyword _ := .refl _
  literals := .refl _

/-- **Fewer levels refuse or agree.** -/
theorem within_expression {levels levels' : Nat} (h : levels ≤ levels') :
    (expression levels).Within (expression levels') := by
  induction levels generalizing levels' with
  | zero =>
    intro i
    left
    rfl
  | succ levels ih =>
    cases levels' with
    | zero => omega
    | succ levels' =>
      have hnext : (expression levels).Within (expression levels') := ih (by omega)
      exact (Within.refl _).bind fun _ => congruence_within.clause hnext

theorem within_complete {levels levels' : Nat} (h : levels ≤ levels') :
    (complete levels).Within (complete levels') :=
  (within_expression h).bind fun _ => .refl _

end Rule

namespace Expr

theorem Canonical.ofTokens_spell {e : Expr} (h : Canonical .expression e) :
    ofTokens e.spell = .ok e ∨ ofTokens e.spell = .error .tooDeep := by
  have hread : (Rule.complete (max maxNesting (e.opens + 1)) ⟨0, e.spell⟩).result = .ok e :=
    Rule.complete_eq_ok_iff.2 ⟨h, rfl, by omega⟩
  rcases Rule.within_complete (Nat.le_max_left maxNesting (e.opens + 1)) ⟨0, e.spell⟩ with
    hdeep | heq
  · exact .inr hdeep
  · left
    rw [← hread, ← heq]
    rfl

theorem canonical_of_ofTokens {tokens : List Token} {e : Expr} (h : ofTokens tokens = .ok e) :
    Canonical .expression e ∧ e.spell = tokens := by
  obtain ⟨hc, hs, -⟩ := Rule.complete_eq_ok_iff.1 h
  exact ⟨hc, hs⟩

end Expr

end FactQuery
