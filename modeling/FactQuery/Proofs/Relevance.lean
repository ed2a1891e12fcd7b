import Mathlib
import FactQuery.Log

/-!
# The fields that matter

An expression looks up the fields that it mentions (`Expr.fields`), and no others. Facts that agree
on these are the same to it, whatever else their records hold.

**Two runs in lockstep.** The facts have the same shape, so a filter binds as many records in one
run as in the other, and the records at one index agree. By induction on the tree each of them gets
the same verdict in both runs. So the first decisive record stands at the same index, and neither
the errors nor the findings of a filter tell the facts apart.

**Theorem (`verdict_eq_of_agree`).** Facts that agree on the fields of an expression have the same
verdict, errors included, and the same log.
-/

namespace FactQuery

namespace Expr

def word? : Expr → Option String
  | .literal (.word w) => some w
  | _ => none

/-- The words on the left of the comparisons and membership tests in a tree. -/
def fields : Expr → List String
  | .literal _ => []
  | .list _ => []
  | .group inner => inner.fields
  | .junction _ left right => left.fields ++ right.fields
  | .comparison _ left right => left.word?.toList ++ (left.fields ++ right.fields)
  | .membership left right => left.word?.toList ++ (left.fields ++ right.fields)
  | .filtered subject condition => subject.fields ++ condition.fields

end Expr

/-! ## Agreement -/

/-- Of each of the fields, two records hold the same value, or neither holds one. -/
def Fact.Agree (fields : List String) (r r' : Fact) : Prop :=
  ∀ field ∈ fields, r.get? field = r'.get? field

/-- Facts of one shape, the records of which agree one by one. -/
inductive Facts.Agree (fields : List String) : Facts → Facts → Prop
  | single {r r' : Fact} (h : r.Agree fields r') : Agree fields (.single r) (.single r')
  | many {rs rs' : List Fact} (h : List.Forall₂ (Fact.Agree fields) rs rs') :
      Agree fields (.many rs) (.many rs')

/-- Scopes that give the same answers, now and behind a filter. -/
structure Scope.Agree (fields : List String) (s s' : Scope) : Prop where
  isSome : s.record.isSome = s'.record.isSome
  get? : ∀ field ∈ fields, s.get? field = s'.get? field
  candidates : List.Forall₂ (Fact.Agree fields) s.candidates s'.candidates

theorem Fact.Agree.mono {fields others : List String} {r r' : Fact} (h : r.Agree fields r')
    (hsub : others ⊆ fields) : r.Agree others r' :=
  fun field hfield => h field (hsub hfield)

theorem Facts.Agree.length_eq {fields : List String} {facts facts' : Facts}
    (h : facts.Agree fields facts') : facts.length = facts'.length := by
  cases h with
  | single h => rfl
  | many h => exact h.length_eq

namespace Scope.Agree

variable {fields : List String} {s s' : Scope}

theorem ofFacts {facts facts' : Facts} (h : facts.Agree fields facts') :
    (Scope.ofFacts facts).Agree fields (Scope.ofFacts facts') := by
  cases h with
  | single h => exact ⟨rfl, h, .nil⟩
  | many h => exact ⟨rfl, fun _ _ => rfl, h⟩

/-- Behind a filter, records that agree are in scope, and there is none left to bind. -/
theorem bind {r r' : Fact} (h : r.Agree fields r') (s s' : Scope) :
    (s.bind r).Agree fields (s'.bind r') :=
  ⟨rfl, h, .nil⟩

theorem mono (h : s.Agree fields s') {others : List String} (hsub : others ⊆ fields) :
    s.Agree others s' :=
  ⟨h.isSome, fun field hfield => h.get? field (hsub hfield),
    h.candidates.imp fun _ _ hr => hr.mono hsub⟩

theorem left {others : List String} (h : s.Agree (fields ++ others) s') : s.Agree fields s' :=
  h.mono (List.subset_append_left fields others)

theorem right {others : List String} (h : s.Agree (fields ++ others) s') : s.Agree others s' :=
  h.mono (List.subset_append_right fields others)

end Scope.Agree

/-! ## The records that a filter binds -/

section
variable {R : Fact → Fact → Prop} {verdict verdict' : Fact → Verdict} {records records' : List Fact}
  (h : List.Forall₂ R records records') (hverdict : ∀ r r', R r r' → verdict r = verdict' r')
include h hverdict

/-- The first decisive verdicts are the same, for they are those of records at the same index. -/
theorem firstDecisive_congr : firstDecisive verdict records = firstDecisive verdict' records' := by
  induction h with
  | nil => rfl
  | cons hr _ ih => rw [firstDecisive, firstDecisive, hverdict _ _ hr, ih]

theorem firstHolding?_congr : firstHolding? verdict records = firstHolding? verdict' records' := by
  induction h with
  | nil => rfl
  | cons hr _ ih => rw [firstHolding?, firstHolding?, hverdict _ _ hr, ih]

end

/-! ## Verdicts and logs -/

namespace Expr

theorem evalComparison_congr {op : Comparator} {left right : Expr} {s s' : Scope}
    (h : ∀ field ∈ left.word?, s.get? field = s'.get? field) :
    evalComparison op left right s = evalComparison op left right s' := by
  cases left with
  | literal l =>
    cases l with
    | word w => simp only [evalComparison, field?, h w rfl]
    | _ => rfl
  | _ => rfl

theorem evalMembership_congr {left right : Expr} {s s' : Scope}
    (h : ∀ field ∈ left.word?, s.get? field = s'.get? field) :
    evalMembership left right s = evalMembership left right s' := by
  cases left with
  | literal l =>
    cases l with
    | word w => simp only [evalMembership, h w rfl]
    | _ => rfl
  | _ => rfl

/-- On a record that it binds, a filter looks up what its operands do. -/
theorem andThen_congr {subject condition : Expr} (s s' : Scope) {r r' : Fact}
    (hsubject : ∀ {s s'}, Scope.Agree subject.fields s s' → subject.eval s = subject.eval s')
    (hcondition : ∀ {s s'}, Scope.Agree condition.fields s s' →
      condition.eval s = condition.eval s')
    (h : r.Agree (subject.fields ++ condition.fields) r') :
    (condition.eval (s.bind r)).andThen (subject.eval (s.bind r)) =
      (condition.eval (s'.bind r')).andThen (subject.eval (s'.bind r')) := by
  have hagree := Scope.Agree.bind h s s'
  rw [hcondition hagree.right, hsubject hagree.left]

/-- **Scopes that agree on its fields** give an expression the same verdict. -/
theorem eval_eq_of_agree {e : Expr} {s s' : Scope} (h : s.Agree e.fields s') :
    e.eval s = e.eval s' := by
  induction e generalizing s s' with
  | literal l => rfl
  | list items => rfl
  | group inner ih => exact ih h
  | junction op left right ihl ihr => simp only [eval, ihl h.left, ihr h.right]
  | comparison op left right =>
    exact evalComparison_congr fun field hfield => h.left.get? field (Option.mem_toList.2 hfield)
  | membership left right =>
    exact evalMembership_congr fun field hfield => h.left.get? field (Option.mem_toList.2 hfield)
  | filtered subject condition ihs ihc =>
    have hdecisive := firstDecisive_congr h.candidates fun _ _ hr =>
      andThen_congr s s' ihs ihc hr
    simp only [eval, h.isSome, ihc h.right, ihs h.left, hdecisive]

theorem findings_eq_of_agree {e : Expr} {s s' : Scope} (h : s.Agree e.fields s') :
    e.findings s = e.findings s' := by
  induction e generalizing s s' with
  | literal l => rfl
  | list items => rfl
  | group inner ih => exact ih h
  | junction op left right ihl ihr =>
    simp only [findings, ihl h.left, ihr h.right, eval_eq_of_agree h.left]
  | comparison op left right => rfl
  | membership left right => rfl
  | filtered subject condition =>
    have hholding := firstHolding?_congr h.candidates fun _ _ hr =>
      andThen_congr s s' eval_eq_of_agree eval_eq_of_agree hr
    simp only [findings, hholding]

end Expr

/-- **Only the fields of an expression matter.** On facts of the same shape that agree on these
fields, record by record, it has the same verdict, errors included, and leaves the same log. -/
theorem verdict_eq_of_agree {e : Expr} {facts facts' : Facts} (h : facts.Agree e.fields facts') :
    e.verdict facts = e.verdict facts' ∧ evaluationLog e facts = evaluationLog e facts' := by
  have hagree := Scope.Agree.ofFacts h
  have hverdict : e.verdict facts = e.verdict facts' := Expr.eval_eq_of_agree hagree
  refine ⟨hverdict, ?_⟩
  simp only [evaluationLog, Expr.findings_eq_of_agree hagree, hverdict, h.length_eq]

/-- The filter finds the record at the same index, whatever is said of other fields in it and before
it. -/
theorem verdict_eq_of_agree_hidden :
    let e : Expr := .filtered
      (.comparison .equal (.literal (.word "a")) (.literal (.integer 1)))
      (.membership (.literal (.word "b")) (.list ⟨.integer 2, []⟩))
    let facts : Facts := .many [⟨[("secret", .integer 1), ("a", .integer 1)]⟩,
      ⟨[("a", .integer 1), ("b", .integer 2)]⟩]
    let facts' : Facts := .many [⟨[("a", .integer 1)]⟩,
      ⟨[("b", .integer 2), ("secret", .null), ("a", .integer 1)]⟩]
    facts.Agree e.fields facts' ∧ e.verdict facts = .ok true ∧ e.verdict facts' = .ok true ∧
      evaluationLog e facts = evaluationLog e facts' := by
  intro e facts facts'
  have hfields : e.fields = ["a", "b"] := rfl
  have hagree : facts.Agree e.fields facts' := by
    rw [hfields]
    refine .many (.cons ?_ (.cons ?_ .nil))
    · simp [Fact.Agree, Fact.get?, List.lookup]
    · simp [Fact.Agree, Fact.get?, List.lookup]
  obtain ⟨hverdict, hlog⟩ := verdict_eq_of_agree hagree
  have hfound : e.verdict facts = .ok true := by cbv
  exact ⟨hagree, hfound, hverdict ▸ hfound, hlog⟩

end FactQuery
