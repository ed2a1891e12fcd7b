import FactQuery.Proofs.RoundTrip
import FactQuery.Proofs.Scoping

/-!
# Filters as conjunctions

On a single record `a where b` asks for what `a && b` asks for. The two are read by different rules
and decided by different code, so this relates two token sequences and two trees: the `conjoined`
ones have `&&` in every place of `where`.

**Reading.** A canonical tree and the conjoined one have the same shape and the same levels, and
their spellings differ in the keyword alone. Conversely, a canonical tree that spells conjoined
tokens comes from one that spells the tokens (`Expr.Canonical.exists_of_spell_eq_map`). So either
both sequences are read or neither is.

**Deciding.** A conjunction decides both sides, a filter its subject only where its condition holds.
So every verdict on the conjoined tree is the verdict on the tree
(`Expr.verdict_of_conjoined`), but not the other way round (`Expr.verdict_conjoined_error`).
-/

namespace FactQuery

/-- The conjunction's keyword in place of the filter's. -/
def Token.conjoined : Token → Token
  | .keyword .filter => .keyword .conjunction
  | t => t

/-- A conjunction in place of every filter. -/
def Expr.conjoined : Expr → Expr
  | .literal l => .literal l
  | .list items => .list items
  | .group inner => .group inner.conjoined
  | .junction op left right => .junction op left.conjoined right.conjoined
  | .comparison op left right => .comparison op left.conjoined right.conjoined
  | .membership left right => .membership left.conjoined right.conjoined
  | .filtered subject condition => .junction .and subject.conjoined condition.conjoined

/-! ## Conjoined tokens -/

namespace Token

theorem eq_or_eq_filter_of_conjoined {t u : Token} (h : t.conjoined = u) :
    t = u ∨ t = .keyword .filter ∧ u = .keyword .conjunction := by
  subst h
  unfold conjoined
  split
  · exact .inr ⟨rfl, rfl⟩
  · exact .inl rfl

theorem conjoined_ne_filter (t : Token) : t.conjoined ≠ .keyword .filter := by
  unfold conjoined
  split
  · decide
  · assumption

theorem eq_of_conjoined {t u : Token} (h : t.conjoined = u) (hu : u ≠ .keyword .conjunction) :
    t = u :=
  (eq_or_eq_filter_of_conjoined h).resolve_right fun ht => hu ht.2

theorem map_conjoined_literals (ls : List Literal) :
    (ls.map literal).map conjoined = ls.map literal := by
  rw [List.map_map]
  rfl

theorem eq_of_map_conjoined_literals (ls : List Literal) {ts : List Token}
    (h : ts.map conjoined = ls.map literal) : ts = ls.map literal := by
  induction ls generalizing ts with
  | nil => exact List.map_eq_nil_iff.1 h
  | cons l ls ih =>
    obtain ⟨t, us, rfl, ht, hus⟩ := List.map_eq_cons_iff.1 h
    rw [eq_of_conjoined ht nofun, ih hus, List.map_cons]

theorem exists_of_map_conjoined_eq {ts us vs : List Token} {u : Token}
    (h : us ++ u :: vs = ts.map conjoined) :
    ∃ us' t vs', ts = us' ++ t :: vs' ∧ us = us'.map conjoined ∧ t.conjoined = u ∧
      vs = vs'.map conjoined := by
  obtain ⟨us', rest, rfl, rfl, hrest⟩ := List.map_eq_append_iff.1 h.symm
  obtain ⟨t, vs', rfl, ht, rfl⟩ := List.map_eq_cons_iff.1 hrest
  exact ⟨us', t, vs', rfl, rfl, ht, rfl⟩

theorem exists_of_map_conjoined_eq_enclosed {ts us : List Token} {u v : Token}
    (h : u :: (us ++ [v]) = ts.map conjoined) (hu : u ≠ .keyword .conjunction)
    (hv : v ≠ .keyword .conjunction) :
    ∃ us', ts = u :: (us' ++ [v]) ∧ us = us'.map conjoined := by
  obtain ⟨t, rest, rfl, ht, hrest⟩ := List.map_eq_cons_iff.1 h.symm
  obtain ⟨us', t', vs, rfl, hus, ht', hvs⟩ := exists_of_map_conjoined_eq hrest.symm
  obtain rfl := List.map_eq_nil_iff.1 hvs.symm
  rw [eq_of_conjoined ht hu, eq_of_conjoined ht' hv]
  exact ⟨us', rfl, hus⟩

end Token

namespace Expr

/-! ## Reading -/

theorem map_conjoined_joined {op op' : BinaryOp}
    (h : (Token.keyword op.keyword).conjoined = .keyword op'.keyword) (left right : List Token) :
    (spell.joined op left right).map Token.conjoined =
      spell.joined op' (left.map Token.conjoined) (right.map Token.conjoined) := by
  rw [spell.joined, List.map_append, List.map_cons, h, spell.joined]

theorem spell_conjoined (e : Expr) : e.conjoined.spell = e.spell.map Token.conjoined := by
  induction e with
  | literal l => rfl
  | list items =>
    rw [conjoined, spell, Items.spell, List.map_cons, List.map_append,
      Token.map_conjoined_literals]
    rfl
  | group inner ih =>
    rw [conjoined, spell, spell, ih, List.map_cons, List.map_append]
    rfl
  | junction op left right ihl ihr =>
    rw [conjoined, spell, spell, ihl, ihr, map_conjoined_joined (by cases op <;> rfl)]
  | comparison op left right ihl ihr =>
    rw [conjoined, spell, spell, ihl, ihr, map_conjoined_joined (by cases op <;> rfl)]
  | membership left right ihl ihr =>
    rw [conjoined, spell, spell, ihl, ihr, map_conjoined_joined rfl]
  | filtered subject condition ihs ihc =>
    have hop : (Token.keyword BinaryOp.filter.keyword).conjoined =
        .keyword (BinaryOp.junction .and).keyword := rfl
    rw [conjoined, spell, spell, ihs, ihc, map_conjoined_joined hop]

theorem opens_conjoined (e : Expr) : e.conjoined.opens = e.opens := by
  induction e with
  | literal l => rfl
  | list items => rfl
  | group inner ih => rw [conjoined, opens, opens, ih]
  | junction op left right ihl ihr => rw [conjoined, opens, opens, ihl, ihr]
  | comparison op left right ihl ihr => rw [conjoined, opens, opens, ihl, ihr]
  | membership left right ihl ihr => rw [conjoined, opens, opens, ihl, ihr]
  | filtered subject condition ihs ihc => rw [conjoined, opens, opens, ihs, ihc]

namespace Canonical

theorem conjoined {p : Phrase} {e : Expr} (h : Canonical p e) : Canonical p e.conjoined := by
  induction h with
  | literal l => exact .literal l
  | list items => exact .list items
  | group _ ih => exact .group ih
  | ofOperand _ ih => exact .ofOperand ih
  | membership _ _ ihl ihr => exact .membership ihl ihr
  | ofMembership _ ih => exact .ofMembership ih
  | comparison op _ l ih => exact .comparison op ih l
  | ofComparison _ ih => exact .ofComparison ih
  | junction op _ _ ihl ihr => exact .junction op ihl ihr
  | filtered _ _ ihs ihc => exact .junction .and ihs ihc

/-- **Conjoined tokens** spell only conjoined trees. Where the tree has a conjunction, the tokens
tell whether it comes from a filter. -/
theorem exists_of_spell_eq_map {p : Phrase} {m : Expr} (h : Canonical p m) {ts : List Token}
    (hs : m.spell = ts.map Token.conjoined) :
    ∃ e, Canonical p e ∧ e.conjoined = m ∧ e.spell = ts := by
  induction h generalizing ts with
  | literal l =>
    have hts : ts = [.literal l] := Token.eq_of_map_conjoined_literals [l] hs.symm
    exact ⟨.literal l, .literal l, rfl, hts.symm⟩
  | list items =>
    obtain ⟨us, rfl, hus⟩ := Token.exists_of_map_conjoined_eq_enclosed hs nofun nofun
    obtain rfl := Token.eq_of_map_conjoined_literals items.toList hus.symm
    exact ⟨.list items, .list items, rfl, rfl⟩
  | group _ ih =>
    obtain ⟨us, rfl, hus⟩ := Token.exists_of_map_conjoined_eq_enclosed hs nofun nofun
    obtain ⟨inner, hinner, rfl, rfl⟩ := ih hus
    exact ⟨.group inner, .group hinner, rfl, rfl⟩
  | ofOperand _ ih =>
    obtain ⟨e, he, hm, hts⟩ := ih hs
    exact ⟨e, .ofOperand he, hm, hts⟩
  | membership _ _ ihl ihr =>
    obtain ⟨us, t, vs, rfl, hus, ht, hvs⟩ := Token.exists_of_map_conjoined_eq hs
    obtain ⟨left, hl, rfl, rfl⟩ := ihl hus
    obtain ⟨right, hr, rfl, rfl⟩ := ihr hvs
    obtain rfl := Token.eq_of_conjoined ht (by decide)
    exact ⟨.membership left right, .membership hl hr, rfl, rfl⟩
  | ofMembership _ ih =>
    obtain ⟨e, he, hm, hts⟩ := ih hs
    exact ⟨e, .ofMembership he, hm, hts⟩
  | comparison op _ l ih =>
    obtain ⟨us, t, vs, rfl, hus, ht, hvs⟩ := Token.exists_of_map_conjoined_eq hs
    obtain ⟨left, hl, rfl, rfl⟩ := ih hus
    obtain rfl := Token.eq_of_map_conjoined_literals [l] hvs.symm
    obtain rfl := Token.eq_of_conjoined ht (by cases op <;> decide)
    exact ⟨.comparison op left (.literal l), .comparison op hl l, rfl, rfl⟩
  | ofComparison _ ih =>
    obtain ⟨e, he, hm, hts⟩ := ih hs
    exact ⟨e, .ofComparison he, hm, hts⟩
  | junction op _ _ ihl ihr =>
    obtain ⟨us, t, vs, rfl, hus, ht, hvs⟩ := Token.exists_of_map_conjoined_eq hs
    obtain ⟨left, hl, rfl, rfl⟩ := ihl hus
    obtain ⟨right, hr, rfl, rfl⟩ := ihr hvs
    -- Here the tokens tell what the conjunction comes from.
    obtain rfl | ⟨rfl, hop⟩ := Token.eq_or_eq_filter_of_conjoined ht
    · exact ⟨.junction op left right, .junction op hl hr, rfl, rfl⟩
    · cases op with
      | and => exact ⟨.filtered left right, .filtered hl hr, rfl, rfl⟩
      | or => cases hop
  | filtered _ _ _ _ =>
    obtain ⟨_, t, _, -, -, ht, -⟩ := Token.exists_of_map_conjoined_eq hs
    exact absurd ht t.conjoined_ne_filter

end Canonical

/-- **The conjoined tokens are read** just as the conjoined trees of what the tokens are read as. -/
theorem complete_conjoined_eq_ok_iff {levels : Nat} {tokens : List Token} {m : Expr} :
    (Rule.complete levels ⟨0, tokens.map Token.conjoined⟩).result = .ok m ↔
      ∃ e, (Rule.complete levels ⟨0, tokens⟩).result = .ok e ∧ e.conjoined = m := by
  simp only [Rule.complete_eq_ok_iff]
  refine ⟨?_, ?_⟩
  · intro h
    obtain ⟨hc, hs, ho⟩ := h
    obtain ⟨e, he, rfl, rfl⟩ := hc.exists_of_spell_eq_map hs
    rw [opens_conjoined] at ho
    exact ⟨e, ⟨he, rfl, ho⟩, rfl⟩
  · intro h
    obtain ⟨e, ⟨he, rfl, ho⟩, rfl⟩ := h
    rw [← opens_conjoined] at ho
    exact ⟨he.conjoined, e.spell_conjoined, ho⟩

/-! ## Deciding -/

theorem evalComparison_of_conjoined {op : Comparator} {left right : Expr} {s : Scope} {b : Bool}
    (h : evalComparison op left.conjoined right.conjoined s = .ok b) :
    evalComparison op left right s = .ok b := by
  cases left with
  | literal l =>
    cases right with
    | literal r => exact h
    | _ => cases l <;> cases h
  | _ => cases h

theorem evalMembership_of_conjoined {left right : Expr} {s : Scope} {b : Bool}
    (h : evalMembership left.conjoined right.conjoined s = .ok b) :
    evalMembership left right s = .ok b := by
  cases right with
  | list items =>
    cases left with
    | literal l => exact h
    | _ => cases h
  | _ => cases h

/-- **A verdict on the conjoined tree** is the verdict on the tree, whatever the tree. -/
theorem verdict_of_conjoined {e : Expr} {record : Fact} {b : Bool}
    (h : e.conjoined.verdict (.single record) = .ok b) : e.verdict (.single record) = .ok b := by
  induction e generalizing b with
  | literal l => exact h
  | list items => exact h
  | group inner ih => exact ih h
  | junction op left right ihl ihr =>
    rw [conjoined, verdict_junction, both_eq_ok_iff] at h
    obtain ⟨x, y, hl, hr, hb⟩ := h
    rw [verdict_junction, both_eq_ok_iff]
    exact ⟨x, y, ihl hl, ihr hr, hb⟩
  | comparison op left right => exact evalComparison_of_conjoined h
  | membership left right => exact evalMembership_of_conjoined h
  | filtered subject condition ihs ihc =>
    rw [conjoined, verdict_junction, both_eq_ok_iff] at h
    obtain ⟨x, y, hs, hc, rfl⟩ := h
    rw [verdict_filtered_single, ihc hc, ihs hs]
    cases x <;> cases y <;> rfl

/-- A filter is silent about its subject where its condition fails; the conjunction is not. -/
theorem verdict_conjoined_error (l : Literal) {condition : Expr} {record : Fact}
    (h : condition.conjoined.verdict (.single record) = .ok false) :
    (filtered (literal l) condition).verdict (.single record) = .ok false ∧
      (filtered (literal l) condition).conjoined.verdict (.single record) =
        .error (.notACondition (literal l)) := by
  refine ⟨?_, ?_⟩
  · rw [verdict_filtered_single, verdict_of_conjoined h]
    rfl
  · rw [conjoined, verdict_junction]
    rfl

end Expr

/-- **Filters are conjunctions on a single record.** With `&&` in place of every `where`, a token
sequence is read if and only if it was, and as the conjoined tree. And whatever the tree, every
verdict on the conjoined one is the verdict on the tree. -/
theorem filter_as_conjunction :
    (∀ tokens : List Token,
      ((∃ e, Expr.ofTokens tokens = .ok e) ↔
        ∃ e', Expr.ofTokens (tokens.map Token.conjoined) = .ok e') ∧
      ∀ e, Expr.ofTokens tokens = .ok e →
        Expr.ofTokens (tokens.map Token.conjoined) = .ok e.conjoined) ∧
    ∀ (e : Expr) (record : Fact) (b : Bool),
      e.conjoined.verdict (.single record) = .ok b → e.verdict (.single record) = .ok b := by
  have hread {tokens : List Token} {m : Expr} :
      Expr.ofTokens (tokens.map Token.conjoined) = .ok m ↔
        ∃ e, Expr.ofTokens tokens = .ok e ∧ e.conjoined = m :=
    Expr.complete_conjoined_eq_ok_iff
  refine ⟨?_, fun _ _ _ h => Expr.verdict_of_conjoined h⟩
  intro tokens
  have hconjoined (e : Expr) (h : Expr.ofTokens tokens = .ok e) :
      Expr.ofTokens (tokens.map Token.conjoined) = .ok e.conjoined := hread.2 ⟨e, h, rfl⟩
  refine ⟨⟨?_, ?_⟩, hconjoined⟩
  · intro h
    obtain ⟨e, he⟩ := h
    exact ⟨e.conjoined, hconjoined e he⟩
  · intro h
    obtain ⟨m, hm⟩ := h
    obtain ⟨e, he, -⟩ := hread.1 hm
    exact ⟨e, he⟩

/-- A filter within a group within a filter. The record has the field `a`, not the field `b`. -/
theorem filter_as_conjunction_nested :
    let a : List Token := [.literal (.word "a"), .keyword .equal, .literal (.integer 1)]
    let b : List Token := [.literal (.word "b"), .keyword .equal, .literal (.integer 1)]
    let tokens : List Token :=
      .keyword .openGroup :: (a ++ .keyword .filter :: b) ++
        .keyword .closeGroup :: .keyword .filter :: a
    let isOne (field : String) : Expr :=
      .comparison .equal (.literal (.word field)) (.literal (.integer 1))
    let e : Expr := .filtered (.group (.filtered (isOne "a") (isOne "b"))) (isOne "a")
    let record : Fact := ⟨[("a", .integer 1)]⟩
    Expr.ofTokens tokens = .ok e ∧
      Expr.ofTokens (tokens.map Token.conjoined) = .ok e.conjoined ∧
      e.conjoined.verdict (.single record) = .ok false ∧
      e.verdict (.single record) = .ok false := by
  intro a b tokens isOne e record
  obtain ⟨hread, hdecide⟩ := filter_as_conjunction
  have he : Expr.ofTokens tokens = .ok e := by cbv
  have hverdict : e.conjoined.verdict (.single record) = .ok false := by cbv
  exact ⟨he, (hread tokens).2 e he, hverdict, hdecide e record false hverdict⟩

end FactQuery
