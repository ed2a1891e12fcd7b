import FactQuery.Proofs.Nesting

/-!
# The grammar and its derivations

`Derives` is the grammar as it is written down, production by production. It is ambiguous: in
`a && b where c` the junction may take the filter into its right operand, or it may be the subject
of the filter (`derives_twice`).

**Deciding the ambiguity** (`Expr.Greedy`). Of the trees of a sentence, one has right operands that
extend as far as possible: the right operand of every junction and filter is the longest expression
that stands after the operator. It is the canonical tree of the sentence.

**Theorem (`ofTokens_grammar`).** What is read is derivable, and read as its greedy tree. What is
derivable is read, or too deep.

**Why one token of lookahead suffices.** Any derivation can be turned into a canonical tree of the
same sentence: a filter behind a junction moves into the last operand of the junction
(`Expr.Canonical.exists_filtered`). And no expression runs past a closing token, because the rule
that reads it stops there (`Expr.Canonical.eq_of_append_eq`).
-/

namespace FactQuery

/-! ## Derivations -/

/-- `items := literal items?` -/
inductive DerivesItems : List Token → Items → Prop
  | last (l : Literal) : DerivesItems [.literal l] ⟨l, []⟩
  | cons (l : Literal) {ts : List Token} {items : Items} (h : DerivesItems ts items) :
      DerivesItems (.literal l :: ts) ⟨l, items.toList⟩

/-- The productions of the grammar, each with the tree of the sentence.

```text
expression  := clause
clause      := junction (where expression)?
junction    := comparison ((&& | ||) expression)?
comparison  := membership ((== | != | >= | <= | > | <) literal)?
membership  := operand (in operand)?
operand     := literal | [ items ] | ( expression )
```
-/
inductive Derives : Phrase → List Token → Expr → Prop
  | literal (l : Literal) : Derives .literal [.literal l] (.literal l)
  | ofLiteral {ts : List Token} {e : Expr} (h : Derives .literal ts e) : Derives .operand ts e
  | list {ts : List Token} {items : Items} (h : DerivesItems ts items) :
      Derives .operand (.keyword .openList :: (ts ++ [.keyword .closeList])) (.list items)
  | group {ts : List Token} {inner : Expr} (h : Derives .expression ts inner) :
      Derives .operand (.keyword .openGroup :: (ts ++ [.keyword .closeGroup])) (.group inner)
  | ofOperand {ts : List Token} {e : Expr} (h : Derives .operand ts e) : Derives .membership ts e
  | membership {ts us : List Token} {left right : Expr} (hl : Derives .operand ts left)
      (hr : Derives .operand us right) :
      Derives .membership (ts ++ .keyword .membership :: us) (.membership left right)
  | ofMembership {ts : List Token} {e : Expr} (h : Derives .membership ts e) :
      Derives .comparison ts e
  | comparison (op : Comparator) {ts us : List Token} {left right : Expr}
      (hl : Derives .membership ts left) (hr : Derives .literal us right) :
      Derives .comparison (ts ++ .keyword (BinaryOp.comparison op).keyword :: us)
        (.comparison op left right)
  | ofComparison {ts : List Token} {e : Expr} (h : Derives .comparison ts e) :
      Derives .junction ts e
  | junction (op : Junction) {ts us : List Token} {left right : Expr}
      (hl : Derives .comparison ts left) (hr : Derives .expression us right) :
      Derives .junction (ts ++ .keyword (BinaryOp.junction op).keyword :: us)
        (.junction op left right)
  | ofJunction {ts : List Token} {e : Expr} (h : Derives .junction ts e) : Derives .clause ts e
  | filtered {ts us : List Token} {subject condition : Expr} (hs : Derives .junction ts subject)
      (hc : Derives .expression us condition) :
      Derives .clause (ts ++ .keyword .filter :: us) (.filtered subject condition)
  | ofClause {ts : List Token} {e : Expr} (h : Derives .clause ts e) : Derives .expression ts e

theorem DerivesItems.spell_eq {ts : List Token} {items : Items} (h : DerivesItems ts items) :
    items.toList.map Token.literal = ts := by
  induction h with
  | last l => rfl
  | cons l _ ih =>
    rw [← ih]
    rfl

theorem derivesItems_map (l : Literal) (ls : List Literal) :
    DerivesItems ((l :: ls).map Token.literal) ⟨l, ls⟩ := by
  induction ls generalizing l with
  | nil => exact .last l
  | cons l' ls ih => exact .cons l (ih l')

theorem Derives.spell_eq {p : Phrase} {ts : List Token} {e : Expr} (h : Derives p ts e) :
    e.spell = ts := by
  induction h with
  | literal => rfl
  | list h =>
    rw [← h.spell_eq]
    rfl
  | group _ ih =>
    rw [← ih]
    rfl
  | membership _ _ ihl ihr =>
    rw [← ihl, ← ihr]
    rfl
  | comparison _ _ _ ihl ihr =>
    rw [← ihl, ← ihr]
    rfl
  | junction _ _ _ ihl ihr =>
    rw [← ihl, ← ihr]
    rfl
  | filtered _ _ ihs ihc =>
    rw [← ihs, ← ihc]
    rfl
  | ofLiteral _ ih | ofOperand _ ih | ofMembership _ ih | ofComparison _ ih | ofJunction _ ih
  | ofClause _ ih => exact ih

/-- **The grammar is ambiguous.** A filter behind a junction has two derivations. -/
theorem derives_twice (op : Junction) {as bs cs : List Token} {a b c : Expr}
    (ha : Derives .comparison as a) (hb : Derives .comparison bs b)
    (hc : Derives .expression cs c) :
    Derives .expression
        (as ++ .keyword (BinaryOp.junction op).keyword :: (bs ++ .keyword .filter :: cs))
        (.junction op a (.filtered b c)) ∧
      Derives .expression
        (as ++ .keyword (BinaryOp.junction op).keyword :: (bs ++ .keyword .filter :: cs))
        (.filtered (.junction op a b) c) := by
  have hright : Derives .expression (bs ++ .keyword .filter :: cs) (.filtered b c) :=
    .ofClause (.filtered (.ofComparison hb) hc)
  have hleft : Derives .junction (as ++ .keyword (BinaryOp.junction op).keyword :: bs)
      (.junction op a b) :=
    .junction op ha (.ofClause (.ofJunction (.ofComparison hb)))
  refine ⟨.ofClause (.ofJunction (.junction op ha hright)), ?_⟩
  have hwhole := Derives.ofClause (.filtered hleft hc)
  rwa [List.append_assoc, List.cons_append] at hwhole

/-! ## Canonical trees and derivations -/

namespace Expr

theorem Canonical.derives {p : Phrase} {e : Expr} (h : Canonical p e) : Derives p e.spell e := by
  induction h with
  | literal l => exact .ofLiteral (.literal l)
  | list items => exact .list (derivesItems_map items.first items.others)
  | group _ ih => exact .group ih
  | ofOperand _ ih => exact .ofOperand ih
  | membership _ _ ihl ihr => exact .membership ihl ihr
  | ofMembership _ ih => exact .ofMembership ih
  | comparison op _ l ih => exact .comparison op ih (.literal l)
  | ofComparison _ ih => exact .ofClause (.ofJunction (.ofComparison ih))
  | junction op _ _ ihl ihr => exact .ofClause (.ofJunction (.junction op ihl ihr))
  | filtered _ _ ihs ihc => exact .ofClause (.filtered (.ofComparison ihs) ihc)

/-- A filter behind a canonical tree moves to the last condition of the tree. -/
theorem Canonical.exists_filtered {e c : Expr} (h : Canonical .expression e)
    (hc : Canonical .expression c) :
    ∃ e', Canonical .expression e' ∧ e'.spell = e.spell ++ .keyword .filter :: c.spell := by
  generalize hp : Phrase.expression = p at h
  induction h with
  | @ofComparison e h => exact ⟨.filtered e c, .filtered h hc, rfl⟩
  | @junction op left right hl hr _ ih =>
    obtain ⟨right', hr', hspell⟩ := ih rfl
    refine ⟨.junction op left right', .junction op hl hr', ?_⟩
    simp only [spell, spell.joined, hspell, List.append_assoc, List.cons_append]
  | @filtered subject condition hs _ _ ih =>
    obtain ⟨condition', hc', hspell⟩ := ih rfl
    refine ⟨.filtered subject condition', .filtered hs hc', ?_⟩
    simp only [spell, spell.joined, hspell, List.append_assoc, List.cons_append]
  | _ => cases hp

end Expr

/-- The phrase under which canonical trees of a phrase are counted. -/
def Phrase.shape : Phrase → Phrase
  | .literal | .operand => .operand
  | .membership => .membership
  | .comparison => .comparison
  | .junction | .clause | .expression | .complete => .expression

/-- **Every sentence has a canonical tree**, however it was derived. -/
theorem Derives.exists_canonical {p : Phrase} {ts : List Token} {e : Expr} (h : Derives p ts e) :
    ∃ c, Expr.Canonical p.shape c ∧ c.spell = ts := by
  induction h with
  | literal l => exact ⟨.literal l, .literal l, rfl⟩
  | @list ts items h =>
    refine ⟨.list items, .list items, ?_⟩
    rw [← h.spell_eq]
    rfl
  | group _ ih =>
    obtain ⟨c, hc, rfl⟩ := ih
    exact ⟨.group c, .group hc, rfl⟩
  | ofOperand _ ih =>
    obtain ⟨c, hc, rfl⟩ := ih
    exact ⟨c, .ofOperand hc, rfl⟩
  | membership _ _ ihl ihr =>
    obtain ⟨left, hl, rfl⟩ := ihl
    obtain ⟨right, hr, rfl⟩ := ihr
    exact ⟨.membership left right, .membership hl hr, rfl⟩
  | ofMembership _ ih =>
    obtain ⟨c, hc, rfl⟩ := ih
    exact ⟨c, .ofMembership hc, rfl⟩
  | comparison op _ hr ihl =>
    obtain ⟨left, hl, rfl⟩ := ihl
    cases hr with
    | literal l => exact ⟨.comparison op left (.literal l), .comparison op hl l, rfl⟩
  | ofComparison _ ih =>
    obtain ⟨c, hc, rfl⟩ := ih
    exact ⟨c, .ofComparison hc, rfl⟩
  | junction op _ _ ihl ihr =>
    obtain ⟨left, hl, rfl⟩ := ihl
    obtain ⟨right, hr, rfl⟩ := ihr
    exact ⟨.junction op left right, .junction op hl hr, rfl⟩
  | filtered _ _ ihs ihc =>
    obtain ⟨subject, hs, rfl⟩ := ihs
    obtain ⟨condition, hc, rfl⟩ := ihc
    -- The subject may end in a right operand, and then the filter is that operand's.
    exact hs.exists_filtered hc
  | ofLiteral _ ih => exact ih
  | ofJunction _ ih => exact ih
  | ofClause _ ih => exact ih

/-! ## Longest right operands -/

namespace Expr

/-- No longer beginning of the tokens than the expression `e` is an expression. The tokens are `e`
and those `after` it. -/
def Longest (e : Expr) (after : List Token) : Prop :=
  ∀ (ts us : List Token) (e' : Expr), Derives .expression ts e' → ts ++ us = e.spell ++ after →
    ts.length ≤ e.spell.length

/-- In a tree before the given tokens, the right operands of all junctions and filters are longest.
-/
def Greedy : Expr → List Token → Prop
  | .literal _, _ => True
  | .list _, _ => True
  | .group inner, after => inner.Greedy (.keyword .closeGroup :: after)
  | .junction op left right, after =>
    left.Greedy (.keyword (BinaryOp.junction op).keyword :: (right.spell ++ after)) ∧
      right.Greedy after ∧ right.Longest after
  | .comparison op left right, after =>
    left.Greedy (.keyword (BinaryOp.comparison op).keyword :: (right.spell ++ after)) ∧
      right.Greedy after
  | .membership left right, after =>
    left.Greedy (.keyword .membership :: (right.spell ++ after)) ∧ right.Greedy after
  | .filtered subject condition, after =>
    subject.Greedy (.keyword .filter :: (condition.spell ++ after)) ∧
      condition.Greedy after ∧ condition.Longest after

/-- An expression before a closing token is longest: a longer one would have been read past it. -/
theorem Canonical.longest {e : Expr} {after : List Token} (h : Canonical .expression e)
    (hafter : Extent.Closes after.head?) : e.Longest after := by
  intro ts us e' hts heq
  obtain ⟨c, hc, rfl⟩ := hts.exists_canonical
  obtain ⟨v, hv, -⟩ | ⟨v, hv, hafter'⟩ := List.append_eq_append_iff.1 heq
  · rw [hv, List.length_append]
    omega
  have hclose : Extent.Closes v.head? := by
    cases v with
    | nil => exact .inl rfl
    | cons t v =>
      rw [hafter'] at hafter
      exact hafter
  have hspell : e.spell ++ v = c.spell ++ [] := by
    rw [hv, List.append_nil]
  have hnil : v = [] := (h.eq_of_append_eq hc hclose (.inl rfl) hspell).2
  have hsame : c.spell = e.spell := by rw [hv, hnil, List.append_nil]
  exact Nat.le_of_eq (congrArg List.length hsame)

/-- Canonical trees are greedy. Operands and comparisons are so before any tokens, since the right
operands within them stand before a closing parenthesis. -/
theorem Canonical.greedy {p : Phrase} {e : Expr} (h : Canonical p e) (after : List Token)
    (hafter : p = .expression → Extent.Closes after.head?) : e.Greedy after := by
  induction h generalizing after with
  | literal l => exact trivial
  | list items => exact trivial
  | group _ ih => exact ih _ fun _ => .inr rfl
  | ofOperand _ ih => exact ih after nofun
  | membership _ _ ihl ihr => exact ⟨ihl _ nofun, ihr after nofun⟩
  | ofMembership _ ih => exact ih after nofun
  | comparison op _ l ih => exact ⟨ih _ nofun, trivial⟩
  | ofComparison _ ih => exact ih after nofun
  | junction op _ hr ihl ihr =>
    exact ⟨ihl _ nofun, ihr after hafter, hr.longest (hafter rfl)⟩
  | filtered _ hc ihs ihc =>
    exact ⟨ihs _ nofun, ihc after hafter, hc.longest (hafter rfl)⟩

theorem Canonical.not_longest {e c : Expr} (h : Canonical .expression e)
    (hc : Canonical .expression c) (after : List Token) :
    ¬ e.Longest (.keyword .filter :: (c.spell ++ after)) := by
  intro hlongest
  obtain ⟨e', he', hspell⟩ := h.exists_filtered hc
  have hlen := hlongest e'.spell after e' he'.derives (by
    rw [hspell, List.append_assoc, List.cons_append])
  rw [hspell, List.length_append, List.length_cons] at hlen
  omega

end Expr

theorem Derives.canonical_of_greedy {p : Phrase} {ts : List Token} {e : Expr}
    (h : Derives p ts e) {after : List Token} (hgreedy : e.Greedy after) :
    Expr.Canonical p.shape e := by
  induction h generalizing after with
  | literal l => exact .literal l
  | list _ => exact .list _
  | group _ ih => exact .group (ih hgreedy)
  | ofOperand _ ih => exact .ofOperand (ih hgreedy)
  | membership _ _ ihl ihr => exact .membership (ihl hgreedy.1) (ihr hgreedy.2)
  | ofMembership _ ih => exact .ofMembership (ih hgreedy)
  | comparison op _ hr ihl =>
    cases hr with
    | literal l => exact .comparison op (ihl hgreedy.1) l
  | ofComparison _ ih => exact .ofComparison (ih hgreedy)
  | junction op _ _ ihl ihr => exact .junction op (ihl hgreedy.1) (ihr hgreedy.2.1)
  | filtered _ _ ihs ihc =>
    obtain ⟨hsubject, hcondition, -⟩ := hgreedy
    have hc := ihc hcondition
    -- A subject that ends in a right operand would give it up to the filter.
    cases ihs hsubject with
    | ofComparison hs => exact .filtered hs hc
    | junction _ _ hr => exact absurd hsubject.2.2 (hr.not_longest hc after)
    | filtered _ hc' => exact absurd hsubject.2.2 (hc'.not_longest hc after)
  | ofLiteral _ ih => exact ih hgreedy
  | ofJunction _ ih => exact ih hgreedy
  | ofClause _ ih => exact ih hgreedy

/-- **Reading follows the grammar.** Tokens that are read are a sentence, read as its only greedy
tree. A sentence, however it is derived, is read or too deep. And the grammar leaves it open where a
filter behind a junction belongs. -/
theorem ofTokens_grammar (tokens : List Token) :
    (∀ e, Expr.ofTokens tokens = .ok e → Derives .expression tokens e ∧ e.Greedy [] ∧
      ∀ e', Derives .expression tokens e' → e'.Greedy [] → e' = e) ∧
    ((∃ e, Derives .expression tokens e) →
      (∃ e, Expr.ofTokens tokens = .ok e) ∨ Expr.ofTokens tokens = .error .tooDeep) ∧
    ∀ (op : Junction) (as bs cs : List Token) (a b c : Expr),
      Derives .comparison as a → Derives .comparison bs b → Derives .expression cs c →
      tokens = as ++ .keyword (BinaryOp.junction op).keyword :: (bs ++ .keyword .filter :: cs) →
      Derives .expression tokens (.junction op a (.filtered b c)) ∧
        Derives .expression tokens (.filtered (.junction op a b) c) := by
  refine ⟨?_, ?_, ?_⟩
  · intro e h
    obtain ⟨hc, rfl⟩ := Expr.canonical_of_ofTokens h
    refine ⟨hc.derives, hc.greedy [] fun _ => .inl rfl, ?_⟩
    intro e' he' hgreedy
    have hc' : Expr.Canonical .expression e' := he'.canonical_of_greedy hgreedy
    exact hc'.eq_of_spell_eq hc he'.spell_eq
  · intro h
    obtain ⟨e, he⟩ := h
    obtain ⟨c, hc, rfl⟩ := he.exists_canonical
    rcases hc.ofTokens_spell with hok | hdeep
    · exact .inl ⟨c, hok⟩
    · exact .inr hdeep
  · intro op as bs cs a b c ha hb hc htokens
    rw [htokens]
    exact derives_twice op ha hb hc

/-- Of the two trees of `a && b where c`, the one with the filter on the right is read. -/
theorem ofTokens_grammar_words :
    let a : Literal := .word "a"
    let b : Literal := .word "b"
    let c : Literal := .word "c"
    let tokens : List Token :=
      [.literal a, .keyword .conjunction, .literal b, .keyword .filter, .literal c]
    let right : Expr := .junction .and (.literal a) (.filtered (.literal b) (.literal c))
    let left : Expr := .filtered (.junction .and (.literal a) (.literal b)) (.literal c)
    Expr.ofTokens tokens = .ok right ∧ Derives .expression tokens right ∧
      Derives .expression tokens left ∧ right.Greedy [] ∧ ¬ left.Greedy [] := by
  intro a b c tokens right left
  have hword (l : Literal) : Derives .comparison [.literal l] (.literal l) :=
    .ofMembership (.ofOperand (.ofLiteral (.literal l)))
  have hfilter : Derives .expression [.literal c] (.literal c) :=
    .ofClause (.ofJunction (.ofComparison (hword c)))
  have hread : Expr.ofTokens tokens = .ok right := by cbv
  obtain ⟨hright, hgreedy, hunique⟩ := (ofTokens_grammar tokens).1 right hread
  obtain ⟨-, hleft⟩ := (ofTokens_grammar tokens).2.2 .and [.literal a] [.literal b] [.literal c]
    (.literal a) (.literal b) (.literal c) (hword a) (hword b) hfilter rfl
  refine ⟨hread, hright, hleft, hgreedy, ?_⟩
  intro h
  have hdiffer : left ≠ right := by decide
  exact hdiffer (hunique left hleft h)

end FactQuery
