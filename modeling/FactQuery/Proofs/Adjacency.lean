import FactQuery.Proofs.Nesting
import FactQuery.Proofs.Separation
import FactQuery.Query

/-!
# The check of neighbours

The check of neighbouring tokens finds nothing wrong with the spelling of a tree, canonical or not:
literals stand apart from each other but in lists, and lists hold nothing else.

The check keeps two things, whether it is inside a list and what the last token was. The spelling of
a tree takes it from outside a list and behind no literal to outside a list again (`PassesCheck`).

**Theorem (`parse_unchecked`).** What is read as an expression passes the check. So a text spells
the same expression with and without the check, or none, and the check can only put its own error in
the place of an error of the grammar.
-/

namespace FactQuery

/-! ## Single tokens -/

/-- A keyword outside a list is no neighbour to object to. -/
theorem adjacencyFaultFrom?_keyword {k : Keyword} (h : k ≠ .openList ∧ k ≠ .closeList)
    (previous : Option Token) (tokens : List Token) :
    adjacencyFaultFrom? false previous (.keyword k :: tokens) =
      adjacencyFaultFrom? false (some (.keyword k)) tokens := by
  have hinside : insideList false (.keyword k) = false := by
    cases k with
    | openList => exact absurd rfl h.1
    | _ => rfl
  rw [adjacencyFaultFrom?, hinside]
  cases previous <;> simp [neighbourFault?, Token.isLiteral, Token.literal?]

/-- A literal outside a list may stand behind anything but a literal. -/
theorem adjacencyFaultFrom?_literal {previous : Option Token}
    (h : ∀ l, previous ≠ some (.literal l)) (l : Literal) (tokens : List Token) :
    adjacencyFaultFrom? false previous (.literal l :: tokens) =
      adjacencyFaultFrom? false (some (.literal l)) tokens := by
  rcases previous with _ | (k | l')
  · rfl
  · rfl
  · exact absurd rfl (h l')

/-- Inside a list, literals up to its end are in place. -/
theorem adjacencyFaultFrom?_items (ls : List Literal) (previous : Option Token)
    (tokens : List Token) :
    adjacencyFaultFrom? true previous
        (ls.map Token.literal ++ .keyword .closeList :: tokens) =
      adjacencyFaultFrom? false (some (.keyword .closeList)) tokens := by
  induction ls generalizing previous with
  | nil => cases previous <;> simp [adjacencyFaultFrom?, insideList, neighbourFault?,
      Token.isLiteral, Token.literal?]
  | cons l ls ih =>
    show adjacencyFaultFrom? true (some (.literal l)) (ls.map Token.literal ++ _) = _
    exact ih (some (.literal l))

/-! ## Spellings -/

/-- From outside a list and behind no literal, the check passes over the tokens and is outside a
list again. -/
def PassesCheck (ts : List Token) : Prop :=
  ∀ previous, (∀ l, previous ≠ some (.literal l)) → ∃ last, ∀ tokens,
    adjacencyFaultFrom? false previous (ts ++ tokens) =
      adjacencyFaultFrom? false (some last) tokens

theorem passesCheck_literal (l : Literal) : PassesCheck [.literal l] := by
  intro previous h
  exact ⟨.literal l, adjacencyFaultFrom?_literal h l⟩

theorem passesCheck_list (items : Items) : PassesCheck items.spell := by
  intro previous _
  refine ⟨.keyword .closeList, fun tokens => ?_⟩
  rw [Items.spell, List.cons_append, List.append_assoc]
  exact adjacencyFaultFrom?_items items.toList (some (.keyword .openList)) tokens

theorem PassesCheck.group {ts : List Token} (h : PassesCheck ts) :
    PassesCheck (.keyword .openGroup :: (ts ++ [.keyword .closeGroup])) := by
  intro previous _
  obtain ⟨last, hlast⟩ := h (some (.keyword .openGroup)) (by simp)
  refine ⟨.keyword .closeGroup, fun tokens => ?_⟩
  rw [List.cons_append, List.append_assoc, adjacencyFaultFrom?_keyword (by simp), hlast]
  exact adjacencyFaultFrom?_keyword (by simp) _ _

theorem PassesCheck.joined {ts us : List Token} (ht : PassesCheck ts) (hu : PassesCheck us)
    (op : BinaryOp) : PassesCheck (Expr.spell.joined op ts us) := by
  have hop : op.keyword ≠ .openList ∧ op.keyword ≠ .closeList := by
    rcases op with (_ | _) | (_ | _ | _ | _ | _ | _) | _ | _ <;> decide
  intro previous h
  obtain ⟨last, hlast⟩ := ht previous h
  obtain ⟨last', hlast'⟩ := hu (some (.keyword op.keyword)) (by simp)
  refine ⟨last', fun tokens => ?_⟩
  rw [Expr.spell.joined, List.append_assoc, hlast, List.cons_append,
    adjacencyFaultFrom?_keyword hop, hlast']

namespace Expr

theorem passesCheck_spell (e : Expr) : PassesCheck e.spell := by
  induction e with
  | literal l => exact passesCheck_literal l
  | list items => exact passesCheck_list items
  | group _ ih => exact ih.group
  | junction op _ _ ihl ihr => exact ihl.joined ihr (.junction op)
  | comparison op _ _ ihl ihr => exact ihl.joined ihr (.comparison op)
  | membership _ _ ihl ihr => exact ihl.joined ihr .membership
  | filtered _ _ ihs ihc => exact ihs.joined ihc .filter

/-- **What a tree spells may stand together.** -/
theorem adjacencyFault?_spell (e : Expr) : adjacencyFault? e.spell = none := by
  obtain ⟨last, hlast⟩ := e.passesCheck_spell none (by simp)
  rw [adjacencyFault?, ← List.append_nil e.spell, hlast]
  rfl

theorem checkAdjacency_spell (e : Expr) (source : String) :
    checkAdjacency e.spell source = .ok () := by
  rw [checkAdjacency, e.adjacencyFault?_spell]

end Expr

/-! ## Texts -/

theorem lex_of_scan_spell {source : String} {e : Expr} (h : scan source.toList = (e.spell, none)) :
    lex source = .ok e.spell :=
  lex_eq_ok_iff.2 ⟨h, e.adjacencyFault?_spell⟩

/-- The expression that a text spells, read without the check of neighbours. -/
def parseUnchecked (source : String) : Except QueryError Expr :=
  match tokenize source with
  | .error e => .error (.lex e)
  | .ok tokens => (Expr.ofTokens tokens).mapError .parse

/-- Where the check finds a fault, the grammar has an error. -/
theorem exists_error_of_adjacencyFault? {ts : List Token} {fault : LexFault}
    (h : adjacencyFault? ts = some fault) : ∃ e, Expr.ofTokens ts = .error e := by
  cases hread : Expr.ofTokens ts with
  | error e => exact ⟨e, rfl⟩
  | ok e =>
    obtain ⟨-, rfl⟩ := Expr.canonical_of_ofTokens hread
    rw [e.adjacencyFault?_spell] at h
    cases h

/-- Without the check a text is read the same, but for the error where the check finds a fault. -/
theorem parse_eq_or_fault (source : String) :
    parse source = parseUnchecked source ∨
      ∃ ts fault e, tokenize source = .ok ts ∧ adjacencyFault? ts = some fault ∧
        parse source = .error (.lex ⟨fault, source⟩) ∧
        parseUnchecked source = .error (.parse e) := by
  cases htokens : tokenize source with
  | error e => simp [parse, parseUnchecked, lex, htokens]
  | ok ts =>
    cases hfault : adjacencyFault? ts with
    | none => simp [parse, parseUnchecked, lex, checkAdjacency, htokens, hfault]
    | some fault =>
      obtain ⟨e, he⟩ := exists_error_of_adjacencyFault? hfault
      refine .inr ⟨ts, fault, e, rfl, hfault, ?_, ?_⟩
      · simp [parse, lex, checkAdjacency, htokens, hfault]
      · simp [parseUnchecked, htokens, he, Except.mapError]

theorem parse_eq_ok_iff_unchecked {source : String} {e : Expr} :
    parse source = .ok e ↔ parseUnchecked source = .ok e := by
  rcases parse_eq_or_fault source with heq | ⟨_, _, _, -, -, hchecked, hunchecked⟩
  · rw [heq]
  · rw [hchecked, hunchecked]
    simp

theorem parse_eq_ok_iff {source : String} {e : Expr} :
    parse source = .ok e ↔ ∃ ts, scan source.toList = (ts, none) ∧ Expr.ofTokens ts = .ok e := by
  simp only [parse_eq_ok_iff_unchecked, ← tokenize_eq_ok_iff, parseUnchecked]
  cases tokenize source with
  | error e => simp
  | ok ts => cases hread : Expr.ofTokens ts <;> simp [Except.mapError, hread]

/-- **The check of neighbours refuses no expression.** Tokens that are read pass it, whatever the
text. So a text is read as the same expression without the check, and only an error can differ. -/
theorem parse_unchecked :
    (∀ ts e source, Expr.ofTokens ts = .ok e → checkAdjacency ts source = .ok ()) ∧
    ∀ source, (∀ e, parse source = .ok e ↔ parseUnchecked source = .ok e) ∧
      (parse source = parseUnchecked source ∨
        ∃ ts fault e, tokenize source = .ok ts ∧ adjacencyFault? ts = some fault ∧
          parse source = .error (.lex ⟨fault, source⟩) ∧
          parseUnchecked source = .error (.parse e)) := by
  refine ⟨?_, fun source => ⟨fun e => parse_eq_ok_iff_unchecked, parse_eq_or_fault source⟩⟩
  intro ts e source h
  obtain ⟨-, rfl⟩ := Expr.canonical_of_ofTokens h
  exact e.checkAdjacency_spell source

/-- Literals stand side by side in a list, and the check lets them. -/
theorem parse_unchecked_list :
    let tokens : List Token :=
      [.literal (.word "a"), .keyword .membership, .keyword .openList, .literal (.word "b"),
       .literal (.integer 1), .keyword .closeList, .keyword .conjunction, .literal (.word "c")]
    let e : Expr := .junction .and
      (.membership (.literal (.word "a")) (.list ⟨.word "b", [.integer 1]⟩)) (.literal (.word "c"))
    Expr.ofTokens tokens = .ok e ∧ ∀ source, checkAdjacency tokens source = .ok () := by
  intro tokens e
  have hread : Expr.ofTokens tokens = .ok e := by cbv
  exact ⟨hread, fun source => parse_unchecked.1 tokens e source hread⟩

end FactQuery
