import FactQuery.Grammar.Cursor
import FactQuery.Proofs.Lookahead
import FactQuery.Proofs.RoundTrip

/-!
# The first offending token

An error of the grammar stands at the first token with which the tokens cease to be the beginning of
an expression.

**What is found** (`Rule.Blames`). An error says which token it found, and that is the one before
which the reading stopped.

**Viable beginnings** (`Rule.Recovers`). Up to its error, a reading could still have succeeded:
behind the tokens passed so far, a literal and closing brackets complete every phrase that has been
begun. These open no level, so the nesting limit is no obstacle. The phrases of a rule are completed
up to a closing token, behind which no operator goes on.

**No way on.** That the error stays, whatever comes behind the offending token, is that readings are
prompt (`Lookahead.lean`).

**Theorem (`read_complete_error`).** Together these are what is said of every error of the grammar
but that of the nesting limit.
-/

namespace FactQuery

/-- What an error found in the place of what it expected. The nesting limit finds nothing. -/
def ParseError.found? : ParseError → Option (Option Token)
  | .expectedLiteral _ found => some found
  | .expectedKeyword _ found => some found
  | .unexpectedToken found => some (some found)
  | .tooDeep => none

namespace Rule

variable {α β : Type}

/-! ## Failed readings -/

/-- The rule fails on the first input with the error and stops at the second one. -/
def Fails (r : Rule α) (i : Input) (e : ParseError) (j : Input) : Prop :=
  (r i).result = .error e ∧ (r i).stop = j

@[simp] theorem fails_pure {a : α} {i j : Input} {e : ParseError} :
    ¬ (Pure.pure a : Rule α).Fails i e j := by
  simp [Fails]

@[simp] theorem fails_fail {e e' : ParseError} {i j : Input} :
    (fail e : Rule α).Fails i e' j ↔ e' = e ∧ j = i := by
  simp [Fails, eq_comm]

theorem fails_bind {first : Rule α} {next : α → Rule β} {i j : Input} {e : ParseError} :
    (first >>= next).Fails i e j ↔
      first.Fails i e j ∨ ∃ a k, first.Yields i a k ∧ (next a).Fails k e j := by
  cases h : (first i).result with
  | error e' => simp [Fails, Yields, bind_of_error h, h]
  | ok a =>
    simp only [Fails, Yields, bind_of_ok h, h]
    refine ⟨?_, ?_⟩
    · intro hnext
      exact .inr ⟨a, (first i).stop, ⟨rfl, rfl⟩, hnext⟩
    · intro h
      rcases h with ⟨h, -⟩ | ⟨a', k, ⟨ha, rfl⟩, hnext⟩
      · cases h
      · cases ha
        exact hnext

@[simp] theorem fails_look_bind {next : Option Token → Rule β} {i j : Input} {e : ParseError} :
    (look >>= next).Fails i e j ↔ (next i.rest.head?).Fails i e j := Iff.rfl

@[simp] theorem fails_skip_bind {next : Unit → Rule β} {i j : Input} {e : ParseError} :
    (skip >>= next).Fails i e j ↔ (next ()).Fails i.tail e j := Iff.rfl

@[simp] theorem fails_note_bind {step : Nat → Step} {next : Unit → Rule β} {i j : Input}
    {e : ParseError} : (note step >>= next).Fails i e j ↔ (next ()).Fails i e j := Iff.rfl

theorem fails_literal {place : LiteralPlace} {i j : Input} {e : ParseError} :
    (literal place).Fails i e j ↔ i.rest.head?.bind Token.literal? = none ∧
      e = .expectedLiteral place i.rest.head? ∧ j = i := by
  rw [literal, fails_look_bind]
  cases h : i.rest.head?.bind Token.literal? with
  | none => simp
  | some l => simp

theorem fails_keyword {k : Keyword} {i j : Input} {e : ParseError} :
    (keyword k).Fails i e j ↔ i.rest.head? ≠ some (.keyword k) ∧
      e = .expectedKeyword k i.rest.head? ∧ j = i := by
  rw [keyword, fails_look_bind]
  by_cases hi : i.rest.head? = some (.keyword k)
  · simp [hi, Fails]
  · simp [hi]

theorem fails_optional {keywords : List Keyword} {right : Rule Expr} {left : Expr}
    {i j : Input} {e : ParseError} (h : (optional keywords right left).Fails i e j) :
    ∃ op : BinaryOp, op.keyword ∈ keywords ∧ i.rest.head? = some (.keyword op.keyword) ∧
      right.Fails i.tail e j := by
  rw [optional, fails_look_bind] at h
  cases hop : operator? keywords i.rest.head? with
  | none =>
    rw [hop] at h
    exact absurd h fails_pure
  | some op =>
    obtain ⟨ht, hk⟩ := operator?_eq_some_iff.1 hop
    rw [hop] at h
    simp only [fails_note_bind, fails_skip_bind] at h
    rcases fails_bind.1 h with hr | ⟨r, k, -, hpure⟩
    · exact ⟨op, hk, ht, hr⟩
    · exact absurd hpure fails_pure

theorem Prompt.fails {r : Rule α} (h : r.Prompt) {i j : Input} {e : ParseError}
    (hr : r.Fails i e j) {ts : List Token} (hspan : i.Spans ts j) {rest : List Token}
    (hrest : rest.head? = j.rest.head?) :
    r.Fails ⟨i.offset, ts ++ rest⟩ e ⟨j.offset, rest⟩ := by
  obtain ⟨hresult, rfl⟩ := hr
  obtain ⟨us, hspan', hus⟩ := h i
  obtain rfl := hspan.unique hspan'
  rw [Fails, hus rest hrest]
  exact ⟨hresult, rfl⟩

/-! ## What is found -/

/-- An error of the rule has found the token before which the reading stops. -/
def Blames (r : Rule α) : Prop :=
  ∀ i e j, r.Fails i e j → e = .tooDeep ∨ e.found? = some j.rest.head?

theorem closed_blames : Closed fun _ r => r.Blames where
  pure _ _ _ _ h := absurd h fails_pure
  bind h hnext i e j hr := by
    rcases fails_bind.1 hr with hfirst | ⟨a, k, -, hr⟩
    · exact h i e j hfirst
    · exact hnext a k e j hr
  look _ _ _ h := nomatch h.1
  skip _ _ _ h := nomatch h.1
  note _ _ _ _ h := nomatch h.1
  literal place i e j h := by
    obtain ⟨-, rfl, rfl⟩ := fails_literal.1 h
    exact .inr rfl
  keyword k i e j h := by
    obtain ⟨-, rfl, rfl⟩ := fails_keyword.1 h
    exact .inr rfl
  literals _ _ _ h := nomatch h.1
  tooDeep i e j h := .inl (fails_fail.1 h).1

theorem fails_complete {levels : Nat} {i j : Input} {e : ParseError}
    (h : (complete levels).Fails i e j) :
    (expression levels).Fails i e j ∨
      ∃ x t, (expression levels).Yields i x j ∧ j.rest.head? = some t ∧
        e = .unexpectedToken t := by
  rcases fails_bind.1 h with h | ⟨x, k, hx, h⟩
  · exact .inl h
  · rw [fails_look_bind] at h
    cases hk : k.rest.head? with
    | none =>
      rw [hk] at h
      exact absurd h fails_pure
    | some t =>
      rw [hk] at h
      obtain ⟨rfl, rfl⟩ := fails_fail.1 h
      exact .inr ⟨x, t, hx, hk, rfl⟩

theorem blames_complete (levels : Nat) : (complete levels).Blames := by
  intro i e j h
  rcases fails_complete h with h | ⟨x, t, -, ht, rfl⟩
  · exact closed_blames.expression levels i e j h
  · rw [ht]
    exact .inr rfl

end Rule

/-! ## Viable beginnings -/

namespace Extent

/-- What may stop before some token may stop before a closing token. -/
def Closable (X : Extent) : Prop := ∀ e t t', X e t → Closes t' → X e t'

theorem closable_optional {keywords : List Keyword} {L R : Extent} (hL : Closable L)
    (hR : Closable R) : Closable (optional keywords L R) := by
  intro e t t' h ht'
  rcases h with ⟨h, -⟩ | ⟨op, left, right, rfl, hk, hl, hr⟩
  · exact .inl ⟨hL e t t' h ht', ht'.operator? keywords⟩
  · exact .inr ⟨op, left, right, rfl, hk, hl, hR right t t' hr ht'⟩

theorem closable_expression (levels : Nat) : Closable (expression levels) := by
  have hcomparand : Closable comparand := fun _ _ _ h _ => h
  have hoperand (E : Extent) : Closable (operand E) := fun _ _ _ h _ => h
  induction levels with
  | zero => exact fun _ _ _ h _ => h
  | succ levels ih =>
    have hmembership : Closable (membership (expression levels)) :=
      closable_optional (hoperand _) (hoperand _)
    have hcomparison : Closable (comparison (expression levels)) :=
      closable_optional hmembership hcomparand
    exact closable_optional (closable_optional hcomparison ih) ih

end Extent

namespace Rule

/-- The tokens that the rule passes up to an error begin the spelling of a tree of the extent, one
that may stop before any closing token. -/
def Recovers (r : Rule Expr) (X : Extent) : Prop :=
  ∀ i e j, r.Fails i e j → e ≠ .tooDeep →
    ∃ ts ext x, i.Spans ts j ∧ x.spell = ts ++ ext ∧ ∀ t, Extent.Closes t → X x t

/-- A literal that stands for any other. -/
def filler : Literal := .integer 0

variable {r left right : Rule Expr} {E L R : Extent}

theorem recovers_note {step : Nat → Step} (h : r.Recovers E) : Recovers (do note step; r) E := by
  intro i e j hr
  exact h i e j (fails_note_bind.1 hr)

theorem recovers_comparand : comparand.Recovers Extent.comparand := by
  intro i e j h _
  rcases fails_bind.1 h with h | ⟨l, k, -, h⟩
  · obtain ⟨-, -, rfl⟩ := fails_literal.1 h
    exact ⟨[], [.literal filler], .literal filler, by simp, rfl, fun _ _ => ⟨filler, rfl⟩⟩
  · exact absurd h fails_pure

/-- Up to its error, a list has its opening bracket and perhaps some literals. -/
theorem list_begins {i j : Input} {e : ParseError} (h : list.Fails i e j)
    (hi : i.rest.head? = some (.keyword .openList)) :
    ∃ ts ext items, i.Spans ts j ∧ (Expr.list items).spell = ts ++ ext := by
  rw [list, fails_note_bind, fails_skip_bind] at h
  rcases fails_bind.1 h with h | ⟨first, k, hfirst, h⟩
  · obtain ⟨-, -, rfl⟩ := fails_literal.1 h
    exact ⟨[.keyword .openList], [.literal filler, .keyword .closeList], ⟨filler, []⟩,
      by simp [hi], rfl⟩
  · rcases fails_bind.1 h with h | ⟨others, m, hothers, h⟩
    · cases h.1
    · rcases fails_bind.1 h with h | ⟨_, _, -, h⟩
      · obtain ⟨-, -, rfl⟩ := fails_keyword.1 h
        refine ⟨.keyword .openList :: ([.literal first] ++ others.map Token.literal),
          [.keyword .closeList], ⟨first, others⟩, ?_, by simp⟩
        rw [Input.spans_cons, Input.spans_append]
        exact ⟨hi, k, yields_literal.1 hfirst, (yields_literals.1 hothers).1⟩
      · exact absurd h fails_pure

/-- Up to its error, a group has its opening parenthesis and the beginning of an expression. -/
theorem group_begins (h : r.Recovers E) (hreads : r.Reads E) (hE : E.Closable) {i j : Input}
    {e : ParseError} (hr : (group r).Fails i e j) (he : e ≠ .tooDeep)
    (hi : i.rest.head? = some (.keyword .openGroup)) :
    ∃ ts ext inner, i.Spans ts j ∧ (Expr.group inner).spell = ts ++ ext ∧
      E inner (some (.keyword .closeGroup)) := by
  rw [group, fails_note_bind, fails_skip_bind] at hr
  rcases fails_bind.1 hr with hr | ⟨inner, k, hinner, hr⟩
  · obtain ⟨ts, ext, inner, hspan, hspell, hX⟩ := h _ e j hr he
    refine ⟨.keyword .openGroup :: ts, ext ++ [.keyword .closeGroup], inner,
      Input.spans_cons.2 ⟨hi, hspan⟩, ?_, hX _ (.inr rfl)⟩
    rw [Expr.spell_group, hspell, List.append_assoc, List.cons_append]
  · rcases fails_bind.1 hr with hr | ⟨_, _, -, hr⟩
    · obtain ⟨-, -, rfl⟩ := fails_keyword.1 hr
      obtain ⟨hspan, hX⟩ := (hreads _ _ _).1 hinner
      exact ⟨.keyword .openGroup :: inner.spell, [.keyword .closeGroup], inner,
        Input.spans_cons.2 ⟨hi, hspan⟩, rfl, hE inner _ _ hX (.inr rfl)⟩
    · exact absurd hr fails_pure

theorem recovers_operand (h : r.Recovers E) (hreads : r.Reads E) (hE : E.Closable) :
    (operand r).Recovers (Extent.operand E) := by
  intro i e j hr he
  rw [operand, fails_look_bind] at hr
  split at hr
  · next hi =>
    obtain ⟨ts, ext, items, hspan, hspell⟩ := list_begins hr hi
    exact ⟨ts, ext, .list items, hspan, hspell, fun _ _ => trivial⟩
  · next hi =>
    obtain ⟨ts, ext, inner, hspan, hspell, hX⟩ := group_begins h hreads hE hr he hi
    exact ⟨ts, ext, .group inner, hspan, hspell, fun _ _ => hX⟩
  · rcases fails_bind.1 hr with hr | ⟨l, k, -, hr⟩
    · obtain ⟨-, -, rfl⟩ := fails_literal.1 hr
      exact ⟨[], [.literal filler], .literal filler, by simp, rfl, fun _ _ => trivial⟩
    · exact absurd hr fails_pure

/-- A left operand is completed before a closing token, and so is left alone. Behind an operator it
has been read, and the right operand is completed. -/
theorem recovers_optional {keywords : List Keyword} (hl : left.Recovers L) (hreads : left.Reads L)
    (hr : right.Recovers R) :
    Recovers (do optional keywords right (← left)) (Extent.optional keywords L R) := by
  intro i e j h he
  rcases fails_bind.1 h with h | ⟨l, k, hleft, h⟩
  · obtain ⟨ts, ext, x, hspan, hspell, hX⟩ := hl i e j h he
    exact ⟨ts, ext, x, hspan, hspell, fun t ht => .inl ⟨hX t ht, ht.operator? keywords⟩⟩
  · obtain ⟨op, hk, ht, h⟩ := fails_optional h
    obtain ⟨hspan, hL⟩ := (hreads _ _ _).1 hleft
    obtain ⟨ts, ext, x, hspan', hspell, hX⟩ := hr k.tail e j h he
    refine ⟨l.spell ++ .keyword op.keyword :: ts, ext, .binary op l x, ?_, ?_, ?_⟩
    · rw [Input.spans_append]
      exact ⟨k, hspan, Input.spans_cons.2 ⟨ht, hspan'⟩⟩
    · rw [Expr.spell_binary, hspell, List.append_assoc, List.cons_append]
    · intro t htclose
      exact .inr ⟨op, l, x, rfl, hk, ht ▸ hL, hX t htclose⟩

/-- **What an expression passes up to an error** can be completed. -/
theorem recovers_expression (levels : Nat) :
    (expression levels).Recovers (Extent.expression levels) := by
  induction levels with
  | zero =>
    intro i e j h he
    exact absurd (fails_fail.1 (fails_note_bind.1 h)).1 he
  | succ levels ih =>
    have hreads := reads_expression levels
    have hoperand := recovers_operand ih hreads (Extent.closable_expression levels)
    have hmembership : (membership (expression levels)).Recovers _ :=
      recovers_note (recovers_optional hoperand (reads_operand hreads) hoperand)
    have hcomparison : (comparison (expression levels)).Recovers _ :=
      recovers_note (recovers_optional hmembership (reads_membership hreads) recovers_comparand)
    have hjunction : (junction (expression levels)).Recovers _ :=
      recovers_note (recovers_optional hcomparison (reads_comparison hreads) ih)
    exact recovers_note (recovers_note (recovers_optional hjunction (reads_junction hreads) ih))

/-- **Viable beginnings.** Up to an error that is not about the nesting, the tokens begin a sequence
that is read. -/
theorem exists_complete {levels : Nat} {i j : Input} {e : ParseError}
    (h : (complete levels).Fails i e j) (he : e ≠ .tooDeep) :
    ∃ ts ext x, i.Spans ts j ∧ (complete levels ⟨0, ts ++ ext⟩).result = .ok x := by
  have hclose : Extent.Closes none := .inl rfl
  have hread {x : Expr} (hX : Extent.expression levels x none) :
      (complete levels ⟨0, x.spell⟩).result = .ok x := by
    obtain ⟨hc, ho⟩ := (Extent.expression_iff hclose).1 hX
    exact complete_eq_ok_iff.2 ⟨hc, rfl, ho⟩
  rcases fails_complete h with h | ⟨x, t, hx, -, -⟩
  · obtain ⟨ts, ext, x, hspan, hspell, hX⟩ := recovers_expression levels i e j h he
    exact ⟨ts, ext, x, hspan, hspell ▸ hread (hX none hclose)⟩
  · obtain ⟨hspan, hX⟩ := (reads_expression levels _ _ _).1 hx
    refine ⟨x.spell, [], x, hspan, ?_⟩
    rw [List.append_nil]
    exact hread (Extent.closable_expression levels x _ _ hX hclose)

end Rule

/-! ## Errors at a cursor -/

/-- The text of what was found: a token in quotes, or the end. -/
inductive FoundText : Option Token → String → Prop
  | keyword (k : Keyword) : FoundText (some (.keyword k)) ("'" ++ k.spelling ++ "'")
  | integer (n : Int64) :
      FoundText (some (.literal (.integer n))) ("'" ++ toString n.toInt ++ "'")
  | float (x : Binary64) :
      FoundText (some (.literal (.float x))) ("'" ++ String.ofList x.toText ++ "'")
  | word (w : String) : FoundText (some (.literal (.word w))) ("'" ++ w ++ "'")
  | finish : FoundText none "end of input"

/-- What an error says about the text of what was found. -/
inductive ParseError.Says : ParseError → String → String → Prop
  | operand (found : Option Token) (text : String) :
      Says (.expectedLiteral .operand found) text
        ("Expected a literal, '[' or '(', found " ++ text)
  | item (found : Option Token) (text : String) :
      Says (.expectedLiteral .list found) text ("Expected a list value, found " ++ text)
  | comparand (found : Option Token) (text : String) :
      Says (.expectedLiteral .comparison found) text ("Expected a literal, found " ++ text)
  | keyword (k : Keyword) (found : Option Token) (text : String) :
      Says (.expectedKeyword k found) text ("Expected '" ++ k.spelling ++ "', found " ++ text)
  | behind (t : Token) (text : String) :
      Says (.unexpectedToken t) text ("Unexpected " ++ text ++ " after complete expression")

theorem foundText_iff {found : Option Token} {text : String} :
    FoundText found text ↔ describeFound found = text := by
  constructor
  · rintro (_ | _ | _ | _ | _) <;> rfl
  · rintro rfl
    rcases found with _ | k | n | x | w
    · exact .finish
    · exact .keyword k
    · exact .integer n
    · exact .float x
    · exact .word w

/-- The text of what was found stands in the message. -/
theorem ParseError.says_iff {e : ParseError} {found : Option Token} (h : e.found? = some found)
    {message : String} : e.Says (describeFound found) message ↔ e.message = message := by
  constructor
  · intro hsays
    cases hsays <;> cases h <;> rfl
  · rintro rfl
    cases e with
    | expectedLiteral place _ =>
      cases h
      cases place with
      | operand => exact .operand found _
      | list => exact .item found _
      | comparison => exact .comparand found _
    | expectedKeyword k _ =>
      cases h
      exact .keyword k found _
    | unexpectedToken t =>
      cases h
      exact .behind t _
    | tooDeep => cases h

namespace Cursor

theorem index_moveTo_ofTokens {tokens : List Token} {n : Nat} (h : n ≤ tokens.length) :
    ((ofTokens tokens).moveTo n).index = n := Nat.min_eq_left h

theorem read_eq_error_iff {phrase : Phrase} {c c' : Cursor} {e : ParseError} :
    c.read phrase = (.error e, c') ↔
      ∃ j, (phrase.rule maxNesting).Fails c.input e j ∧ c' = c.moveTo j.offset := by
  simp only [read, Rule.Fails]
  generalize phrase.rule maxNesting c.input = x
  obtain ⟨result, stop, steps⟩ := x
  cases result with
  | error e' => simp [eq_comm]
  | ok x => simp

end Cursor

/-- **An error points at the first offending token.** Let the reading of a whole token sequence fail
and leave the cursor on some token or at the end. That is what the error says it has found, and its
text stands in the message. The tokens before it begin an expression. With it they begin none:
whatever comes behind it, the reading fails with the same error and leaves the cursor in the same
place. -/
theorem read_complete_error {tokens : List Token} {e : ParseError} {c : Cursor}
    (h : (Cursor.ofTokens tokens).read .complete = (.error e, c)) (he : e ≠ .tooDeep) :
    c.index ≤ tokens.length ∧ e.found? = some tokens[c.index]? ∧
      (∃ text, FoundText tokens[c.index]? text ∧ e.Says text e.message) ∧
      (∃ ext x, Expr.ofTokens (tokens.take c.index ++ ext) = .ok x) ∧
      (c.index < tokens.length → ∀ ext, ∃ c',
        (Cursor.ofTokens (tokens.take (c.index + 1) ++ ext)).read .complete = (.error e, c') ∧
          c'.index = c.index) := by
  obtain ⟨j, hfails, rfl⟩ := Cursor.read_eq_error_iff.1 h
  obtain ⟨ts, ext, x, hspan, hx⟩ := Rule.exists_complete hfails he
  have htokens : tokens = ts ++ j.rest := hspan.1
  have hoffset : j.offset = ts.length := by rw [hspan.2]; exact Nat.zero_add _
  have hle : ts.length ≤ tokens.length := by simp [htokens]
  rw [Cursor.index_moveTo_ofTokens (hoffset ▸ hle), hoffset]
  have htake : tokens.take ts.length = ts := by rw [htokens, List.take_left]
  -- The tokens passed are those before the cursor, and the next one is the one found.
  have hnext : tokens[ts.length]? = j.rest.head? := by
    rw [htokens, List.getElem?_append_right le_rfl, Nat.sub_self, List.head?_eq_getElem?]
  have hfound : e.found? = some tokens[ts.length]? := by
    rw [hnext]
    exact (Rule.blames_complete maxNesting _ _ _ hfails).resolve_left he
  have hsays := (ParseError.says_iff hfound).2 rfl
  refine ⟨hle, hfound, ⟨_, foundText_iff.2 rfl, hsays⟩, ⟨ext, x, htake.symm ▸ hx⟩, ?_⟩
  intro hlt ext
  obtain ⟨t, ht⟩ : ∃ t, tokens[ts.length]? = some t := ⟨_, List.getElem?_eq_getElem hlt⟩
  have htake' : tokens.take (ts.length + 1) ++ ext = ts ++ t :: ext := by
    rw [List.take_add_one, htake, ht, Option.toList_some, List.append_assoc, List.singleton_append]
  have hhead : (t :: ext).head? = j.rest.head? := by rw [← hnext, ht, List.head?_cons]
  have hfails' := (Rule.prompt_complete maxNesting).fails hfails hspan hhead
  rw [htake']
  refine ⟨_, Cursor.read_eq_error_iff.2 ⟨_, hfails', rfl⟩, ?_⟩
  rw [hoffset]
  exact Cursor.index_moveTo_ofTokens (by simp)

/-- In `(a in [b where` the list has to be closed where `where` stands. -/
theorem read_complete_error_open_list :
    let tokens : List Token :=
      [.keyword .openGroup, .literal (.word "a"), .keyword .membership, .keyword .openList,
       .literal (.word "b"), .keyword .filter]
    let e : ParseError := .expectedKeyword .closeList (some (.keyword .filter))
    let c : Cursor := (Cursor.ofTokens tokens).moveTo 5
    (Cursor.ofTokens tokens).read .complete = (.error e, c) ∧ e ≠ .tooDeep ∧
      (∃ ext x, Expr.ofTokens (tokens.take 5 ++ ext) = .ok x) ∧
      ∀ ext, ∃ c', (Cursor.ofTokens (tokens ++ ext)).read .complete = (.error e, c') ∧
        c'.index = 5 := by
  intro tokens e c
  have hread : (Cursor.ofTokens tokens).read .complete = (.error e, c) := by cbv
  have he : e ≠ .tooDeep := by decide
  obtain ⟨-, -, -, hviable, hstays⟩ := read_complete_error hread he
  exact ⟨hread, he, hviable, hstays (by decide)⟩

end FactQuery
