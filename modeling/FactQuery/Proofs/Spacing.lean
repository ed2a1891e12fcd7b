import FactQuery.Proofs.Obstacles

/-!
# Blanks between two texts

Blanks end every lexeme, and they begin none. So two texts with blanks between them are split one
after the other.

**Theorem (`tokenize_spaced`).** The tokens of the whole are those of the first text and then those
of the second one. A fault of the first text is one of the whole. If there is none, then a fault of
the second text is found as far behind as the first text and the blanks are long
(`LexFault.shift`).
-/

namespace FactQuery

/-! ## Faults further behind -/

/-- The fault, so many characters further behind. -/
def LexFault.shift (n : Nat) : LexFault → LexFault
  | .invalidCharacter c position => .invalidCharacter c (n + position)
  | .unknownSymbol c position => .unknownSymbol c (n + position)
  | fault => fault

/-- The same error in a longer text, with `n` characters in front. -/
def LexError.behind (n : Nat) (source : String) (e : LexError) : LexError :=
  ⟨e.fault.shift n, source⟩

theorem Obstacle.fault_add (o : Obstacle) (n position : Nat) :
    o.fault (n + position) = (o.fault position).shift n := by
  cases o <;> rfl

/-- Where less is left than a text is long, what is in front of the text only moves the fault. -/
theorem Obstacle.error_behind_of_le {source text : String} {n left : Nat}
    (hlength : source.length = n + text.length) (hleft : left ≤ text.length) (o : Obstacle) :
    o.error source left = (o.error text left).behind n source := by
  rw [Obstacle.error, Obstacle.error, LexError.behind, ← Obstacle.fault_add, hlength,
    Nat.add_sub_assoc hleft]

theorem suffix_of_scan {s rest : List Char} {ts : List Token} {o : Obstacle}
    (h : scan s = (ts, some (o, rest))) : rest <:+ s := by
  obtain ⟨before, behind, rfl, -, hobstacle⟩ := scan_eq_obstacle_iff.1 h
  exact hobstacle.suffix.trans (List.suffix_append before behind)

/-! ## Blanks -/

theorem isBreak_of_isBlank {c : Char} (h : Text.isBlank c = true) : IsBreak c := by
  have hclass (hc : isSymbolChar c = true ∨ isNumberChar c = true ∨ isWordChar c = true) :
      False := by
    rw [not_isBlank hc] at h
    cases h
  have hall : ∀ c ∈ ['&', '|', 'n', '='], isSymbolChar c = true ∨ isWordChar c = true := by
    simp [isSymbolChar, isWordChar, Text.isAlphanumeric]
  refine ⟨Bool.eq_false_iff.2 fun hc => hclass (.inr (.inl hc)),
    Bool.eq_false_iff.2 fun hc => hclass (.inr (.inr hc)), fun hmem => ?_⟩
  exact hclass ((hall c hmem).imp_right .inr)

/-- **Blanks between two texts.** -/
theorem scan_spaced {blanks : List Char} (hne : blanks ≠ [])
    (h : ∀ c ∈ blanks, Text.isBlank c = true) (s u : List Char) :
    scan (s ++ (blanks ++ u)) = match scan s with
      | (ts, none) => (ts ++ (scan u).1, (scan u).2)
      | (ts, some (o, rest)) => (ts, some (o, rest ++ (blanks ++ u))) := by
  have hblanks : scan (blanks ++ u) = scan u := scan_blanks_append h u
  obtain ⟨c, tail, rfl⟩ := List.exists_cons_of_ne_nil hne
  have happend := scan_append (isBreak_of_isBlank (h c (by simp))) s (tail ++ u)
  rw [← List.cons_append, hblanks] at happend
  exact happend

/-- **Blanks separate texts.** Two texts with blanks between them are split one after the other. The
first fault counts, and one in the second text is found behind the first text and the blanks. -/
theorem tokenize_spaced {s blanks u : String} (hne : blanks ≠ "")
    (h : ∀ c ∈ blanks.toList, Text.isBlank c = true) :
    tokenize (s ++ blanks ++ u) = match tokenize s, tokenize u with
      | .ok ts, .ok us => .ok (ts ++ us)
      | .ok _, .error e => .error (e.behind (s.length + blanks.length) (s ++ blanks ++ u))
      | .error e, _ => .error ⟨e.fault, s ++ blanks ++ u⟩ := by
  have hne' : blanks.toList ≠ [] := by simpa using hne
  have hlist : (s ++ blanks ++ u).toList = s.toList ++ (blanks.toList ++ u.toList) := by simp
  have hlength : (s ++ blanks ++ u).length = s.length + blanks.length + u.length := by simp
  have hscan := scan_spaced hne' h s.toList u.toList
  rw [← hlist] at hscan
  unfold tokenize
  rw [hscan]
  rcases hs : scan s.toList with ⟨ts, _ | ⟨o, rest⟩⟩
  · rcases hu : scan u.toList with ⟨us, _ | ⟨o, rest⟩⟩
    · rfl
    · have hleft : rest.length ≤ u.length := by
        rw [← String.length_toList]
        exact (suffix_of_scan hu).length_le
      exact congrArg Except.error (o.error_behind_of_le hlength hleft)
  · have hleft : (s ++ blanks ++ u).length - (rest ++ (blanks.toList ++ u.toList)).length =
        s.length - rest.length := by
      simp only [hlength, List.length_append, String.length_toList]
      omega
    simp only [Obstacle.error, hleft]

/-- Blanks keep `<` and `=` apart, and the `=` is found behind them. -/
theorem tokenize_spaced_symbols :
    let blanks := "\t\u3000"
    blanks ≠ "" ∧ (∀ c ∈ blanks.toList, Text.isBlank c = true) ∧
      tokenize "a <" = .ok [.literal (.word "a"), .keyword .less] ∧
      tokenize "= 1" = .error ⟨.unknownSymbol '=' 0, "= 1"⟩ ∧
      tokenize ("a <" ++ blanks ++ "= 1") =
        .error ⟨.unknownSymbol '=' 5, "a <" ++ blanks ++ "= 1"⟩ := by
  intro blanks
  have hne : blanks ≠ "" := by decide
  have hblanks : ∀ c ∈ blanks.toList, Text.isBlank c = true := by simp [blanks]; decide
  have hfirst : tokenize "a <" = .ok [.literal (.word "a"), .keyword .less] := by decide +kernel
  have hsecond : tokenize "= 1" = .error ⟨.unknownSymbol '=' 0, "= 1"⟩ := by decide +kernel
  have hwhole := @tokenize_spaced "a <" blanks "= 1" hne hblanks
  have hlength : "a <".length + blanks.length = 5 := by decide
  simp only [hfirst, hsecond, hlength] at hwhole
  exact ⟨hne, hblanks, hfirst, hsecond, hwhole⟩

end FactQuery
