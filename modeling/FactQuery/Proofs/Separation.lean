import Mathlib
import FactQuery.Token.Lexer

/-!
# Texts in parts

A character is a *break* if no lexeme goes on with it, as blanks and closing parentheses are. A text
can be split into tokens in two parts where the second part begins with a break.

**Theorem (`scan_append`).** The tokens of the whole are those of the first part and then those of
the second part. If the first part has an obstacle, then the whole has the same obstacle and no
token of the second part is reached.
-/

namespace FactQuery

/-! ## Keywords by their characters -/

namespace Keyword

theorem ofSpelling?_eq_some_iff {text : String} {k : Keyword} :
    ofSpelling? text = some k ↔ k.spelling = text := by
  constructor
  · intro h
    simpa using List.find?_some h
  · rintro rfl
    exact ofSpelling?_spelling k

/-- The characters of a symbol of two characters, or of `in`. -/
theorem mem_of_ofSpelling?_two {c d : Char} {k : Keyword}
    (h : ofSpelling? (String.ofList [c, d]) = some k) :
    c ∈ ['&', '|', 'i', '=', '>', '<', '!'] ∧ d ∈ ['&', '|', 'n', '='] := by
  have hchars : k.spelling.toList = [c, d] := by
    rw [ofSpelling?_eq_some_iff.1 h, String.toList_ofList]
  cases k <;> simp [spelling] at hchars <;> obtain ⟨rfl, rfl⟩ := hchars <;> decide

end Keyword

/-! ## Breaks -/

/-- A character with which no number, no word and no symbol goes on. -/
structure IsBreak (c : Char) : Prop where
  number : isNumberChar c = false
  word : isWordChar c = false
  symbol : c ∉ ['&', '|', 'n', '=']

theorem IsBreak.ofSpelling?_two {c : Char} (hc : IsBreak c) (d : Char) :
    Keyword.ofSpelling? (String.ofList [d, c]) = none := by
  rw [Option.eq_none_iff_forall_ne_some]
  intro k h
  exact hc.symbol (Keyword.mem_of_ofSpelling?_two h).2

theorem isBreak_space : IsBreak ' ' := ⟨by decide, by decide, by decide⟩

theorem isBreak_closeGroup : IsBreak ')' := ⟨by decide, by decide, by decide⟩

theorem takeWhile_append_cons {p : Char → Bool} {c : Char} (hc : p c = false) (s u : List Char) :
    (s ++ c :: u).takeWhile p = s.takeWhile p := by
  induction s with
  | nil => simp [hc]
  | cons d s ih =>
    by_cases hd : p d
    · simp [hd, ih]
    · simp [hd]

theorem dropWhile_append_cons {p : Char → Bool} {c : Char} (hc : p c = false) (s u : List Char) :
    (s ++ c :: u).dropWhile p = s.dropWhile p ++ c :: u := by
  induction s with
  | nil => simp [hc]
  | cons d s ih =>
    by_cases hd : p d
    · simp [hd, ih]
    · simp [hd]

/-! ## One lexeme -/

namespace Lexeme

/-- A symbol of one character that begins no longer one is read alone. -/
theorem read_bracket {c : Char} {k : Keyword} (hblank : Text.isBlank c = false)
    (hsymbol : isSymbolChar c = true) (hlong : c ∉ ['&', '|', 'i', '=', '>', '<', '!'])
    (hk : Keyword.ofSpelling? (String.ofList [c]) = some k) (s : List Char) :
    read (c :: s) = .token (.keyword k) s := by
  have hnone : longSymbol? (c :: s) = none := by
    cases s with
    | nil => rfl
    | cons d s =>
      rw [longSymbol?, Option.eq_none_iff_forall_ne_some]
      intro k' h
      exact hlong (Keyword.mem_of_ofSpelling?_two h).1
  simp only [read, List.dropWhile_cons, hblank, Bool.false_eq_true, if_false, hsymbol, if_true,
    readSymbol, hnone, hk]

/-- The lexeme with more text behind it. At the end of its own text, the lexeme is the first one of
the text behind. -/
def followedBy (u : List Char) : Lexeme → Lexeme
  | finish => read u
  | token t rest => token t (rest ++ u)
  | obstacle o rest => obstacle o (rest ++ u)

variable {c : Char} (hc : IsBreak c)
include hc

theorem readSymbol_append (d : Char) (s u : List Char) :
    readSymbol d (s ++ c :: u) = (readSymbol d s).followedBy (c :: u) := by
  cases s with
  | nil =>
    simp only [List.nil_append, readSymbol, longSymbol?, hc.ofSpelling?_two d]
    cases Keyword.ofSpelling? (String.ofList [d]) <;> rfl
  | cons x s =>
    have hlong : longSymbol? (d :: (x :: s ++ c :: u)) = longSymbol? (d :: x :: s) := rfl
    simp only [readSymbol, hlong]
    cases longSymbol? (d :: x :: s) with
    | some k => rfl
    | none => cases Keyword.ofSpelling? (String.ofList [d]) <;> rfl

theorem readNumber_append (s u : List Char) :
    readNumber (s ++ c :: u) = (readNumber s).followedBy (c :: u) := by
  simp only [readNumber, takeWhile_append_cons hc.number, dropWhile_append_cons hc.number]
  cases number? (s.takeWhile isNumberChar) <;> rfl

theorem readWord_append (s u : List Char) :
    readWord (s ++ c :: u) = (readWord s).followedBy (c :: u) := by
  simp only [readWord, takeWhile_append_cons hc.word, dropWhile_append_cons hc.word, followedBy]

theorem read_append (s u : List Char) : read (s ++ c :: u) = (read s).followedBy (c :: u) := by
  rw [read, read, List.dropWhile_append]
  cases hs : s.dropWhile Text.isBlank with
  | nil => simp [followedBy, read]
  | cons d s =>
    simp only [List.isEmpty_cons, Bool.false_eq_true, if_false, List.cons_append]
    split
    · exact readSymbol_append hc d s u
    · split
      · exact readNumber_append hc (d :: s) u
      · split
        · exact readWord_append hc (d :: s) u
        · rfl

end Lexeme

/-! ## Whole texts -/

theorem scan_of_finish {s : List Char} (h : Lexeme.read s = .finish) : scan s = ([], none) := by
  rw [scan]
  split <;> simp_all

theorem scan_of_token {s rest : List Char} {t : Token} (h : Lexeme.read s = .token t rest) :
    scan s = (t :: (scan rest).1, (scan rest).2) := by
  rw [scan]
  split <;> simp_all

theorem scan_of_obstacle {s rest : List Char} {o : Obstacle}
    (h : Lexeme.read s = .obstacle o rest) : scan s = ([], some (o, rest)) := by
  rw [scan]
  split <;> simp_all

theorem tokenize_eq_ok_iff {source : String} {ts : List Token} :
    tokenize source = .ok ts ↔ scan source.toList = (ts, none) := by
  unfold tokenize
  split
  · next h => simp [h]
  · next h => simp [h]

theorem lex_eq_ok_iff {source : String} {ts : List Token} :
    lex source = .ok ts ↔ scan source.toList = (ts, none) ∧ adjacencyFault? ts = none := by
  rw [← tokenize_eq_ok_iff, lex]
  cases htokens : tokenize source with
  | error e => simp
  | ok us =>
    cases hfault : adjacencyFault? us with
    | none =>
      simp only [checkAdjacency, hfault, Except.ok.injEq]
      refine ⟨?_, And.left⟩
      rintro rfl
      exact ⟨rfl, hfault⟩
    | some fault =>
      simp only [checkAdjacency, hfault, reduceCtorEq, Except.ok.injEq, false_iff, not_and]
      rintro rfl
      simp [hfault]

theorem scan_of_lex {source : String} {ts : List Token} (h : lex source = .ok ts) :
    scan source.toList = (ts, none) :=
  (lex_eq_ok_iff.1 h).1

theorem scan_congr {s s' : List Char} (h : Lexeme.read s = Lexeme.read s') : scan s = scan s' := by
  cases hs : Lexeme.read s' with
  | finish => rw [scan_of_finish hs, scan_of_finish (h.trans hs)]
  | token t rest => rw [scan_of_token hs, scan_of_token (h.trans hs)]
  | obstacle o rest => rw [scan_of_obstacle hs, scan_of_obstacle (h.trans hs)]

theorem scan_blanks_append {blanks : List Char} (h : ∀ c ∈ blanks, Text.isBlank c = true)
    (s : List Char) : scan (blanks ++ s) = scan s := by
  refine scan_congr ?_
  rw [Lexeme.read, Lexeme.read, List.dropWhile_append_of_pos h]

theorem scan_cons_of_isBlank {c : Char} (hc : Text.isBlank c = true) (s : List Char) :
    scan (c :: s) = scan s := by
  have hblanks : ∀ d ∈ [c], Text.isBlank d = true := by simpa using hc
  exact scan_blanks_append hblanks s

/-- **Texts in parts.** At a break, the tokens of a text are those of its two parts, up to the first
obstacle. -/
theorem scan_append {c : Char} (hc : IsBreak c) (s u : List Char) :
    scan (s ++ c :: u) = match scan s with
      | (ts, none) => (ts ++ (scan (c :: u)).1, (scan (c :: u)).2)
      | (ts, some (o, rest)) => (ts, some (o, rest ++ c :: u)) := by
  fun_induction scan s with
  | case1 s h =>
    have hread : Lexeme.read (s ++ c :: u) = Lexeme.read (c :: u) := by
      rw [Lexeme.read_append hc, h, Lexeme.followedBy]
    rw [scan_congr hread]
    rfl
  | case2 s o rest h =>
    have hread : Lexeme.read (s ++ c :: u) = .obstacle o (rest ++ c :: u) := by
      rw [Lexeme.read_append hc, h, Lexeme.followedBy]
    rw [scan_of_obstacle hread]
  | case3 s t rest h _ tokens stop heq ih =>
    have hread : Lexeme.read (s ++ c :: u) = .token t (rest ++ c :: u) := by
      rw [Lexeme.read_append hc, h, Lexeme.followedBy]
    rw [scan_of_token hread, ih, heq]
    cases stop <;> rfl

end FactQuery
