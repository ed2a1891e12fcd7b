import FactQuery.Proofs.Numerals
import FactQuery.Proofs.Separation

/-!
# Splitting a text is segmenting it

**Lexemes** (`IsLexeme`). There are four kinds of them: symbols of two characters and of one,
numerals and words. Each is as long as it can be: what comes next does not go on with it. The kinds
share characters, since digits go on with a word, and `<` may begin `<=`. So a kind also says how
its lexemes begin.

**Segmentations** (`Segmented`). A text is segmented when it is written as lexemes with blanks
before, between and behind them, so that no character is lost.

**Theorem (`tokenize_segmentation`).** A text is split into tokens exactly if it can be segmented
into lexemes that read as these tokens, and it has one segmentation at most.

Both directions come down to a single lexeme: the reader takes a lexeme with the blanks before it
where one stands (`Lexeme.read_of_isLexeme`), and what it takes is one (`Lexeme.isLexeme_of_read`).
Which reader is at work is decided by the first character behind the blanks
(`Lexeme.read_byClass`).
-/

namespace FactQuery

/-! ## Classes of characters -/

namespace Text

theorem exists_mem_of_inRanges {n : Nat} {ranges : List (Nat × Nat)}
    (h : inRanges n ranges = true) : ∃ r ∈ ranges, r.1 ≤ n ∧ n ≤ r.2 := by
  induction ranges with
  | nil => cases h
  | cons r ranges ih =>
    rw [inRanges] at h
    split at h
    · cases h
    · next hlo =>
      rcases Bool.or_eq_true_iff.1 h with h | h
      · exact ⟨r, by simp, by omega, of_decide_eq_true h⟩
      · obtain ⟨r', hr', hn⟩ := ih h
        exact ⟨r', List.mem_cons_of_mem r hr', hn⟩

/-- The code points of the blank characters. -/
def blankCodes : List Nat := blankRanges.flatMap fun r => List.range' r.1 (r.2 + 1 - r.1)

/-- What holds of all blanks can be checked one by one. -/
theorem of_isBlank {P : Char → Bool} (h : (blankCodes.all fun n => P (Char.ofNat n)) = true)
    {c : Char} (hc : isBlank c = true) : P c = true := by
  obtain ⟨r, hr, hlo, hhi⟩ := exists_mem_of_inRanges hc
  have hcode : c.toNat ∈ blankCodes :=
    List.mem_flatMap.2 ⟨r, hr, List.mem_range'_1.2 ⟨hlo, by omega⟩⟩
  have hP := List.all_eq_true.1 h c.toNat hcode
  rwa [Char.ofNat_toNat] at hP

end Text

theorem not_isBlank {c : Char}
    (h : isSymbolChar c = true ∨ isNumberChar c = true ∨ isWordChar c = true) :
    Text.isBlank c = false := by
  rw [Bool.eq_false_iff]
  intro hblank
  have hnone := Text.of_isBlank
    (P := fun c => !isSymbolChar c && !isNumberChar c && !isWordChar c) (by decide +kernel) hblank
  simp only [Bool.and_eq_true, Bool.not_eq_true'] at hnone
  obtain ⟨⟨hs, hn⟩, hw⟩ := hnone
  rcases h with h | h | h
  · exact absurd h (by simp [hs])
  · exact absurd h (by simp [hn])
  · exact absurd h (by simp [hw])

/-- Symbols are made of characters of their own. -/
theorem not_of_isSymbolChar {c : Char} (h : isSymbolChar c = true) :
    isNumberChar c = false ∧ isWordChar c = false := by
  have hmem : c ∈ ['&', '|', '<', '>', '=', '!', '(', ')', '[', ']'] := by
    simpa [isSymbolChar] using h
  revert hmem
  simp only [List.mem_cons, List.not_mem_nil, or_false]
  rintro (rfl | rfl | rfl | rfl | rfl | rfl | rfl | rfl | rfl | rfl) <;> decide

/-- A character of words begins a word unless it is a digit. -/
theorem not_isNumberChar_of_isWordChar {c : Char} (h : isWordChar c = true)
    (hdigit : c.isDigit = false) : isNumberChar c = false := by
  rw [isNumberChar, hdigit, Bool.false_or, beq_eq_false_iff_ne]
  rintro rfl
  revert h
  decide

theorem isWordChar_of_isDigit {c : Char} (h : c.isDigit = true) : isWordChar c = true := by
  have hrange : 48 ≤ c.toNat ∧ c.toNat ≤ 57 := Char.isDigit_iff_toNat.1 h
  have hascii : c.toNat < 0x80 := by omega
  simp [isWordChar, Text.isAlphanumeric, hascii, Char.isAlphanum, h]

/-! ## Lexemes -/

def longSymbols : List Keyword :=
  [.conjunction, .disjunction, .equal, .atLeast, .atMost, .notEqual]

def shortSymbols : List Keyword :=
  [.openGroup, .closeGroup, .openList, .closeList, .greater, .less]

/-- The token that a run of word characters is read as: one of the two reserved words, or a word. -/
def wordReading (run : List Char) : Token :=
  if run = "where".toList then .keyword .filter
  else if run = "in".toList then .keyword .membership
  else .literal (.word (String.ofList run))

/-- A lexeme, the character that comes next and the token that the lexeme is read as. -/
inductive IsLexeme : List Char → Option Char → Token → Prop
  | longSymbol {k : Keyword} (hk : k ∈ longSymbols) (next : Option Char) :
      IsLexeme k.spelling.toList next (.keyword k)
  | shortSymbol {k : Keyword} (hk : k ∈ shortSymbols) {next : Option Char}
      (hnext : ∀ c ∈ next, ∀ k' : Keyword, k'.spelling.toList ≠ k.spelling.toList ++ [c]) :
      IsLexeme k.spelling.toList next (.keyword k)
  | numeral {run : List Char} (hrun : Lexeme.IsNumeral run) {next : Option Char}
      (hnext : ∀ c ∈ next, isNumberChar c = false) :
      IsLexeme run next (.literal (Lexeme.numberReading run))
  | word {run : List Char} (hne : run ≠ []) (hrun : ∀ c ∈ run, isWordChar c = true)
      (hfirst : ∀ c ∈ run.head?, c.isDigit = false) {next : Option Char}
      (hnext : ∀ c ∈ next, isWordChar c = false) :
      IsLexeme run next (wordReading run)

namespace Lexeme

/-- What the reader does with a text: behind blanks the first character decides. -/
inductive ByClass : List Char → Lexeme → Prop
  | finish {blanks : List Char} (hblanks : ∀ d ∈ blanks, Text.isBlank d = true) :
      ByClass blanks .finish
  | symbol {blanks tail : List Char} {c : Char} (hblanks : ∀ d ∈ blanks, Text.isBlank d = true)
      (hc : isSymbolChar c = true) : ByClass (blanks ++ c :: tail) (readSymbol c tail)
  | number {blanks tail : List Char} {c : Char} (hblanks : ∀ d ∈ blanks, Text.isBlank d = true)
      (hc : isNumberChar c = true) : ByClass (blanks ++ c :: tail) (readNumber (c :: tail))
  | word {blanks tail : List Char} {c : Char} (hblanks : ∀ d ∈ blanks, Text.isBlank d = true)
      (hc : isWordChar c = true) (hdigit : c.isDigit = false) :
      ByClass (blanks ++ c :: tail) (readWord (c :: tail))
  | invalid {blanks tail : List Char} {c : Char} (hblanks : ∀ d ∈ blanks, Text.isBlank d = true)
      (hblank : Text.isBlank c = false) (hsymbol : isSymbolChar c = false)
      (hnumber : isNumberChar c = false) (hword : isWordChar c = false) :
      ByClass (blanks ++ c :: tail) (.obstacle (.invalidCharacter c) (c :: tail))

theorem read_byClass (s : List Char) : ByClass s (read s) := by
  have hsplit : s.takeWhile Text.isBlank ++ s.dropWhile Text.isBlank = s :=
    List.takeWhile_append_dropWhile
  have hblanks : ∀ d ∈ s.takeWhile Text.isBlank, Text.isBlank d = true :=
    fun d hd => List.mem_takeWhile_imp hd
  rw [read]
  split
  · next hdrop => exact .finish (List.dropWhile_eq_nil_iff.1 hdrop)
  · next c tail hdrop =>
    have hblank : Text.isBlank c = false :=
      not_of_mem_head?_dropWhile (l := s) (by rw [hdrop]; rfl)
    rw [hdrop] at hsplit
    rw [← hsplit]
    split
    · next hsymbol => exact .symbol hblanks hsymbol
    · next hsymbol =>
      split
      · next hnumber => exact .number hblanks hnumber
      · next hnumber =>
        split
        · next hword =>
          have hdigit : c.isDigit = false := by
            rw [Bool.eq_false_iff]
            exact fun hd => hnumber (isNumberChar_of_isDigit hd)
          exact .word hblanks hword hdigit
        · next hword =>
          exact .invalid hblanks hblank (Bool.eq_false_iff.2 hsymbol)
            (Bool.eq_false_iff.2 hnumber) (Bool.eq_false_iff.2 hword)

/-! ### Symbols -/

theorem exists_of_mem_longSymbols {k : Keyword} (h : k ∈ longSymbols) :
    ∃ c d, k.spelling.toList = [c, d] ∧ isSymbolChar c = true := by
  revert k
  simp only [longSymbols, List.mem_cons, List.not_mem_nil, or_false]
  rintro k (rfl | rfl | rfl | rfl | rfl | rfl) <;> exact ⟨_, _, rfl, by decide⟩

theorem exists_of_mem_shortSymbols {k : Keyword} (h : k ∈ shortSymbols) :
    ∃ c, k.spelling.toList = [c] ∧ isSymbolChar c = true := by
  revert k
  simp only [shortSymbols, List.mem_cons, List.not_mem_nil, or_false]
  rintro k (rfl | rfl | rfl | rfl | rfl | rfl) <;> exact ⟨_, rfl, by decide⟩

theorem ofSpelling?_ofList_eq_some_iff {run : List Char} {k : Keyword} :
    Keyword.ofSpelling? (String.ofList run) = some k ↔ k.spelling.toList = run := by
  rw [Keyword.ofSpelling?_eq_some_iff, ← String.toList_inj, String.toList_ofList]

/-- Two characters, the first one a symbol character, are a keyword only as a symbol. -/
theorem mem_longSymbols {k : Keyword} {c d : Char} (h : k.spelling.toList = [c, d])
    (hc : isSymbolChar c = true) : k ∈ longSymbols := by
  cases k <;> simp [Keyword.spelling] at h <;> obtain ⟨rfl, rfl⟩ := h <;> revert hc <;> decide

theorem mem_shortSymbols {k : Keyword} {c : Char} (h : k.spelling.toList = [c]) :
    k ∈ shortSymbols := by
  cases k <;> simp [Keyword.spelling] at h <;> decide

theorem longSymbol?_eq_some_iff {c : Char} {tail : List Char} {k : Keyword} :
    longSymbol? (c :: tail) = some k ↔ ∃ d, tail.head? = some d ∧ k.spelling.toList = [c, d] := by
  cases tail with
  | nil => simp [longSymbol?]
  | cons d tail =>
    rw [longSymbol?, ofSpelling?_ofList_eq_some_iff]
    simp

theorem longSymbol?_eq_none_iff {c : Char} {tail : List Char} :
    longSymbol? (c :: tail) = none ↔
      ∀ d ∈ tail.head?, ∀ k : Keyword, k.spelling.toList ≠ [c, d] := by
  rw [Option.eq_none_iff_forall_ne_some]
  refine ⟨fun h d hd k hk => h k (longSymbol?_eq_some_iff.2 ⟨d, hd, hk⟩), fun h k hk => ?_⟩
  obtain ⟨d, hd, hspell⟩ := longSymbol?_eq_some_iff.1 hk
  exact h d hd k hspell

theorem isLexeme_of_readSymbol {c : Char} {tail rest : List Char} {t : Token}
    (hc : isSymbolChar c = true) (h : readSymbol c tail = .token t rest) :
    ∃ run, c :: tail = run ++ rest ∧ IsLexeme run rest.head? t := by
  rw [readSymbol] at h
  split at h
  · next k hlong =>
    cases h
    obtain ⟨d, hd, hspell⟩ := longSymbol?_eq_some_iff.1 hlong
    obtain ⟨rest, rfl⟩ := List.head?_eq_some_iff.1 hd
    refine ⟨k.spelling.toList, by simp [hspell], .longSymbol (mem_longSymbols hspell hc) _⟩
  · next hlong =>
    split at h
    · next k hshort =>
      cases h
      have hspell := ofSpelling?_ofList_eq_some_iff.1 hshort
      refine ⟨k.spelling.toList, by simp [hspell], .shortSymbol (mem_shortSymbols hspell) ?_⟩
      rw [hspell]
      exact longSymbol?_eq_none_iff.1 hlong
    · cases h

/-! ### Words -/

theorem word_keyword {run : List Char} (hrun : ∀ c ∈ run, isWordChar c = true) {k : Keyword}
    (hk : k.spelling.toList = run) : k = .filter ∨ k = .membership := by
  subst hk
  revert hrun
  cases k <;> simp [Keyword.spelling] <;> decide

/-- Of the keywords, just the reserved words are made of word characters. -/
theorem wordToken_eq {run : List Char} (hrun : ∀ c ∈ run, isWordChar c = true) :
    wordToken run = wordReading run := by
  rw [wordToken, wordReading]
  split
  · next k hk =>
    have hspell := ofSpelling?_ofList_eq_some_iff.1 hk
    rcases word_keyword hrun hspell with rfl | rfl
    · have hwhere : run = "where".toList := hspell.symm
      rw [if_pos hwhere]
    · have hin : run = "in".toList := hspell.symm
      have hwhere : run ≠ "where".toList := by
        rw [hin]
        decide
      rw [if_neg hwhere, if_pos hin]
  · next hnone =>
    have hne (k : Keyword) : run ≠ k.spelling.toList := by
      intro hrun
      have hsome := ofSpelling?_ofList_eq_some_iff.2 hrun.symm
      rw [hnone] at hsome
      cases hsome
    have hwhere : run ≠ "where".toList := hne .filter
    have hin : run ≠ "in".toList := hne .membership
    rw [if_neg hwhere, if_neg hin]

/-! ### What is read is a lexeme -/

theorem isLexeme_of_readNumber {c : Char} {tail rest : List Char} {t : Token}
    (hc : isNumberChar c = true) (h : readNumber (c :: tail) = .token t rest) :
    ∃ run, c :: tail = run ++ rest ∧ IsLexeme run rest.head? t := by
  simp only [readNumber] at h
  split at h
  · next l hnumber =>
    cases h
    have hchars : ∀ d ∈ (c :: tail).takeWhile isNumberChar, isNumberChar d = true :=
      fun d hd => List.mem_takeWhile_imp hd
    have hne : (c :: tail).takeWhile isNumberChar ≠ [] := by simp [hc]
    obtain ⟨hnumeral, rfl⟩ := (number?_eq_some_iff hchars hne).1 hnumber
    refine ⟨_, List.takeWhile_append_dropWhile.symm, .numeral hnumeral ?_⟩
    exact fun d hd => not_of_mem_head?_dropWhile hd
  · cases h

theorem isLexeme_of_readWord {c : Char} {tail rest : List Char} {t : Token}
    (hc : isWordChar c = true) (hdigit : c.isDigit = false)
    (h : readWord (c :: tail) = .token t rest) :
    ∃ run, c :: tail = run ++ rest ∧ IsLexeme run rest.head? t := by
  rw [readWord] at h
  cases h
  have hchars : ∀ d ∈ (c :: tail).takeWhile isWordChar, isWordChar d = true :=
    fun d hd => List.mem_takeWhile_imp hd
  have htake : (c :: tail).takeWhile isWordChar = c :: tail.takeWhile isWordChar :=
    List.takeWhile_cons_of_pos hc
  refine ⟨_, List.takeWhile_append_dropWhile.symm, ?_⟩
  rw [wordToken_eq hchars]
  refine .word (by simp [htake]) hchars (by simp [htake, hdigit]) ?_
  exact fun d hd => not_of_mem_head?_dropWhile hd

/-- **What is read is a lexeme**, behind blanks. -/
theorem isLexeme_of_read {s rest : List Char} {t : Token} (h : read s = .token t rest) :
    ∃ blanks run, s = blanks ++ (run ++ rest) ∧ (∀ c ∈ blanks, Text.isBlank c = true) ∧
      IsLexeme run rest.head? t := by
  have hclass := read_byClass s
  generalize read s = l at h hclass
  cases hclass with
  | finish => cases h
  | symbol hblanks hc =>
    obtain ⟨run, hsplit, hrun⟩ := isLexeme_of_readSymbol hc h
    exact ⟨_, run, congrArg _ hsplit, hblanks, hrun⟩
  | number hblanks hc =>
    obtain ⟨run, hsplit, hrun⟩ := isLexeme_of_readNumber hc h
    exact ⟨_, run, congrArg _ hsplit, hblanks, hrun⟩
  | word hblanks hc hdigit =>
    obtain ⟨run, hsplit, hrun⟩ := isLexeme_of_readWord hc hdigit h
    exact ⟨_, run, congrArg _ hsplit, hblanks, hrun⟩
  | invalid => cases h

theorem readSymbol_ne_finish (c : Char) (tail : List Char) : readSymbol c tail ≠ .finish := by
  rw [readSymbol]
  split
  · simp
  · split <;> simp

theorem readNumber_ne_finish (s : List Char) : readNumber s ≠ .finish := by
  simp only [readNumber]
  split <;> simp

theorem read_eq_finish_iff {s : List Char} :
    read s = .finish ↔ ∀ c ∈ s, Text.isBlank c = true := by
  refine ⟨fun h => ?_, fun h => ?_⟩
  · have hclass := read_byClass s
    generalize read s = l at h hclass
    cases hclass with
    | finish hblanks => exact hblanks
    | symbol => exact absurd h (readSymbol_ne_finish _ _)
    | number => exact absurd h (readNumber_ne_finish _)
    | word => cases h
    | invalid => cases h
  · rw [read, List.dropWhile_eq_nil_iff.2 h]

/-! ### A lexeme is read -/

theorem exists_cons_of_isLexeme {run : List Char} {next : Option Char} {t : Token}
    (h : IsLexeme run next t) : ∃ c tail, run = c :: tail ∧ Text.isBlank c = false := by
  cases h with
  | longSymbol hk =>
    obtain ⟨c, d, hspell, hc⟩ := exists_of_mem_longSymbols hk
    exact ⟨c, [d], hspell, not_isBlank (.inl hc)⟩
  | shortSymbol hk =>
    obtain ⟨c, hspell, hc⟩ := exists_of_mem_shortSymbols hk
    exact ⟨c, [], hspell, not_isBlank (.inl hc)⟩
  | numeral hrun =>
    obtain ⟨c, tail, rfl⟩ := List.exists_cons_of_ne_nil hrun.ne_nil
    exact ⟨c, tail, rfl, not_isBlank (.inr (.inl (hrun.chars c (by simp))))⟩
  | word hne hrun =>
    obtain ⟨c, tail, rfl⟩ := List.exists_cons_of_ne_nil hne
    exact ⟨c, tail, rfl, not_isBlank (.inr (.inr (hrun c (by simp))))⟩

theorem readSymbol_long {k : Keyword} {c d : Char} (h : k.spelling.toList = [c, d])
    (rest : List Char) : readSymbol c (d :: rest) = .token (.keyword k) rest := by
  have hlong : longSymbol? (c :: d :: rest) = some k := longSymbol?_eq_some_iff.2 ⟨d, rfl, h⟩
  rw [readSymbol, hlong]
  rfl

theorem readSymbol_short {k : Keyword} {c : Char} {rest : List Char}
    (h : k.spelling.toList = [c])
    (hnext : ∀ d ∈ rest.head?, ∀ k' : Keyword, k'.spelling.toList ≠ [c, d]) :
    readSymbol c rest = .token (.keyword k) rest := by
  have hlong : longSymbol? (c :: rest) = none := longSymbol?_eq_none_iff.2 hnext
  have hshort : Keyword.ofSpelling? (String.ofList [c]) = some k :=
    ofSpelling?_ofList_eq_some_iff.2 h
  simp only [readSymbol, hlong, hshort]

theorem readNumber_numeral {run rest : List Char} (hrun : IsNumeral run)
    (hnext : ∀ c ∈ rest.head?, isNumberChar c = false) :
    readNumber (run ++ rest) = .token (.literal (numberReading run)) rest := by
  have hnumber : number? run = some (numberReading run) :=
    (number?_eq_some_iff hrun.chars hrun.ne_nil).2 ⟨hrun, rfl⟩
  simp only [readNumber, takeWhile_run hrun.chars hnext, dropWhile_run hrun.chars hnext, hnumber]

theorem readWord_run {run rest : List Char} (hrun : ∀ c ∈ run, isWordChar c = true)
    (hnext : ∀ c ∈ rest.head?, isWordChar c = false) :
    readWord (run ++ rest) = .token (wordReading run) rest := by
  rw [readWord, takeWhile_run hrun hnext, dropWhile_run hrun hnext, wordToken_eq hrun]

section
variable {blanks tail : List Char} {c : Char} (hblanks : ∀ d ∈ blanks, Text.isBlank d = true)
include hblanks

theorem read_symbol (hc : isSymbolChar c = true) :
    read (blanks ++ c :: tail) = readSymbol c tail := by
  have hdrop : (blanks ++ c :: tail).dropWhile Text.isBlank = c :: tail :=
    dropWhile_run hblanks (by simp [not_isBlank (.inl hc)])
  simp only [read, hdrop, if_pos hc]

theorem read_number (hc : isNumberChar c = true) :
    read (blanks ++ c :: tail) = readNumber (c :: tail) := by
  have hdrop : (blanks ++ c :: tail).dropWhile Text.isBlank = c :: tail :=
    dropWhile_run hblanks (by simp [not_isBlank (.inr (.inl hc))])
  have hsymbol : isSymbolChar c ≠ true := fun hs => by simp [not_of_isSymbolChar hs] at hc
  simp only [read, hdrop, if_neg hsymbol, if_pos hc]

theorem read_word (hc : isWordChar c = true) (hdigit : c.isDigit = false) :
    read (blanks ++ c :: tail) = readWord (c :: tail) := by
  have hdrop : (blanks ++ c :: tail).dropWhile Text.isBlank = c :: tail :=
    dropWhile_run hblanks (by simp [not_isBlank (.inr (.inr hc))])
  have hsymbol : isSymbolChar c ≠ true := fun hs => by simp [not_of_isSymbolChar hs] at hc
  have hnumber : isNumberChar c ≠ true := by
    rw [not_isNumberChar_of_isWordChar hc hdigit]
    decide
  simp only [read, hdrop, if_neg hsymbol, if_neg hnumber, if_pos hc]

end

/-- **A lexeme is read** where it stands behind blanks. -/
theorem read_of_isLexeme {blanks run rest : List Char} {t : Token}
    (hblanks : ∀ c ∈ blanks, Text.isBlank c = true) (h : IsLexeme run rest.head? t) :
    read (blanks ++ (run ++ rest)) = .token t rest := by
  generalize hhead : rest.head? = next at h
  cases h with
  | longSymbol hk =>
    obtain ⟨c, d, hspell, hc⟩ := exists_of_mem_longSymbols hk
    rw [hspell]
    exact (read_symbol hblanks hc).trans (readSymbol_long hspell rest)
  | shortSymbol hk hnext =>
    obtain ⟨c, hspell, hc⟩ := exists_of_mem_shortSymbols hk
    subst hhead
    rw [hspell] at hnext ⊢
    exact (read_symbol hblanks hc).trans (readSymbol_short hspell hnext)
  | numeral hrun hnext =>
    subst hhead
    rw [← readNumber_numeral hrun hnext]
    obtain ⟨c, tail, rfl⟩ := List.exists_cons_of_ne_nil hrun.ne_nil
    exact read_number hblanks (hrun.chars c (by simp))
  | word hne hrun hfirst hnext =>
    subst hhead
    rw [← readWord_run hrun hnext]
    obtain ⟨c, tail, rfl⟩ := List.exists_cons_of_ne_nil hne
    exact read_word hblanks (hrun c (by simp)) (hfirst c rfl)

end Lexeme

theorem scan_lexeme {run : List Char} {t : Token} (h : IsLexeme run none t) :
    scan run = ([t], none) := by
  have hnil : ∀ c ∈ ([] : List Char), Text.isBlank c = true := nofun
  have hread : Lexeme.read ([] ++ (run ++ [])) = .token t [] := Lexeme.read_of_isLexeme hnil h
  rw [List.nil_append, List.append_nil] at hread
  rw [scan_of_token hread, scan_of_finish (Lexeme.read_eq_finish_iff.2 hnil)]

/-! ## Texts -/

/-- A lexeme and the blanks before it. -/
structure Piece where
  blanks : List Char
  run : List Char

/-- The text is written in these pieces, with blanks behind the last one, and the lexemes of the
pieces read as these tokens. -/
inductive Segmented : List Char → List Piece → List Token → Prop
  | finish {blanks : List Char} (hblanks : ∀ c ∈ blanks, Text.isBlank c = true) :
      Segmented blanks [] []
  | lexeme {p : Piece} {rest : List Char} {t : Token} {ps : List Piece} {ts : List Token}
      (hblanks : ∀ c ∈ p.blanks, Text.isBlank c = true) (hrun : IsLexeme p.run rest.head? t)
      (h : Segmented rest ps ts) : Segmented (p.blanks ++ (p.run ++ rest)) (p :: ps) (t :: ts)

theorem Segmented.scan_eq {s : List Char} {ps : List Piece} {ts : List Token}
    (h : Segmented s ps ts) : scan s = (ts, none) := by
  induction h with
  | finish hblanks => exact scan_of_finish (Lexeme.read_eq_finish_iff.2 hblanks)
  | lexeme hblanks hrun _ ih => rw [scan_of_token (Lexeme.read_of_isLexeme hblanks hrun), ih]

theorem exists_segmented_of_scan {s : List Char} {ts : List Token} (h : scan s = (ts, none)) :
    ∃ ps, Segmented s ps ts := by
  fun_induction scan s generalizing ts with
  | case1 s hread =>
    cases h
    exact ⟨[], .finish (Lexeme.read_eq_finish_iff.1 hread)⟩
  | case2 s o rest hread => cases h
  | case3 s t rest hread _ tokens stop heq ih =>
    cases h
    obtain ⟨ps, hps⟩ := ih heq
    obtain ⟨blanks, run, rfl, hblanks, hrun⟩ := Lexeme.isLexeme_of_read hread
    exact ⟨⟨blanks, run⟩ :: ps, .lexeme (p := ⟨blanks, run⟩) hblanks hrun hps⟩

/-- A lexeme takes the blanks before it and no more. -/
theorem Segmented.takeWhile_blanks {p : Piece} {rest : List Char} {t : Token}
    (hblanks : ∀ c ∈ p.blanks, Text.isBlank c = true) (hrun : IsLexeme p.run rest.head? t) :
    (p.blanks ++ (p.run ++ rest)).takeWhile Text.isBlank = p.blanks := by
  obtain ⟨c, tail, hcons, hc⟩ := Lexeme.exists_cons_of_isLexeme hrun
  refine takeWhile_run hblanks ?_
  simp [hcons, hc]

/-- **A text has one segmentation at most.** -/
theorem Segmented.unique {s : List Char} {ps ps' : List Piece} {ts ts' : List Token}
    (h : Segmented s ps ts) (h' : Segmented s ps' ts') : ps = ps' ∧ ts = ts' := by
  induction h generalizing ps' ts' with
  | finish hblanks =>
    have hread := Lexeme.read_eq_finish_iff.2 hblanks
    cases h' with
    | finish => exact ⟨rfl, rfl⟩
    | lexeme hblanks' hrun' =>
      rw [Lexeme.read_of_isLexeme hblanks' hrun'] at hread
      cases hread
  | @lexeme p rest t ps ts hblanks hrun h ih =>
    have hread := Lexeme.read_of_isLexeme hblanks hrun
    have htake := takeWhile_blanks hblanks hrun
    generalize hs : p.blanks ++ (p.run ++ rest) = s at h' hread htake
    cases h' with
    | finish hblanks' =>
      rw [Lexeme.read_eq_finish_iff.2 hblanks'] at hread
      cases hread
    | @lexeme p' rest' t' ps' ts' hblanks' hrun' h' =>
      rw [Lexeme.read_of_isLexeme hblanks' hrun'] at hread
      rw [takeWhile_blanks hblanks' hrun'] at htake
      cases hread
      obtain ⟨rfl, rfl⟩ := ih h'
      -- The blanks, the token and what is behind agree, and so does the run between them.
      obtain ⟨blanks, run⟩ := p
      obtain ⟨blanks', run'⟩ := p'
      cases htake
      obtain rfl : run = run' := by simpa using hs
      exact ⟨rfl, rfl⟩

/-- **Splitting is segmenting.** A text is split into tokens exactly if it is written in lexemes
that read as these tokens, with blanks around them, and it can be so written in one way only. -/
theorem tokenize_segmentation (source : String) :
    (∀ ts, tokenize source = .ok ts ↔ ∃ ps, Segmented source.toList ps ts) ∧
    ∀ ps ps' ts ts', Segmented source.toList ps ts → Segmented source.toList ps' ts' →
      ps = ps' ∧ ts = ts' := by
  refine ⟨fun ts => ?_, fun ps ps' ts ts' h h' => h.unique h'⟩
  rw [tokenize_eq_ok_iff]
  refine ⟨exists_segmented_of_scan, fun h => ?_⟩
  obtain ⟨ps, hps⟩ := h
  exact hps.scan_eq

/-- Digits go on with a word and end before one, `<` goes on to `<=`, and `in` is a reserved word.
-/
theorem tokenize_segmentation_touching :
    let source := "b1<=25-x in"
    let pieces : List Piece :=
      [⟨[], ['b', '1']⟩, ⟨[], ['<', '=']⟩, ⟨[], ['2', '5']⟩, ⟨[], ['-', 'x']⟩, ⟨[' '], ['i', 'n']⟩]
    let tokens : List Token :=
      [.literal (.word "b1"), .keyword .atMost, .literal (.integer 25), .literal (.word "-x"),
       .keyword .membership]
    Segmented source.toList pieces tokens ∧ tokenize source = .ok tokens ∧
      ∀ ps ts, Segmented source.toList ps ts → ps = pieces ∧ ts = tokens := by
  intro source pieces tokens
  obtain ⟨hiff, hunique⟩ := tokenize_segmentation source
  have htokens : tokenize source = .ok tokens := by decide +kernel
  have hb : IsLexeme ['b', '1'] (some '<') (.literal (.word "b1")) :=
    .word (by simp) (by simp; decide) (by simp) (by simp; decide)
  have hle : IsLexeme ['<', '='] (some '2') (.keyword .atMost) :=
    .longSymbol (k := .atMost) (by decide) _
  have h25 : IsLexeme ['2', '5'] (some '-') (.literal (.integer 25)) :=
    .numeral ⟨by simp; decide, by simp, by decide⟩ (by simp; decide)
  have hx : IsLexeme ['-', 'x'] (some ' ') (.literal (.word "-x")) :=
    .word (by simp) (by simp; decide) (by simp) (by simp; decide)
  have hin : IsLexeme ['i', 'n'] none (.keyword .membership) :=
    .word (by simp) (by simp; decide) (by simp) (by simp)
  have hnil : ∀ c ∈ ([] : List Char), Text.isBlank c = true := by simp
  have hblank : ∀ c ∈ [' '], Text.isBlank c = true := by simp; decide
  have hlast := @Segmented.lexeme ⟨[' '], ['i', 'n']⟩ [] _ _ _ hblank hin (.finish hnil)
  have hx := @Segmented.lexeme ⟨[], ['-', 'x']⟩ " in".toList _ _ _ hnil hx hlast
  have h25 := @Segmented.lexeme ⟨[], ['2', '5']⟩ "-x in".toList _ _ _ hnil h25 hx
  have hle := @Segmented.lexeme ⟨[], ['<', '=']⟩ "25-x in".toList _ _ _ hnil hle h25
  have hpieces : Segmented source.toList pieces tokens := by
    have hsource : source.toList = 'b' :: '1' :: "<=25-x in".toList := by decide
    rw [hsource]
    exact @Segmented.lexeme ⟨[], ['b', '1']⟩ "<=25-x in".toList _ _ _ hnil hb hle
  exact ⟨hpieces, htokens, fun ps ts h => hunique ps pieces ts tokens h hpieces⟩

end FactQuery
