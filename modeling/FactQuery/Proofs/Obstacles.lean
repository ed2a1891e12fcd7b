import FactQuery.Proofs.Segmentation

/-!
# Where splitting stops

**Obstacles** (`IsObstacle`). In the place of a lexeme there can be a character of no class, a
symbol character that is no keyword, alone or with the next one, or a run of digits and points that
is no numeral.

**Boundaries** (`SegmentedBefore`). A text can be split up to a boundary when the part before it is
written in lexemes, the last of which does not go on behind the boundary. So digits and points
inside a word stand at no boundary.

**Theorem (`tokenize_error`).** An error in a text names the obstacle at the first boundary where
one stands: what is before can be split, and what is behind the next character does not matter.

The reader stops at an obstacle and only there (`scan_eq_obstacle_iff`). A lexeme is still one when
the text is cut right after it (`IsLexeme.atEnd`), so the part before a boundary is a text that can
be split alone (`SegmentedBefore.tokenize_eq_ok`).
-/

namespace FactQuery

/-! ## Obstacles -/

/-- The characters of symbols that are no keyword alone. -/
def partialSymbols : List Char := ['&', '|', '=', '!']

/-- What stands at the beginning of a text where no lexeme does, and the text to go on with. -/
inductive IsObstacle : List Char → Obstacle → List Char → Prop
  | character {c : Char} (hblank : Text.isBlank c = false) (hsymbol : isSymbolChar c = false)
      (hnumber : isNumberChar c = false) (hword : isWordChar c = false) (tail : List Char) :
      IsObstacle (c :: tail) (.invalidCharacter c) (c :: tail)
  | symbol {c : Char} (hc : c ∈ partialSymbols) {tail : List Char}
      (hnext : ∀ d ∈ tail.head?, ∀ k : Keyword, k.spelling.toList ≠ [c, d]) :
      IsObstacle (c :: tail) (.unknownSymbol c) (c :: tail)
  | numeral {run : List Char} (hne : run ≠ []) (hrun : ∀ c ∈ run, isNumberChar c = true)
      (h : ¬ Lexeme.IsNumeral run) {rest : List Char}
      (hrest : ∀ c ∈ rest.head?, isNumberChar c = false) :
      IsObstacle (run ++ rest) (.invalidNumber (String.ofList run)) rest

theorem mem_partialSymbols_iff {c : Char} :
    c ∈ partialSymbols ↔
      isSymbolChar c = true ∧ Keyword.ofSpelling? (String.ofList [c]) = none := by
  refine ⟨?_, fun h => ?_⟩
  · simp only [partialSymbols, List.mem_cons, List.not_mem_nil, or_false]
    rintro (rfl | rfl | rfl | rfl) <;> decide
  · obtain ⟨hsymbol, hnone⟩ := h
    have hmem : c ∈ ['&', '|', '<', '>', '=', '!', '(', ')', '[', ']'] := by
      simpa [isSymbolChar] using hsymbol
    revert hnone
    simp only [List.mem_cons, List.not_mem_nil, or_false] at hmem
    rcases hmem with rfl | rfl | rfl | rfl | rfl | rfl | rfl | rfl | rfl | rfl <;> decide

namespace Lexeme

/-! ### What stops the reader is an obstacle -/

theorem isObstacle_of_readSymbol {c : Char} {tail rest : List Char} {o : Obstacle}
    (hc : isSymbolChar c = true) (h : readSymbol c tail = .obstacle o rest) :
    IsObstacle (c :: tail) o rest := by
  rw [readSymbol] at h
  split at h
  · cases h
  · next hlong =>
    split at h
    · cases h
    · next hshort =>
      cases h
      exact .symbol (mem_partialSymbols_iff.2 ⟨hc, hshort⟩) (longSymbol?_eq_none_iff.1 hlong)

theorem isObstacle_of_readNumber {c : Char} {tail rest : List Char} {o : Obstacle}
    (hc : isNumberChar c = true) (h : readNumber (c :: tail) = .obstacle o rest) :
    IsObstacle (c :: tail) o rest := by
  simp only [readNumber] at h
  split at h
  · cases h
  · next hnumber =>
    cases h
    have hchars : ∀ d ∈ (c :: tail).takeWhile isNumberChar, isNumberChar d = true :=
      fun d hd => List.mem_takeWhile_imp hd
    have hne : (c :: tail).takeWhile isNumberChar ≠ [] := by simp [hc]
    have hnot : ¬ IsNumeral ((c :: tail).takeWhile isNumberChar) := by
      intro hnumeral
      rw [(number?_eq_some_iff hchars hne).2 ⟨hnumeral, rfl⟩] at hnumber
      cases hnumber
    have hobstacle : IsObstacle
        ((c :: tail).takeWhile isNumberChar ++ (c :: tail).dropWhile isNumberChar) _ _ :=
      .numeral hne hchars hnot fun d hd => not_of_mem_head?_dropWhile hd
    rwa [List.takeWhile_append_dropWhile] at hobstacle

/-- **What stops the reader is an obstacle**, behind blanks. -/
theorem isObstacle_of_read {s rest : List Char} {o : Obstacle} (h : read s = .obstacle o rest) :
    ∃ blanks behind, s = blanks ++ behind ∧ (∀ c ∈ blanks, Text.isBlank c = true) ∧
      IsObstacle behind o rest := by
  have hclass := read_byClass s
  generalize read s = l at h hclass
  cases hclass with
  | finish => cases h
  | symbol hblanks hc => exact ⟨_, _, rfl, hblanks, isObstacle_of_readSymbol hc h⟩
  | number hblanks hc => exact ⟨_, _, rfl, hblanks, isObstacle_of_readNumber hc h⟩
  | word => cases h
  | invalid hblanks hblank hsymbol hnumber hword =>
    cases h
    exact ⟨_, _, rfl, hblanks, .character hblank hsymbol hnumber hword _⟩

/-! ### An obstacle stops the reader -/

/-- **An obstacle stops the reader** where it stands behind blanks. -/
theorem read_of_isObstacle {blanks behind rest : List Char} {o : Obstacle}
    (hblanks : ∀ c ∈ blanks, Text.isBlank c = true) (h : IsObstacle behind o rest) :
    read (blanks ++ behind) = .obstacle o rest := by
  cases h with
  | @character c hblank hsymbol hnumber hword tail =>
    have hdrop : (blanks ++ c :: tail).dropWhile Text.isBlank = c :: tail :=
      dropWhile_run hblanks (by simp [hblank])
    simp [read, hdrop, hsymbol, hnumber, hword]
  | symbol hc hnext =>
    obtain ⟨hsymbol, hshort⟩ := mem_partialSymbols_iff.1 hc
    rw [read_symbol hblanks hsymbol]
    simp only [readSymbol, longSymbol?_eq_none_iff.2 hnext, hshort]
  | @numeral run hne hrun hnot rest hrest =>
    have hnumber : number? run = none := by
      rw [Option.eq_none_iff_forall_ne_some]
      intro l hl
      exact hnot ((number?_eq_some_iff hrun hne).1 hl).1
    have hread : readNumber (run ++ rest) =
        .obstacle (.invalidNumber (String.ofList run)) rest := by
      simp only [readNumber, takeWhile_run hrun hrest, dropWhile_run hrun hrest, hnumber]
    rw [← hread]
    obtain ⟨c, tail, rfl⟩ := List.exists_cons_of_ne_nil hne
    exact read_number hblanks (hrun c (by simp))

end Lexeme

theorem scan_of_isObstacle {behind rest : List Char} {o : Obstacle}
    (h : IsObstacle behind o rest) : scan behind = ([], some (o, rest)) := by
  have hnil : ∀ c ∈ ([] : List Char), Text.isBlank c = true := nofun
  exact scan_of_obstacle (Lexeme.read_of_isObstacle hnil h)

theorem IsObstacle.suffix {behind rest : List Char} {o : Obstacle}
    (h : IsObstacle behind o rest) : rest <:+ behind := by
  cases h with
  | character | symbol => exact List.suffix_rfl
  | numeral => exact List.suffix_append _ _

/-! ## Boundaries -/

theorem IsLexeme.atEnd {run : List Char} {next : Option Char} {t : Token}
    (h : IsLexeme run next t) : IsLexeme run none t := by
  cases h with
  | longSymbol hk => exact .longSymbol hk none
  | shortSymbol hk => exact .shortSymbol hk nofun
  | numeral hrun => exact .numeral hrun nofun
  | word hne hrun hfirst => exact .word hne hrun hfirst nofun

/-- The text before a boundary is written in lexemes that read as these tokens, with blanks before,
between and behind them. -/
inductive SegmentedBefore (behind : List Char) : List Char → List Token → Prop
  | finish {blanks : List Char} (hblanks : ∀ c ∈ blanks, Text.isBlank c = true) :
      SegmentedBefore behind blanks []
  | lexeme {blanks run before : List Char} {t : Token} {ts : List Token}
      (hblanks : ∀ c ∈ blanks, Text.isBlank c = true)
      (hrun : IsLexeme run (before ++ behind).head? t) (h : SegmentedBefore behind before ts) :
      SegmentedBefore behind (blanks ++ (run ++ before)) (t :: ts)

namespace SegmentedBefore

variable {behind before : List Char} {ts : List Token}

/-- Of what is behind a boundary, only the first character counts. -/
theorem congr {behind' : List Char} (hhead : behind.head? = behind'.head?)
    (h : SegmentedBefore behind before ts) : SegmentedBefore behind' before ts := by
  induction h with
  | finish hblanks => exact .finish hblanks
  | lexeme hblanks hrun _ ih =>
    rw [List.head?_append, hhead, ← List.head?_append] at hrun
    exact .lexeme hblanks hrun ih

theorem atEnd (h : SegmentedBefore behind before ts) : SegmentedBefore [] before ts := by
  induction h with
  | finish hblanks => exact .finish hblanks
  | @lexeme _ _ before _ _ hblanks hrun _ ih =>
    refine .lexeme hblanks ?_ ih
    -- Only the last lexeme is followed by what is cut off.
    cases before with
    | nil => exact hrun.atEnd
    | cons c before => exact hrun

/-- **At a boundary**, a text is split in two. -/
theorem scan_append (h : SegmentedBefore behind before ts) :
    scan (before ++ behind) = (ts ++ (scan behind).1, (scan behind).2) := by
  induction h with
  | finish hblanks => exact scan_blanks_append hblanks behind
  | @lexeme blanks run before t ts hblanks hrun _ ih =>
    have hread : Lexeme.read (blanks ++ (run ++ before) ++ behind) =
        .token t (before ++ behind) := by
      rw [List.append_assoc, List.append_assoc]
      exact Lexeme.read_of_isLexeme hblanks hrun
    rw [scan_of_token hread, ih]
    rfl

theorem tokenize_eq_ok (h : SegmentedBefore behind before ts) :
    tokenize (String.ofList before) = .ok ts := by
  have hscan : scan (before ++ []) = (ts ++ (scan []).1, (scan []).2) := h.atEnd.scan_append
  rw [List.append_nil, scan_of_finish (s := []) rfl, List.append_nil] at hscan
  rw [tokenize_eq_ok_iff, String.toList_ofList, hscan]

end SegmentedBefore

/-- **Where splitting stops.** A text is split up to an obstacle exactly if the obstacle stands at a
boundary. -/
theorem scan_eq_obstacle_iff {s rest : List Char} {ts : List Token} {o : Obstacle} :
    scan s = (ts, some (o, rest)) ↔ ∃ before behind, s = before ++ behind ∧
      SegmentedBefore behind before ts ∧ IsObstacle behind o rest := by
  refine ⟨fun h => ?_, fun h => ?_⟩
  · fun_induction scan s generalizing ts with
    | case1 s hread => cases h
    | case2 s o' rest' hread =>
      cases h
      obtain ⟨blanks, behind, rfl, hblanks, hobstacle⟩ := Lexeme.isObstacle_of_read hread
      exact ⟨blanks, behind, rfl, .finish hblanks, hobstacle⟩
    | case3 s t tail hread _ tokens stop heq ih =>
      cases h
      obtain ⟨before, behind, rfl, hbefore, hobstacle⟩ := ih heq
      obtain ⟨blanks, run, rfl, hblanks, hrun⟩ := Lexeme.isLexeme_of_read hread
      exact ⟨blanks ++ (run ++ before), behind, by simp, .lexeme hblanks hrun hbefore, hobstacle⟩
  · obtain ⟨before, behind, rfl, hbefore, hobstacle⟩ := h
    rw [hbefore.scan_append, scan_of_isObstacle hobstacle, List.append_nil]

/-! ## Errors -/

theorem tokenize_eq_error_iff {source : String} {e : LexError} :
    tokenize source = .error e ↔
      ∃ ts o rest, scan source.toList = (ts, some (o, rest)) ∧ e = o.error source rest.length := by
  unfold tokenize
  split
  · next hscan => simp [hscan]
  · next ts o rest hscan => simp [hscan, eq_comm]

theorem Obstacle.error_behind {source : String} {before behind : List Char}
    (hsource : source.toList = before ++ behind) (o : Obstacle) :
    o.error source behind.length = ⟨o.fault before.length, source⟩ := by
  have hlength : source.length = before.length + behind.length := by
    rw [← String.length_toList, hsource, List.length_append]
  rw [Obstacle.error, hlength, Nat.add_sub_cancel_right]

/-- An obstacle that is not passed over, at a boundary, is the error. -/
theorem SegmentedBefore.tokenize_eq_error {source : String} {before behind : List Char}
    {ts : List Token} {o : Obstacle} (hsource : source.toList = before ++ behind)
    (hbefore : SegmentedBefore behind before ts) (ho : IsObstacle behind o behind) :
    tokenize source = .error ⟨o.fault before.length, source⟩ := by
  have hscan : scan source.toList = (ts, some (o, behind)) :=
    scan_eq_obstacle_iff.2 ⟨before, behind, hsource, hbefore, ho⟩
  exact tokenize_eq_error_iff.2 ⟨ts, o, behind, hscan, (o.error_behind hsource).symm⟩

/-- A text that begins like another one, up to `n` characters behind a place. -/
theorem exists_append_of_take_eq {l before behind : List Char} {n : Nat}
    (h : l.take (before.length + n) = (before ++ behind).take (before.length + n)) :
    ∃ behind', l = before ++ behind' ∧ behind'.take n = behind.take n := by
  have htake := congrArg (List.take before.length) h
  have hdrop := congrArg (List.drop before.length) h
  rw [List.take_take, List.take_take, Nat.min_eq_left (Nat.le_add_right _ _),
    List.take_left' rfl] at htake
  rw [List.drop_take, List.drop_take, List.drop_left' rfl, Nat.add_sub_cancel_left] at hdrop
  refine ⟨l.drop before.length, ?_, hdrop⟩
  calc l = l.take before.length ++ l.drop before.length := (List.take_append_drop _ l).symm
    _ = before ++ l.drop before.length := by rw [htake]

/-- Digits and points are no numeral for want of a digit or for more than one point. -/
theorem Lexeme.not_isNumeral {run : List Char} (hrun : ∀ c ∈ run, isNumberChar c = true)
    (h : ¬ IsNumeral run) : (∀ c ∈ run, c.isDigit = false) ∨ 1 < run.count '.' := by
  by_cases hdigit : ∃ c ∈ run, c.isDigit = true
  · refine .inr (Nat.lt_of_not_le fun hpoint => ?_)
    exact h ⟨hrun, hdigit, hpoint⟩
  · refine .inl fun c hc => Bool.eq_false_iff.2 fun hd => ?_
    exact hdigit ⟨c, hc, hd⟩

section
variable {source : String} {before tail : List Char} {c : Char} {ts : List Token}
  (hsource : source.toList = before ++ c :: tail) (hbefore : SegmentedBefore (c :: tail) before ts)
include hsource

theorem getElem?_behind : source.toList[before.length]? = some c := by
  simp [hsource]

theorem getElem?_behind_succ : source.toList[before.length + 1]? = tail.head? := by
  rw [hsource, List.getElem?_append_right (Nat.le_add_right _ _), Nat.add_sub_cancel_left,
    List.getElem?_cons_succ, List.head?_eq_getElem?]

include hbefore

theorem exists_tokenize_take :
    ∃ ts, tokenize (String.ofList (source.toList.take before.length)) = .ok ts := by
  rw [hsource, List.take_left' rfl]
  exact ⟨ts, hbefore.tokenize_eq_ok⟩

/-- A text that begins the same, up to an obstacle with the character behind it, has the obstacle in
the same place. -/
theorem tokenize_eq_error_of_take_eq {o : Obstacle} {n : Nat}
    (ho : ∀ tail', tail'.take n = tail.take n → IsObstacle (c :: tail') o (c :: tail'))
    {other : String}
    (h : other.toList.take (before.length + (n + 1)) =
      source.toList.take (before.length + (n + 1))) :
    tokenize other = .error ⟨o.fault before.length, other⟩ := by
  rw [hsource] at h
  obtain ⟨behind', hother, htake⟩ := exists_append_of_take_eq h
  cases behind' with
  | nil => cases htake
  | cons c' tail' =>
    obtain ⟨rfl, htail⟩ : c' = c ∧ tail'.take n = tail.take n := by simpa using htake
    have hhead : (c' :: tail).head? = (c' :: tail').head? := rfl
    exact (hbefore.congr hhead).tokenize_eq_error hother (ho tail' htail)

end

/-- **Errors of splitting.** An error repeats the text and names what cannot be read.

* A character of no class stands at its position, and the text before it can be split. With other
  text behind it, the error is the same.
* A symbol that is no keyword does so too, and does not become one by the next character. With other
  text behind the next character, the error is the same.
* Digits and points that are no number are the whole run of them at a boundary, behind a part of the
  text that can be split. They have no digit, or more than one point. -/
theorem tokenize_error {source : String} {e : LexError} (h : tokenize source = .error e) :
    e.source = source ∧ match e.fault with
      | .invalidCharacter c p =>
        source.toList[p]? = some c ∧
        (Text.isBlank c = false ∧ isSymbolChar c = false ∧ isNumberChar c = false ∧
          isWordChar c = false) ∧
        (∃ ts, tokenize (String.ofList (source.toList.take p)) = .ok ts) ∧
        ∀ other : String, other.toList.take (p + 1) = source.toList.take (p + 1) →
          tokenize other = .error ⟨.invalidCharacter c p, other⟩
      | .unknownSymbol c p =>
        source.toList[p]? = some c ∧ c ∈ ['&', '|', '=', '!'] ∧
        (∃ ts, tokenize (String.ofList (source.toList.take p)) = .ok ts) ∧
        (∀ d ∈ source.toList[p + 1]?, ∀ k : Keyword, k.spelling.toList ≠ [c, d]) ∧
        ∀ other : String, other.toList.take (p + 2) = source.toList.take (p + 2) →
          tokenize other = .error ⟨.unknownSymbol c p, other⟩
      | .invalidNumber text =>
        ∃ before behind ts, source.toList = before ++ (text.toList ++ behind) ∧
          tokenize (String.ofList before) = .ok ts ∧
          SegmentedBefore (text.toList ++ behind) before ts ∧
          text ≠ "" ∧ (∀ c ∈ text.toList, isNumberChar c = true) ∧
          (∀ c ∈ behind.head?, isNumberChar c = false) ∧
          ((∀ c ∈ text.toList, c.isDigit = false) ∨ 1 < text.toList.count '.')
      | .illegalCombination .. | .listContent => False := by
  obtain ⟨ts, o, rest, hscan, rfl⟩ := tokenize_eq_error_iff.1 h
  obtain ⟨before, behind, hsource, hbefore, hobstacle⟩ := scan_eq_obstacle_iff.1 hscan
  refine ⟨rfl, ?_⟩
  cases hobstacle with
  | @character c hblank hsymbol hnumber hword tail =>
    rw [Obstacle.error_behind hsource]
    refine ⟨getElem?_behind hsource, ⟨hblank, hsymbol, hnumber, hword⟩,
      exists_tokenize_take hsource hbefore, fun other hother => ?_⟩
    -- Nothing behind the character counts.
    exact tokenize_eq_error_of_take_eq (n := 0) hsource hbefore
      (fun tail' _ => .character hblank hsymbol hnumber hword tail') hother
  | @symbol c hc tail hnext =>
    rw [Obstacle.error_behind hsource]
    -- The next character could make a keyword of the symbol, so it has to stay.
    have hobstacle (tail' : List Char) (htail : tail'.take 1 = tail.take 1) :
        IsObstacle (c :: tail') (.unknownSymbol c) (c :: tail') := by
      have hhead : tail'.head? = tail.head? := by
        simpa [List.head?_take] using congrArg List.head? htail
      exact .symbol hc (hhead ▸ hnext)
    refine ⟨getElem?_behind hsource, hc, exists_tokenize_take hsource hbefore,
      getElem?_behind_succ hsource ▸ hnext, fun other hother => ?_⟩
    exact tokenize_eq_error_of_take_eq hsource hbefore hobstacle hother
  | @numeral run hne hrun hnot rest hrest =>
    have htext : (String.ofList run).toList = run := String.toList_ofList
    have hnotEmpty : String.ofList run ≠ "" := by simpa using hne
    refine ⟨before, rest, ts, ?_⟩
    rw [htext]
    exact ⟨hsource, hbefore.tokenize_eq_ok, hbefore, hnotEmpty, hrun, hrest,
      Lexeme.not_isNumeral hrun hnot⟩

/-- A symbol is refused with the character behind it, whatever follows. Digits in a word are passed
over, and a run of digits and points is refused as a whole. -/
theorem tokenize_error_first :
    let number := "x1 1..2&& $"
    tokenize "x<&y = 1..2" = .error ⟨.unknownSymbol '&' 2, "x<&y = 1..2"⟩ ∧
    (∀ other : String, other.toList.take 4 = "x<&y".toList →
      tokenize other = .error ⟨.unknownSymbol '&' 2, other⟩) ∧
    tokenize number = .error ⟨.invalidNumber "1..2", number⟩ ∧
    ∃ before behind ts, number.toList = before ++ ("1..2".toList ++ behind) ∧
      tokenize (String.ofList before) = .ok ts ∧
      SegmentedBefore ("1..2".toList ++ behind) before ts ∧
      (∀ c ∈ behind.head?, isNumberChar c = false) := by
  intro number
  have hsymbol : tokenize "x<&y = 1..2" = .error ⟨.unknownSymbol '&' 2, "x<&y = 1..2"⟩ := by
    decide +kernel
  have hnumber : tokenize number = .error ⟨.invalidNumber "1..2", number⟩ := by decide +kernel
  obtain ⟨-, -, -, -, -, hother⟩ := tokenize_error hsymbol
  obtain ⟨-, before, behind, ts, hsource, hbefore, hsegmented, -, -, hbehind, -⟩ :=
    tokenize_error hnumber
  exact ⟨hsymbol, hother, hnumber, before, behind, ts, hsource, hbefore, hsegmented, hbehind⟩

end FactQuery
