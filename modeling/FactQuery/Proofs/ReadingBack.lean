import FactQuery.Proofs.IntegerConditions
import FactQuery.Proofs.Spacing
import FactQuery.Token.Listing

/-!
# Reading a listing back

A token is listed by its category and its text. The text of a token that was read is a lexeme again
(`IsLexeme.isLexeme_text`), though not always the one it was read from: `007` is listed as `7`. Only
binary numbers are lost, since `2.0` is listed as `2`.

**Theorem (`listing_read_back`).** The listing of the tokens of a text, none of them a binary
number, has a line for each token, with the category in front (`Token.Columns`). The texts of the
tokens, taken from the lines and put together with spaces, are read as the same tokens.

No text of a token has a blank in it (`IsLexeme.not_isBlank`), so the lines of the listing are those
that were put together (`lines_listing`), and a space is enough between two texts
(`scan_intercalate`).
-/

namespace FactQuery

/-! ## Texts of tokens -/

theorem text_wordReading (run : List Char) : (wordReading run).text.toList = run := by
  unfold wordReading
  split
  · next h => exact h.symm
  · split
    · next h => exact h.symm
    · exact String.toList_ofList

theorem isLexeme_text_integer {n : Int64} (h : ¬ n.toInt < 0) :
    IsLexeme (Token.literal (.integer n)).text.toList none (.literal (.integer n)) := by
  have hdecimal := isLexeme_decimal n
  rwa [Literal.ofDecimal_of_nonneg h] at hdecimal

namespace IsLexeme

variable {run : List Char} {next : Option Char} {t : Token}

/-- **The text of a token is a lexeme** that reads as the token again. -/
theorem isLexeme_text (h : IsLexeme run next t) (hfloat : ∀ x, t ≠ .literal (.float x)) :
    IsLexeme t.text.toList none t := by
  have hend := h.atEnd
  cases h with
  | longSymbol | shortSymbol => exact hend
  | word =>
    rw [text_wordReading]
    exact hend
  | numeral =>
    rw [Lexeme.numberReading] at hfloat ⊢
    split at hfloat
    · next hfits =>
      -- Zeros in front are gone, and the number is the same.
      rw [if_pos hfits]
      have hlt : Nat.ofDigitChars 10 run 0 < 2 ^ 63 := by
        have hmax : Int64.maxValue.toInt = 2 ^ 63 - 1 := by decide
        have hle := hmax ▸ hfits.2
        omega
      refine isLexeme_text_integer ?_
      rw [Int64.toInt_ofNat_of_lt hlt]
      exact Int.not_lt.2 (Int.natCast_nonneg _)
    · exact absurd rfl (hfloat _)

theorem not_isBlank (h : IsLexeme run next t) : ∀ c ∈ run, Text.isBlank c = false := by
  intro c hc
  cases h with
  | @longSymbol k =>
    have hall : (k.spelling.toList.all fun c => !Text.isBlank c) = true := by cases k <;> decide
    simpa using List.all_eq_true.1 hall c hc
  | @shortSymbol k =>
    have hall : (k.spelling.toList.all fun c => !Text.isBlank c) = true := by cases k <;> decide
    simpa using List.all_eq_true.1 hall c hc
  | numeral hrun => exact FactQuery.not_isBlank (.inr (.inl (hrun.chars c hc)))
  | word _ hrun => exact FactQuery.not_isBlank (.inr (.inr (hrun c hc)))

end IsLexeme

theorem Segmented.exists_isLexeme {s : List Char} {ps : List Piece} {ts : List Token}
    (h : Segmented s ps ts) : ∀ t ∈ ts, ∃ run next, IsLexeme run next t := by
  induction h with
  | finish => exact nofun
  | lexeme _ hrun _ ih => exact List.forall_mem_cons.2 ⟨⟨_, _, hrun⟩, ih⟩

theorem isLexeme_text_of_scan {s : List Char} {ts : List Token} (h : scan s = (ts, none))
    (hfloat : ∀ x, Token.literal (.float x) ∉ ts) :
    ∀ t ∈ ts, IsLexeme t.text.toList none t := by
  intro t ht
  obtain ⟨ps, hps⟩ := exists_segmented_of_scan h
  obtain ⟨run, next, hrun⟩ := hps.exists_isLexeme t ht
  refine hrun.isLexeme_text fun x hx => ?_
  exact hfloat x (hx ▸ ht)

/-- **Texts put together** with spaces are read as their tokens. -/
theorem scan_intercalate {ts : List Token} (h : ∀ t ∈ ts, IsLexeme t.text.toList none t) :
    scan ([' '].intercalate (ts.map fun t => t.text.toList)) = (ts, none) := by
  induction ts with
  | nil => exact scan_of_finish rfl
  | cons t ts ih =>
    obtain ⟨ht, hts⟩ := List.forall_mem_cons.1 h
    cases ts with
    | nil =>
      rw [List.map_singleton, List.intercalate_singleton]
      exact scan_lexeme ht
    | cons u ts =>
      -- The space parts the texts, whatever they end and begin with.
      have hblanks : ∀ c ∈ [' '], Text.isBlank c = true := by simp; decide
      have hspaced := scan_spaced (List.cons_ne_nil ' ' []) hblanks t.text.toList
        ([' '].intercalate ((u :: ts).map fun t => t.text.toList))
      rw [scan_lexeme ht, ih hts] at hspaced
      rw [List.map_cons, List.map_cons, List.intercalate_cons_cons, List.append_assoc]
      exact hspaced

/-! ## Lines -/

def lines (s : String) : List String := (s.toList.splitOn '\n').map String.ofList

/-- The first nine columns of a line. -/
def listedColumns (line : String) : String := String.ofList (line.toList.take 9)

/-- What a line has behind its first nine columns. -/
def listedText (line : String) : String := String.ofList (line.toList.drop 9)

namespace Token

/-- What a token has in front of its text: its category and spaces. -/
inductive Columns : Token → String → Prop
  | keyword (k : Keyword) : Columns (.keyword k) "Keyword  "
  | integer (n : Int64) : Columns (.literal (.integer n)) "Number   "
  | float (x : Binary64) : Columns (.literal (.float x)) "Number   "
  | word (w : String) : Columns (.literal (.word w)) "Word     "

theorem Columns.length {t : Token} {columns : String} (h : t.Columns columns) :
    columns.toList.length = 9 := by
  cases h <;> rfl

theorem Columns.newline_notMem {t : Token} {columns : String} (h : t.Columns columns) :
    '\n' ∉ columns.toList := by
  cases h <;> decide

theorem exists_columns (t : Token) : ∃ columns, t.Columns columns ∧ t.line = columns ++ t.text := by
  have hkeyword : String.ofList ("Keyword".toList.rightpad 8 ' ') ++ " " = "Keyword  " := by decide
  have hnumber : String.ofList ("Number".toList.rightpad 8 ' ') ++ " " = "Number   " := by decide
  have hword : String.ofList ("Word".toList.rightpad 8 ' ') ++ " " = "Word     " := by decide
  rcases t with k | n | x | w
  · exact ⟨_, .keyword k, congrArg (· ++ k.spelling) hkeyword⟩
  · exact ⟨_, .integer n, congrArg (· ++ toString n.toInt) hnumber⟩
  · exact ⟨_, .float x, congrArg (· ++ String.ofList x.toText) hnumber⟩
  · exact ⟨_, .word w, congrArg (· ++ w) hword⟩

theorem listed_line (t : Token) :
    t.Columns (listedColumns t.line) ∧ listedText t.line = t.text := by
  obtain ⟨columns, h, hline⟩ := t.exists_columns
  rw [listedColumns, listedText, hline, String.toList_append, List.take_left' h.length,
    List.drop_left' h.length, String.ofList_toList, String.ofList_toList]
  exact ⟨h, rfl⟩

theorem newline_notMem_line {t : Token} (h : IsLexeme t.text.toList none t) :
    '\n' ∉ t.line.toList := by
  obtain ⟨columns, hcolumns, hline⟩ := t.exists_columns
  rw [hline, String.toList_append, List.mem_append, not_or]
  refine ⟨hcolumns.newline_notMem, fun hmem => ?_⟩
  have hblank : Text.isBlank '\n' = false := h.not_isBlank '\n' hmem
  revert hblank
  decide

end Token

/-- **The lines of a listing** are those of the tokens. -/
theorem lines_listing {ts : List Token} (h : ∀ t ∈ ts, IsLexeme t.text.toList none t)
    (hne : ts ≠ []) : lines (listing ts) = ts.map Token.line := by
  have hlist : (listing ts).toList = ['\n'].intercalate (ts.map fun t => t.line.toList) := by
    rw [listing, String.toList_intercalate, List.map_map]
    rfl
  have hnewline : ∀ l ∈ ts.map fun t => t.line.toList, '\n' ∉ l := by
    intro l hl
    obtain ⟨t, ht, rfl⟩ := List.mem_map.1 hl
    exact Token.newline_notMem_line (h t ht)
  have hlines : ts.map (fun t => t.line.toList) ≠ [] := by simpa using hne
  rw [lines, hlist, List.splitOn_intercalate '\n' hnewline hlines, List.map_map]
  exact List.map_congr_left fun t _ => String.ofList_toList

/-- **A listing can be read back.** The listing of a text's tokens, none of them a binary number,
has a line for each token: its category, up to the ninth column, and then its text. Put together
with single spaces, the texts are read as the same tokens. -/
theorem listing_read_back {source : String} {ts : List Token} (h : lex source = .ok ts)
    (hne : ts ≠ []) (hfloat : ∀ x, Token.literal (.float x) ∉ ts) :
    List.Forall₂ (fun line t => t.Columns (listedColumns line) ∧ listedText line = t.text)
      (lines (listing ts)) ts ∧
    lex (String.intercalate " " ((lines (listing ts)).map listedText)) = .ok ts := by
  obtain ⟨hscan, hfault⟩ := lex_eq_ok_iff.1 h
  have htexts := isLexeme_text_of_scan hscan hfloat
  rw [lines_listing htexts hne]
  refine ⟨?_, lex_eq_ok_iff.2 ⟨?_, hfault⟩⟩
  · exact List.forall₂_map_left_iff.2 (List.forall₂_same.2 fun t _ => t.listed_line)
  · have htext : (ts.map Token.line).map listedText = ts.map Token.text := by
      rw [List.map_map]
      exact List.map_congr_left fun t _ => t.listed_line.2
    rw [htext, String.toList_intercalate, List.map_map]
    exact scan_intercalate htexts

/-- Touching tokens are listed apart, and the digits of an integer without zeros in front. -/
theorem listing_read_back_touching :
    let source := "b1<=007&&x in[in1 2]"
    let tokens : List Token :=
      [.literal (.word "b1"), .keyword .atMost, .literal (.integer 7), .keyword .conjunction,
       .literal (.word "x"), .keyword .membership, .keyword .openList, .literal (.word "in1"),
       .literal (.integer 2), .keyword .closeList]
    lex source = .ok tokens ∧ tokens ≠ [] ∧ (∀ x, Token.literal (.float x) ∉ tokens) ∧
      (lines (listing tokens)).length = 10 ∧
      lex (String.intercalate " " ((lines (listing tokens)).map listedText)) = .ok tokens := by
  intro source tokens
  have hlex : lex source = .ok tokens := by decide +kernel
  have hne : tokens ≠ [] := by simp [tokens]
  have hfloat : ∀ x, Token.literal (.float x) ∉ tokens := by simp [tokens]
  obtain ⟨hlines, hback⟩ := listing_read_back hlex hne hfloat
  exact ⟨hlex, hne, hfloat, hlines.length_eq, hback⟩

end FactQuery
