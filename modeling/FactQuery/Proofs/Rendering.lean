import FactQuery.Expr.Rendering
import FactQuery.Proofs.IntegerConditions

/-!
# The parts of a rendered tree

The text of a tree is made of the texts of its literals, of brackets and parentheses, of operators
and of what separates them. A character is *plain* if it is neither a blank nor a bracket nor a
parenthesis. The parts can be told apart as long as the texts of the literals are plain and not
empty.

**Words** (`Expr.HasPlainWords`). A tree may hold any word, also one that no text is read as. Trees
with plain words are those whose rendering says what they are. Numbers need no such condition, since
their texts are made of digits, signs, points and letters (`Literal.isPlain_text`).

**Enclosures** (`enclosed`). Whatever is no leaf is rendered between parentheses: a head and then
the operands, each behind the separator. This goes for groups and for operators alike, on one line
and on several.
-/

namespace FactQuery

/-- A character that is no blank, no bracket and no parenthesis. -/
def isPlainChar (c : Char) : Bool := !Text.isBlank c && !(['(', ')', '[', ']'].contains c)

/-- The characters between the parts of a rendered tree. -/
theorem isPlainChar_of_mem {c : Char} (h : c ∈ [' ', '\n', '(', ')', '[', ']']) :
    isPlainChar c = false := by
  simp only [List.mem_cons, List.not_mem_nil, or_false] at h
  rcases h with rfl | rfl | rfl | rfl | rfl | rfl <;> decide

/-- A text of plain characters, and not the empty one. -/
structure IsPlain (s : List Char) : Prop where
  ne_nil : s ≠ []
  chars : ∀ c ∈ s, isPlainChar c = true

def Literal.word? : Literal → Option String
  | .word w => some w
  | _ => none

namespace Expr

def words : Expr → List String
  | .literal l => l.word?.toList
  | .list items => items.toList.filterMap Literal.word?
  | .group inner => inner.words
  | .junction _ left right => left.words ++ right.words
  | .comparison _ left right => left.words ++ right.words
  | .membership left right => left.words ++ right.words
  | .filtered subject condition => subject.words ++ condition.words

/-- A tree whose words are plain, none of them empty. -/
def HasPlainWords (e : Expr) : Prop := ∀ w ∈ e.words, IsPlain w.toList

/-! ## Kinds of trees -/

/-- Induction on trees with one case for all the operators. -/
@[elab_as_elim]
theorem induction_on {motive : Expr → Prop} (e : Expr) (literal : ∀ l, motive (.literal l))
    (list : ∀ items, motive (.list items)) (group : ∀ inner, motive inner → motive (.group inner))
    (binary : ∀ op left right, motive left → motive right → motive (.binary op left right)) :
    motive e := by
  induction e with
  | literal l => exact literal l
  | list items => exact list items
  | group inner ih => exact group inner ih
  | junction op left right ihl ihr => exact binary (.junction op) left right ihl ihr
  | comparison op left right ihl ihr => exact binary (.comparison op) left right ihl ihr
  | membership left right ihl ihr => exact binary .membership left right ihl ihr
  | filtered subject condition ihs ihc => exact binary .filter subject condition ihs ihc

/-- Cases of trees with one for all the operators. -/
@[elab_as_elim]
theorem cases_on {motive : Expr → Prop} (e : Expr) (literal : ∀ l, motive (.literal l))
    (list : ∀ items, motive (.list items)) (group : ∀ inner, motive (.group inner))
    (binary : ∀ op left right, motive (.binary op left right)) : motive e := by
  cases e with
  | literal l => exact literal l
  | list items => exact list items
  | group inner => exact group inner
  | junction op left right => exact binary (.junction op) left right
  | comparison op left right => exact binary (.comparison op) left right
  | membership left right => exact binary .membership left right
  | filtered subject condition => exact binary .filter subject condition

theorem words_binary (op : BinaryOp) (left right : Expr) :
    (binary op left right).words = left.words ++ right.words := by
  cases op <;> rfl

namespace HasPlainWords

variable {e l r : Expr} {op : BinaryOp}

theorem inner (h : (Expr.group e).HasPlainWords) : e.HasPlainWords := h

theorem left (h : (binary op l r).HasPlainWords) : l.HasPlainWords := by
  rw [HasPlainWords, words_binary] at h
  exact fun w hw => h w (List.mem_append_left _ hw)

theorem right (h : (binary op l r).HasPlainWords) : r.HasPlainWords := by
  rw [HasPlainWords, words_binary] at h
  exact fun w hw => h w (List.mem_append_right _ hw)

end HasPlainWords

end Expr

/-! ## Texts of literals -/

/-- The characters of numbers and words are plain, for those of symbols are others. -/
theorem isPlainChar_of_class {c : Char} (h : isNumberChar c = true ∨ isWordChar c = true) :
    isPlainChar c = true := by
  have hblank : Text.isBlank c = false := not_isBlank (.inr h)
  have hbracket : ['(', ')', '[', ']'].contains c = false := by
    rw [Bool.eq_false_iff]
    intro hc
    have hsymbol : isSymbolChar c = true := by
      have hall : ∀ c ∈ ['(', ')', '[', ']'], isSymbolChar c = true := by simp [isSymbolChar]
      exact hall c (List.contains_iff_mem.1 hc)
    obtain ⟨hn, hw⟩ := not_of_isSymbolChar hsymbol
    simp [hn, hw] at h
  rw [isPlainChar, hblank, hbracket]
  rfl

theorem isPlainChar_of_isDigit {c : Char} (h : c.isDigit = true) : isPlainChar c = true :=
  isPlainChar_of_class (.inl (Lexeme.isNumberChar_of_isDigit h))

theorem isPlain_of_isWordChar {s : List Char} (hne : s ≠ [])
    (h : s.all isWordChar = true) : IsPlain s :=
  ⟨hne, fun c hc => isPlainChar_of_class (.inr (List.all_eq_true.1 h c hc))⟩

namespace Scientific

theorem mem_of_mem_stripZeros {digits : List Char} {c : Char} (h : c ∈ stripZeros digits) :
    c ∈ digits :=
  List.mem_reverse.1 ((List.dropWhile_sublist _).mem (List.mem_reverse.1 h))

/-- Positional digits begin with a digit, and have at most a point besides. -/
theorem isPlain_toText (x : Scientific) : IsPlain x.toText := by
  have hdigits {n : Nat} : ∀ c ∈ Nat.toDigits 10 n, isPlainChar c = true :=
    fun c hc => isPlainChar_of_isDigit (Lexeme.isDigit_of_mem_toDigits c hc)
  unfold toText
  split
  · exact ⟨Nat.toDigits_ne_nil, hdigits⟩
  · extract_lets places digits padded whole
    have hpadded : ∀ c ∈ padded, isPlainChar c = true := by
      intro c hc
      rcases List.mem_append.1 hc with hc | hc
      · rw [List.eq_of_mem_replicate hc]
        exact isPlainChar_of_isDigit rfl
      · exact hdigits c hc
    have hlength : places < padded.length := by
      simp only [padded, List.length_append, List.length_replicate]
      omega
    have hwhole : IsPlain whole := by
      refine ⟨?_, fun c hc => hpadded c (List.mem_of_mem_take hc)⟩
      rw [ne_eq, List.take_eq_nil_iff, not_or]
      exact ⟨by omega, List.ne_nil_of_length_pos (by omega)⟩
    split
    · exact hwhole
    · next fraction _ =>
      refine ⟨List.append_ne_nil_of_left_ne_nil hwhole.ne_nil _, fun c hc => ?_⟩
      rcases List.mem_append.1 hc with hc | hc
      · exact hwhole.chars c hc
      · rcases List.mem_cons.1 hc with rfl | hc
        · exact isPlainChar_of_class (.inl rfl)
        · exact hpadded c (List.mem_of_mem_drop (mem_of_mem_stripZeros hc))

end Scientific

theorem Binary64.isPlain_toText (x : Binary64) : IsPlain x.toText := by
  cases x with
  | nan => exact isPlain_of_isWordChar (by decide) (by decide)
  | number negative rank =>
    have hsign : ∀ c ∈ (if negative then ['-'] else []), isPlainChar c = true := by
      cases negative with
      | false => exact nofun
      | true => exact (isPlain_of_isWordChar (List.cons_ne_nil '-' []) (by decide)).chars
    have hunsigned : IsPlain (if rank.val = infinityRank then "inf".toList
        else if rank.val = 0 then ['0'] else (shortest rank).toText) := by
      split
      · exact isPlain_of_isWordChar (by decide) (by decide)
      · split
        · exact isPlain_of_isWordChar (by decide) (by decide)
        · exact (shortest rank).isPlain_toText
    refine ⟨List.append_ne_nil_of_right_ne_nil _ hunsigned.ne_nil, fun c hc => ?_⟩
    rcases List.mem_append.1 hc with hc | hc
    · exact hsign c hc
    · exact hunsigned.chars c hc

theorem isPlain_toString (n : Int) : IsPlain (toString n).toList := by
  by_cases h : n < 0
  · rw [toList_toString_of_neg h]
    exact isPlain_of_isWordChar (List.cons_ne_nil _ _) (List.all_eq_true.2 isWordChar_of_mem_minus)
  · rw [toList_toString_of_nonneg h]
    exact ⟨Nat.toDigits_ne_nil, fun c hc =>
      isPlainChar_of_isDigit (Lexeme.isDigit_of_mem_toDigits c hc)⟩

theorem Literal.isPlain_text {l : Literal} (h : ∀ w ∈ l.word?, IsPlain w.toList) :
    IsPlain l.text.toList := by
  cases l with
  | integer n => exact isPlain_toString n.toInt
  | float x =>
    rw [Literal.text, String.toList_ofList]
    exact x.isPlain_toText
  | word w => exact h w rfl

namespace Expr.HasPlainWords

theorem isPlain_text {l : Literal} (h : (Expr.literal l).HasPlainWords) : IsPlain l.text.toList :=
  l.isPlain_text fun w hw => h w (Option.mem_toList.2 hw)

theorem isPlain_items {items : Items} (h : (Expr.list items).HasPlainWords) :
    ∀ u ∈ (items.toList.map Literal.text).map String.toList, IsPlain u := by
  simp only [List.map_map, List.forall_mem_map]
  exact fun l hl => l.isPlain_text fun w hw => h w (List.mem_filterMap.2 ⟨l, hl, hw⟩)

end Expr.HasPlainWords

theorem eq_or_isPlainChar_of_mem_intercalate {texts : List (List Char)}
    (h : ∀ u ∈ texts, IsPlain u) {c : Char} (hc : c ∈ [' '].intercalate texts) :
    c = ' ' ∨ isPlainChar c = true := by
  induction texts with
  | nil => cases hc
  | cons u texts ih =>
    obtain ⟨hu, htexts⟩ := List.forall_mem_cons.1 h
    cases texts with
    | nil =>
      rw [List.intercalate_singleton] at hc
      exact .inr (hu.chars c hc)
    | cons v texts =>
      rw [List.intercalate_cons_cons, List.append_assoc, List.mem_append, List.mem_append,
        List.mem_singleton] at hc
      rcases hc with hc | hc | hc
      · exact .inr (hu.chars c hc)
      · exact .inl hc
      · exact ih htexts hc

/-! ## Enclosures -/

theorem isPlain_group : IsPlain "group".toList := isPlain_of_isWordChar (by decide) (by decide)

theorem BinaryOp.isPlain_spelling (op : BinaryOp) : IsPlain op.spelling.toList := by
  have hall : op.spelling.toList ≠ [] ∧ op.spelling.toList.all isPlainChar = true := by
    rcases op with (_ | _) | (_ | _ | _ | _ | _ | _) | _ | _ <;> decide
  exact ⟨hall.1, List.all_eq_true.1 hall.2⟩

/-- A head and operands between parentheses, each operand behind a separator. -/
def enclosed (separator head : List Char) (operands : List (List Char)) : List Char :=
  '(' :: (head ++ (operands.flatMap (separator ++ ·) ++ [')']))

namespace Expr

theorem toList_layOut (depth : Nat) (head : String) (oneLine : Bool) (operands : List String) :
    (layOut depth head oneLine operands).toList =
      enclosed (if oneLine then [' '] else (newLine (depth + 1)).toList) head.toList
        (operands.map String.toList) := by
  cases oneLine <;>
    simp [layOut, enclosed, String.toList_join, List.flatMap_map]

theorem toList_compact_list (items : Items) :
    (Expr.list items).compact.toList =
      '[' :: ([' '].intercalate ((items.toList.map Literal.text).map String.toList) ++ [']']) := by
  simp [compact, Items.text, String.toList_intercalate]

theorem toList_compact_group (inner : Expr) :
    (Expr.group inner).compact.toList =
      enclosed [' '] "group".toList [inner.compact.toList] := by
  simp [compact, enclosed]

theorem toList_compact_binary (op : BinaryOp) (left right : Expr) :
    (binary op left right).compact.toList =
      enclosed [' '] op.spelling.toList [left.compact.toList, right.compact.toList] := by
  cases op <;> simp [binary, compact, compact.applied, enclosed]

theorem indentedAt_group (depth : Nat) (inner : Expr) :
    (Expr.group inner).indentedAt depth =
      layOut depth "group" inner.isLeaf [inner.indentedAt (depth + 1)] := rfl

theorem indentedAt_binary (depth : Nat) (op : BinaryOp) (left right : Expr) :
    (binary op left right).indentedAt depth =
      layOut depth op.spelling (left.isLeaf && right.isLeaf)
        [left.indentedAt (depth + 1), right.indentedAt (depth + 1)] := by
  cases op <;> rfl

end Expr

end FactQuery
