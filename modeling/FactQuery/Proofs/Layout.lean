import FactQuery.Proofs.Rendering

/-!
# Trees on several lines

The indented text of a tree is its text on one line with other blanks. Operands are put on lines of
their own where not all of them are leaves, so one tree may have both kinds of layout in it.

**Theorem (`indented_layout`).** Where each line break with the spaces behind it is replaced by one
space, the indented text is the one on one line. Behind a line break there are twice as many spaces
as there are open parentheses, and then no blank.

A part of the text is told by the parentheses that are open where it begins and where it ends
(`LaidOut`). Such parts can be put one behind the other (`LaidOut.append`), which is how trees are
put together, whatever separates their operands.
-/

namespace FactQuery

/-- The text with each line break and the spaces behind it replaced by one space. -/
def unbreak : List Char → List Char
  | [] => []
  | c :: s => if c = '\n' then ' ' :: unbreak (s.dropWhile (· == ' ')) else c :: unbreak s
termination_by s => s.length
decreasing_by
  · exact Nat.lt_succ_of_le (List.dropWhile_suffix _).length_le
  · exact Nat.lt_succ_self _

/-- How many parentheses are open behind a text, where so many are open before it. -/
def openFrom (depth : Nat) (s : List Char) : Nat :=
  s.foldl (fun depth c => if c = '(' then depth + 1 else if c = ')' then depth - 1 else depth) depth

/-- How many parentheses of a text are opened and not yet closed. -/
def openParens (s : List Char) : Nat := openFrom 0 s

/-- Behind each line break there are twice as many spaces as open parentheses, and then no blank. -/
def BreaksIndented (depth : Nat) (s : List Char) : Prop :=
  ∀ before behind, s = before ++ '\n' :: behind → ∃ c rest,
    behind = List.replicate (2 * openFrom depth before) ' ' ++ c :: rest ∧ Text.isBlank c = false

/-- A part of an indented text and what it is on one line, with the numbers of parentheses that are
open before and behind it. -/
structure LaidOut (depth : Nat) (u v : List Char) (depth' : Nat) : Prop where
  opened : openFrom depth u = depth'
  indented : BreaksIndented depth u
  joined : ∀ s, unbreak (u ++ s) = v ++ unbreak s

/-- A text that begins with no blank. -/
def BeginsVisibly (u : List Char) : Prop := ∃ c rest, u = c :: rest ∧ Text.isBlank c = false

theorem openFrom_append (depth : Nat) (u v : List Char) :
    openFrom depth (u ++ v) = openFrom (openFrom depth u) v := List.foldl_append

/-! ## Parts -/

theorem unbreak_cons {c : Char} (hc : c ≠ '\n') (s : List Char) :
    unbreak (c :: s) = c :: unbreak s := by
  rw [unbreak, if_neg hc]

theorem notMem_of_isPlainChar {c : Char} (h : isPlainChar c = true) : c ∉ ['\n', '(', ')'] := by
  intro hmem
  have hsub : ['\n', '(', ')'] ⊆ [' ', '\n', '(', ')', '[', ']'] := by simp
  rw [isPlainChar_of_mem (hsub hmem)] at h
  cases h

theorem ne_of_not_isBlank {c d : Char} (hc : Text.isBlank c = false) (hd : Text.isBlank d = true) :
    c ≠ d := by
  rintro rfl
  rw [hd] at hc
  cases hc

namespace LaidOut

variable {d d' d'' : Nat} {u v u' v' : List Char}

/-- **Parts can be put one behind the other.** -/
theorem append (h : LaidOut d u v d') (h' : LaidOut d' u' v' d'') :
    LaidOut d (u ++ u') (v ++ v') d'' := by
  refine ⟨?_, ?_, fun s => ?_⟩
  · rw [openFrom_append, h.opened, h'.opened]
  · intro before behind hsplit
    -- The line break belongs to one of the parts, with all that has to be behind it.
    rcases List.append_eq_append_iff.1 hsplit with ⟨w, rfl, hw⟩ | ⟨w, rfl, hw⟩
    · obtain ⟨c, rest, hbehind, hc⟩ := h'.indented w behind hw
      refine ⟨c, rest, ?_, hc⟩
      rw [openFrom_append, h.opened, hbehind]
    · cases w with
      | nil =>
        obtain ⟨c, rest, hbehind, hc⟩ := h'.indented [] behind hw.symm
        refine ⟨c, rest, ?_, hc⟩
        rw [List.append_nil] at h
        rw [hbehind, h.opened]
        rfl
      | cons x w =>
        obtain ⟨rfl, rfl⟩ := List.cons.inj hw
        obtain ⟨c, rest, rfl, hc⟩ := h.indented before w rfl
        exact ⟨c, rest ++ u', by simp, hc⟩
  · rw [List.append_assoc, h.joined, h'.joined, List.append_assoc]

theorem char {c : Char} (hc : c ≠ '\n') (h : openFrom d [c] = d') : LaidOut d [c] [c] d' := by
  refine ⟨h, fun before behind hsplit => ?_, unbreak_cons hc⟩
  have hmem : '\n' ∈ [c] := hsplit ▸ List.mem_append_cons_self
  exact absurd (List.mem_singleton.1 hmem).symm hc

theorem openGroup (d : Nat) : LaidOut d ['('] ['('] (d + 1) := char (by decide) rfl

theorem closeGroup (d : Nat) : LaidOut (d + 1) [')'] [')'] d := char (by decide) rfl

theorem flat (h : ∀ c ∈ u, c ∉ ['\n', '(', ')']) : LaidOut d u u d := by
  induction u with
  | nil => exact ⟨rfl, fun before behind hsplit => by simp at hsplit, fun s => rfl⟩
  | cons c u ih =>
    obtain ⟨hc, hu⟩ := List.forall_mem_cons.1 h
    simp only [List.mem_cons, List.not_mem_nil, or_false, not_or] at hc
    obtain ⟨hline, hopen, hclose⟩ := hc
    refine append (u := [c]) (char hline ?_) (ih hu)
    simp [openFrom, hopen, hclose]

theorem plain (h : IsPlain u) : LaidOut d u u d :=
  flat fun c hc => notMem_of_isPlainChar (h.chars c hc)

/-- A line break with the spaces behind it stands for a space. -/
theorem newLine (h : LaidOut d u v d') (hu : BeginsVisibly u) :
    LaidOut d ('\n' :: (List.replicate (2 * d) ' ' ++ u)) (' ' :: v) d' := by
  have hspaces : LaidOut d (List.replicate (2 * d) ' ' ++ u) (List.replicate (2 * d) ' ' ++ v) d' :=
    (flat fun c hc => by simp [List.eq_of_mem_replicate hc]).append h
  refine ⟨hspaces.opened, fun before behind hsplit => ?_, fun s => ?_⟩
  · cases before with
    | nil =>
      obtain ⟨c, rest, rfl, hc⟩ := hu
      exact ⟨c, rest, (List.cons.inj hsplit).2.symm, hc⟩
    | cons x before =>
      obtain ⟨rfl, htail⟩ := List.cons.inj hsplit
      exact hspaces.indented before behind htail
  · obtain ⟨c, rest, rfl, hc⟩ := hu
    have hvisible : (c == ' ') = false := beq_false_of_ne (ne_of_not_isBlank hc (by decide))
    have hdrop : (List.replicate (2 * d) ' ' ++ c :: rest ++ s).dropWhile (· == ' ') =
        c :: rest ++ s := by
      rw [List.append_assoc]
      exact dropWhile_run (by simp) (by simpa using hvisible)
    rw [List.cons_append, unbreak, if_pos rfl, hdrop, h.joined, List.cons_append]

/-- Operands behind separators, whether these are spaces or line breaks. -/
theorem operands {separator : List Char}
    (hseparator : separator = [' '] ∨ separator = '\n' :: List.replicate (2 * d) ' ')
    {us vs : List (List Char)}
    (h : List.Forall₂ (fun u v => BeginsVisibly u ∧ LaidOut d u v d) us vs) :
    LaidOut d (us.flatMap (separator ++ ·)) (vs.flatMap ([' '] ++ ·)) d := by
  induction h with
  | nil => exact flat nofun
  | @cons u v us vs hu _ ih =>
    refine append ?_ ih
    rcases hseparator with rfl | rfl
    · exact (flat (by simp)).append hu.2
    · exact hu.2.newLine hu.1

/-- **An enclosure is laid out if its operands are**, one level deeper. -/
theorem enclosed {separator head : List Char}
    (hseparator : separator = [' '] ∨ separator = '\n' :: List.replicate (2 * (d + 1)) ' ')
    (hhead : IsPlain head) {us vs : List (List Char)}
    (h : List.Forall₂ (fun u v => BeginsVisibly u ∧ LaidOut (d + 1) u v (d + 1)) us vs) :
    LaidOut d (FactQuery.enclosed separator head us) (FactQuery.enclosed [' '] head vs) d :=
  (openGroup d).append ((plain hhead).append ((operands hseparator h).append (closeGroup d)))

end LaidOut

/-! ## Trees -/

theorem IsPlain.beginsVisibly {u : List Char} (h : IsPlain u) : BeginsVisibly u := by
  obtain ⟨c, rest, rfl⟩ := List.exists_cons_of_ne_nil h.ne_nil
  have hc := h.chars c (by simp)
  simp only [isPlainChar, Bool.and_eq_true, Bool.not_eq_true'] at hc
  exact ⟨c, rest, rfl, hc.1⟩

theorem LaidOut.list {d : Nat} {texts : List (List Char)} (h : ∀ u ∈ texts, IsPlain u) :
    LaidOut d ('[' :: ([' '].intercalate texts ++ [']']))
      ('[' :: ([' '].intercalate texts ++ [']'])) d := by
  refine .flat fun c hc => ?_
  rcases List.mem_cons.1 hc with rfl | hc
  · decide
  rcases List.mem_append.1 hc with hc | hc
  · rcases eq_or_isPlainChar_of_mem_intercalate h hc with rfl | hc
    · decide
    · exact notMem_of_isPlainChar hc
  · rw [List.mem_singleton.1 hc]
    decide

namespace Expr

variable {e : Expr}

/-- What is made of operands that are laid out one level deeper, on one line or on several. -/
theorem layOut_laidOut {depth : Nat} {head : String} (hhead : IsPlain head.toList) (oneLine : Bool)
    {operands : List String} {vs : List (List Char)}
    (h : List.Forall₂ (fun u v => BeginsVisibly u ∧ LaidOut (depth + 1) u v (depth + 1))
      (operands.map String.toList) vs) :
    BeginsVisibly (layOut depth head oneLine operands).toList ∧
      LaidOut depth (layOut depth head oneLine operands).toList (enclosed [' '] head.toList vs)
        depth := by
  rw [toList_layOut]
  refine ⟨⟨'(', _, rfl, by decide⟩, .enclosed ?_ hhead h⟩
  cases oneLine with
  | true => exact .inl rfl
  | false => exact .inr String.toList_ofList

/-- **A tree is laid out at the depth at which it begins.** -/
theorem indentedAt_laidOut (h : e.HasPlainWords) (depth : Nat) :
    BeginsVisibly (e.indentedAt depth).toList ∧
      LaidOut depth (e.indentedAt depth).toList e.compact.toList depth := by
  induction e using induction_on generalizing depth with
  | literal l => exact ⟨h.isPlain_text.beginsVisibly, .plain h.isPlain_text⟩
  | list items =>
    have hlist := toList_compact_list items
    rw [show (Expr.list items).indentedAt depth = (Expr.list items).compact from rfl, hlist]
    exact ⟨⟨'[', _, rfl, by decide⟩, .list h.isPlain_items⟩
  | group inner ih =>
    rw [toList_compact_group, indentedAt_group]
    exact layOut_laidOut isPlain_group _ (.cons (ih h.inner _) .nil)
  | binary op l r ihl ihr =>
    rw [toList_compact_binary, indentedAt_binary]
    exact layOut_laidOut op.isPlain_spelling _
      (.cons (ihl h.left _) (.cons (ihr h.right _) .nil))

/-- **Indented and one-line texts differ in blanks alone.** With each line break and the spaces
behind it replaced by one space, the indented text is the text on one line. Behind each line break
there are twice as many spaces as parentheses are open, and then no blank. -/
theorem indented_layout (h : e.HasPlainWords) :
    unbreak e.indented.toList = e.compact.toList ∧
    ∀ before behind, e.indented.toList = before ++ '\n' :: behind → ∃ c rest,
      behind = List.replicate (2 * openParens before) ' ' ++ c :: rest ∧
        Text.isBlank c = false := by
  have hlaidOut := (indentedAt_laidOut h 0).2
  refine ⟨?_, hlaidOut.indented⟩
  have hjoined := hlaidOut.joined []
  rwa [unbreak, List.append_nil, List.append_nil] at hjoined

/-- Two of the trees in this one are on one line; two parentheses are open where the last line
begins. -/
theorem indented_layout_mixed :
    let tree : Expr := .filtered (.comparison .equal (.literal (.word "a")) (.literal (.integer 1)))
      (.group (.membership (.literal (.word "b")) (.list ⟨.integer 2, [.word "c"]⟩)))
    let before := "(where\n  (== a 1)\n  (group"
    let behind := "    (in b [2 c])))"
    tree.HasPlainWords ∧
      unbreak tree.indented.toList = "(where (== a 1) (group (in b [2 c])))".toList ∧
      tree.indented.toList = before.toList ++ '\n' :: behind.toList ∧
      ∃ c rest, behind.toList = List.replicate (2 * openParens before.toList) ' ' ++ c :: rest ∧
        Text.isBlank c = false := by
  intro tree before behind
  have ha : IsPlain "a".toList := isPlain_of_isWordChar (by decide) (by decide)
  have hb : IsPlain "b".toList := isPlain_of_isWordChar (by decide) (by decide)
  have hc : IsPlain "c".toList := isPlain_of_isWordChar (by decide) (by decide)
  have htree : tree.HasPlainWords :=
    List.forall_mem_cons.2 ⟨ha, List.forall_mem_cons.2 ⟨hb, List.forall_mem_singleton.2 hc⟩⟩
  have hcompact : tree.compact = "(where (== a 1) (group (in b [2 c])))" := by decide
  have hindented : tree.indented.toList = before.toList ++ '\n' :: behind.toList := by decide
  obtain ⟨hunbreak, hbreaks⟩ := indented_layout htree
  exact ⟨htree, hunbreak.trans (congrArg String.toList hcompact), hindented, hbreaks _ _ hindented⟩

end Expr

end FactQuery
