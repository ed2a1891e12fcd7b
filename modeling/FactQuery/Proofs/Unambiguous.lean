import FactQuery.Proofs.Rendering

/-!
# Trees on one line

The text of a tree on one line tells what the tree is: its shape, its operators, how long its lists
are and what its literals are written as. Only what a literal is besides its text is lost, since `1`
is the text of an integer, of a binary number and of a word.

**Theorem (`compact_eq_iff_alike`).** Two trees with plain words have the same text on one line
exactly if they are alike (`Expr.Alike`). The trees need not be such as are read from tokens.

The first character tells leaves from each other and from the rest (`Expr.opening`), and the head up
to the first space tells groups and operators. What is behind comes off part by part: the text of an
operand can be cut off in front of anything that is not plain (`alike_of_append_eq`).
-/

namespace FactQuery

namespace Expr

/-- Trees of one shape with the same operators, whose literals have the same texts. -/
inductive Alike : Expr → Expr → Prop
  | literal {l l' : Literal} (h : l.text = l'.text) : Alike (.literal l) (.literal l')
  | list {items items' : Items}
      (h : items.toList.map Literal.text = items'.toList.map Literal.text) :
      Alike (.list items) (.list items')
  | group {e e' : Expr} (h : Alike e e') : Alike (.group e) (.group e')
  | junction (op : Junction) {l r l' r' : Expr} (hl : Alike l l') (hr : Alike r r') :
      Alike (.junction op l r) (.junction op l' r')
  | comparison (op : Comparator) {l r l' r' : Expr} (hl : Alike l l') (hr : Alike r r') :
      Alike (.comparison op l r) (.comparison op l' r')
  | membership {l r l' r' : Expr} (hl : Alike l l') (hr : Alike r r') :
      Alike (.membership l r) (.membership l' r')
  | filtered {s c s' c' : Expr} (hs : Alike s s') (hc : Alike c c') :
      Alike (.filtered s c) (.filtered s' c')

theorem Alike.binary {l r l' r' : Expr} (hl : Alike l l') (hr : Alike r r') (op : BinaryOp) :
    Alike (Expr.binary op l r) (Expr.binary op l' r') := by
  cases op with
  | junction op => exact .junction op hl hr
  | comparison op => exact .comparison op hl hr
  | membership => exact .membership hl hr
  | filter => exact .filtered hl hr

theorem Alike.compact_eq {m n : Expr} (h : Alike m n) : m.compact = n.compact := by
  induction h with
  | literal h => exact h
  | list h => simp only [compact, Items.text, h]
  | group _ ih => simp only [compact, ih]
  | junction _ _ _ ihl ihr | comparison _ _ _ ihl ihr | membership _ _ ihl ihr
  | filtered _ _ ihl ihr => simp only [compact, ihl, ihr]

end Expr

/-! ## Parts of a text -/

/-- A run up to the first character that does not belong to it is determined by the whole. -/
theorem run_append_inj {p : Char → Bool} {u v s t : List Char} (hu : ∀ c ∈ u, p c = true)
    (hs : ∀ c ∈ s.head?, p c = false) (hv : ∀ c ∈ v, p c = true)
    (ht : ∀ c ∈ t.head?, p c = false) (h : u ++ s = v ++ t) : u = v ∧ s = t := by
  have htake := congrArg (List.takeWhile p) h
  have hdrop := congrArg (List.dropWhile p) h
  rw [takeWhile_run hu hs, takeWhile_run hv ht] at htake
  rw [dropWhile_run hu hs, dropWhile_run hv ht] at hdrop
  exact ⟨htake, hdrop⟩

theorem BinaryOp.spelling_injective {op op' : BinaryOp} (h : op.spelling = op'.spelling) :
    op = op' := by
  have hkeyword : op.keyword = op'.keyword := by
    have hspelling := Keyword.ofSpelling?_spelling op.keyword
    rw [show op.keyword.spelling = op'.keyword.spelling from h,
      Keyword.ofSpelling?_spelling] at hspelling
    exact (Option.some.inj hspelling).symm
  have hop := BinaryOp.ofKeyword?_eq_some_iff.2 (rfl : op.keyword = op.keyword)
  rw [hkeyword, BinaryOp.ofKeyword?_eq_some_iff.2 rfl] at hop
  exact (Option.some.inj hop).symm

theorem BinaryOp.spelling_ne_group (op : BinaryOp) : op.spelling.toList ≠ "group".toList := by
  rcases op with (_ | _) | (_ | _ | _ | _ | _ | _) | _ | _ <;> decide

theorem enclosed_append_inj {head head' first first' s t : List Char}
    {others others' : List (List Char)} (hhead : IsPlain head) (hhead' : IsPlain head')
    (h : enclosed [' '] head (first :: others) ++ s =
      enclosed [' '] head' (first' :: others') ++ t) :
    head = head' ∧
      first ++ (others.flatMap ([' '] ++ ·) ++ ')' :: s) =
        first' ++ (others'.flatMap ([' '] ++ ·) ++ ')' :: t) := by
  have hspace (u : List Char) : ∀ c ∈ (' ' :: u).head?, isPlainChar c = false := by
    simpa using isPlainChar_of_mem (by simp)
  simp only [enclosed, List.flatMap_cons, List.append_assoc, List.cons_append, List.nil_append,
    List.cons.injEq, true_and] at h
  obtain ⟨rfl, hoperands⟩ :=
    run_append_inj hhead.chars (hspace _) hhead'.chars (hspace _) h
  exact ⟨rfl, (List.cons.inj hoperands).2⟩

theorem bracketed_append_inj {texts texts' : List (List Char)} {s t : List Char}
    (hne : texts ≠ []) (hne' : texts' ≠ []) (hplain : ∀ u ∈ texts, IsPlain u)
    (hplain' : ∀ u ∈ texts', IsPlain u)
    (h : [' '].intercalate texts ++ ']' :: s = [' '].intercalate texts' ++ ']' :: t) :
    texts = texts' ∧ s = t := by
  have hrun {texts : List (List Char)} (hplain : ∀ u ∈ texts, IsPlain u) :
      ∀ c ∈ [' '].intercalate texts, (c != ']') = true := by
    intro c hc
    rcases eq_or_isPlainChar_of_mem_intercalate hplain hc with rfl | hc
    · rfl
    · rw [bne_iff_ne]
      rintro rfl
      rw [isPlainChar_of_mem (by simp)] at hc
      cases hc
  have hspace {texts : List (List Char)} (hplain : ∀ u ∈ texts, IsPlain u) :
      ∀ u ∈ texts, ' ' ∉ u := by
    intro u hu hmem
    have hc := (hplain u hu).chars ' ' hmem
    rw [isPlainChar_of_mem (by simp)] at hc
    cases hc
  -- The first closing bracket is the one behind the texts.
  obtain ⟨htexts, hrest⟩ := run_append_inj (hrun hplain) (by simp) (hrun hplain') (by simp) h
  -- The texts are what stands between the spaces.
  have hsplit := congrArg (List.splitOn ' ') htexts
  rw [List.splitOn_intercalate ' ' (hspace hplain) hne,
    List.splitOn_intercalate ' ' (hspace hplain') hne'] at hsplit
  exact ⟨hsplit, (List.cons.inj hrest).2⟩

namespace Expr

/-! ## First characters -/

/-- The character that a tree begins with, unless it is a literal. -/
def opening : Expr → Option Char
  | .literal _ => none
  | .list _ => some '['
  | _ => some '('

theorem opening_binary (op : BinaryOp) (l r : Expr) : (binary op l r).opening = some '(' := by
  cases op <;> rfl

/-- A plain first character is that of a literal, and any other one is the opening. -/
theorem exists_first {e : Expr} (h : e.HasPlainWords) :
    ∃ c tail, e.compact.toList = c :: tail ∧
      e.opening = if isPlainChar c then none else some c := by
  cases e using cases_on with
  | literal l =>
    obtain ⟨hne, hchars⟩ := h.isPlain_text
    obtain ⟨c, tail, htext⟩ := List.exists_cons_of_ne_nil hne
    exact ⟨c, tail, htext, by rw [hchars c (by simp [htext])]; rfl⟩
  | list items => exact ⟨'[', _, toList_compact_list items,
      by rw [isPlainChar_of_mem (by simp)]; rfl⟩
  | group inner => exact ⟨'(', _, toList_compact_group inner,
      by rw [isPlainChar_of_mem (by simp)]; rfl⟩
  | binary op l r => exact ⟨'(', _, toList_compact_binary op l r,
      by rw [opening_binary, isPlainChar_of_mem (by simp)]; rfl⟩

theorem opening_eq {m n : Expr} (hm : m.HasPlainWords) (hn : n.HasPlainWords) {s t : List Char}
    (h : m.compact.toList ++ s = n.compact.toList ++ t) : m.opening = n.opening := by
  obtain ⟨c, u, hu, hopen⟩ := exists_first hm
  obtain ⟨d, v, hv, hopen'⟩ := exists_first hn
  rw [hu, hv] at h
  rw [hopen, hopen', (List.cons.inj h).1]

/-! ## Operands off the front -/

section
variable {m n l r l' r' : Expr} {op op' : BinaryOp} {s t : List Char}

theorem group_append_inj
    (h : (Expr.group m).compact.toList ++ s = (Expr.group n).compact.toList ++ t) :
    m.compact.toList ++ ')' :: s = n.compact.toList ++ ')' :: t := by
  rw [toList_compact_group, toList_compact_group] at h
  exact (enclosed_append_inj isPlain_group isPlain_group h).2

theorem group_append_ne_binary (m l r : Expr) (op : BinaryOp) (s t : List Char) :
    (Expr.group m).compact.toList ++ s ≠ (binary op l r).compact.toList ++ t := by
  intro h
  rw [toList_compact_group, toList_compact_binary] at h
  exact op.spelling_ne_group (enclosed_append_inj isPlain_group op.isPlain_spelling h).1.symm

theorem binary_append_inj
    (h : (binary op l r).compact.toList ++ s = (binary op' l' r').compact.toList ++ t) :
    op = op' ∧ l.compact.toList ++ ' ' :: (r.compact.toList ++ ')' :: s) =
      l'.compact.toList ++ ' ' :: (r'.compact.toList ++ ')' :: t) := by
  rw [toList_compact_binary, toList_compact_binary] at h
  obtain ⟨hhead, hoperands⟩ := enclosed_append_inj op.isPlain_spelling op'.isPlain_spelling h
  simp only [List.flatMap_cons, List.flatMap_nil, List.append_nil, List.cons_append,
    List.nil_append] at hoperands
  exact ⟨BinaryOp.spelling_injective (String.toList_injective hhead), hoperands⟩

theorem list_append_inj {items items' : Items} (hm : (Expr.list items).HasPlainWords)
    (hn : (Expr.list items').HasPlainWords)
    (h : (Expr.list items).compact.toList ++ s = (Expr.list items').compact.toList ++ t) :
    items.toList.map Literal.text = items'.toList.map Literal.text ∧ s = t := by
  rw [toList_compact_list, toList_compact_list] at h
  simp only [List.cons_append, List.append_assoc, List.nil_append, List.cons.injEq, true_and] at h
  obtain ⟨htexts, hrest⟩ := bracketed_append_inj (by simp [Items.toList]) (by simp [Items.toList])
    hm.isPlain_items hn.isPlain_items h
  exact ⟨List.map_injective_iff.2 (fun _ _ => String.toList_injective) htexts, hrest⟩

/-- **The text of a tree can be cut off** in front of a character that is not plain, and tells what
the tree is. -/
theorem alike_of_append_eq (hm : m.HasPlainWords) (hn : n.HasPlainWords)
    (hs : ∀ c ∈ s.head?, isPlainChar c = false) (ht : ∀ c ∈ t.head?, isPlainChar c = false)
    (h : m.compact.toList ++ s = n.compact.toList ++ t) : Alike m n ∧ s = t := by
  have hbehind {c : Char} (hc : c ∈ [' ', '\n', '(', ')', '[', ']']) (u : List Char) :
      ∀ d ∈ (c :: u).head?, isPlainChar d = false := by
    simpa using isPlainChar_of_mem hc
  induction m using induction_on generalizing n s t with
  | literal l =>
    have hopen := opening_eq hm hn h
    cases n using cases_on with
    | literal l' =>
      obtain ⟨htext, hrest⟩ := run_append_inj hm.isPlain_text.chars hs hn.isPlain_text.chars ht h
      exact ⟨.literal (String.toList_injective htext), hrest⟩
    | list items => cases hopen
    | group inner => cases hopen
    | binary op l r => cases (opening_binary op l r).symm.trans hopen.symm
  | list items =>
    have hopen := opening_eq hm hn h
    cases n using cases_on with
    | literal l' => cases hopen
    | list items' =>
      obtain ⟨htexts, hrest⟩ := list_append_inj hm hn h
      exact ⟨.list htexts, hrest⟩
    | group inner => cases hopen
    | binary op l r => cases (opening_binary op l r).symm.trans hopen.symm
  | group inner ih =>
    have hopen := opening_eq hm hn h
    cases n using cases_on with
    | literal l' => cases hopen
    | list items => cases hopen
    | group inner' =>
      obtain ⟨hinner, hrest⟩ :=
        ih hm.inner hn.inner (hbehind (by simp) s) (hbehind (by simp) t) (group_append_inj h)
      exact ⟨.group hinner, (List.cons.inj hrest).2⟩
    | binary op l r => exact absurd h (group_append_ne_binary inner l r op s t)
  | binary op l r ihl ihr =>
    have hopen := (opening_binary op l r).symm.trans (opening_eq hm hn h)
    cases n using cases_on with
    | literal l' => cases hopen
    | list items => cases hopen
    | group inner' => exact absurd h.symm (group_append_ne_binary inner' l r op t s)
    | binary op' l' r' =>
      obtain ⟨rfl, hoperands⟩ := binary_append_inj h
      obtain ⟨hl, hright⟩ :=
        ihl hm.left hn.left (hbehind (by simp) _) (hbehind (by simp) _) hoperands
      obtain ⟨hr, hrest⟩ :=
        ihr hm.right hn.right (hbehind (by simp) s) (hbehind (by simp) t) (List.cons.inj hright).2
      exact ⟨hl.binary hr op, (List.cons.inj hrest).2⟩

end

/-- **The text on one line tells what a tree is**, but for what its literals are besides their
texts. -/
theorem compact_eq_iff_alike {m n : Expr} (hm : m.HasPlainWords) (hn : n.HasPlainWords) :
    m.compact = n.compact ↔ Alike m n := by
  refine ⟨fun h => ?_, Alike.compact_eq⟩
  have happend : m.compact.toList ++ [] = n.compact.toList ++ [] := by rw [h]
  exact (alike_of_append_eq hm hn (by simp) (by simp) happend).1

/-- A word may be a number's text or the head of a group, and nothing else is mistaken. -/
theorem compact_eq_iff_alike_numbers :
    let tree (one two : Literal) : Expr :=
      .group (.membership (.literal (.word "group")) (.list ⟨one, [two]⟩))
    let m := tree (.integer 1) (.word "2")
    let n := tree (.word "1") (.integer 2)
    m.HasPlainWords ∧ n.HasPlainWords ∧ m.compact = n.compact ∧ Alike m n := by
  intro tree m n
  have hone : IsPlain "1".toList := isPlain_of_isWordChar (by decide) (by decide)
  have htwo : IsPlain "2".toList := isPlain_of_isWordChar (by decide) (by decide)
  have hm : m.HasPlainWords :=
    List.forall_mem_cons.2 ⟨isPlain_group, List.forall_mem_singleton.2 htwo⟩
  have hn : n.HasPlainWords :=
    List.forall_mem_cons.2 ⟨isPlain_group, List.forall_mem_singleton.2 hone⟩
  have hcompact : m.compact = n.compact := by decide
  exact ⟨hm, hn, hcompact, (compact_eq_iff_alike hm hn).1 hcompact⟩

end Expr

end FactQuery
