import Mathlib
import FactQuery.Token.Adjacency

/-!
# Violations by position

Whether a token violates the rules on neighbours can be told from the tokens up to it. It is inside
a list if the last bracket so far opens one (`insideAfter`), whatever was opened or closed before.
Inside a list every keyword but the brackets is a violation, outside a list every literal right
behind another one (`ViolatedAt`).

**Theorem (`checkAdjacency_first_violation`).** The check fails exactly if there is a violation,
and then with the first one. The text is not looked at, but is part of the error.

The check goes through the tokens with a flag and the previous token. Both are determined by the
tokens passed so far (`insideAfter_concat`), so the check is a search through all positions
(`adjacencyFault?_eq_findSome?`).
-/

namespace FactQuery

/-- The opening or the closing bracket of a list. -/
def Token.isListBracket : Token → Bool
  | .keyword .openList | .keyword .closeList => true
  | _ => false

/-- Whether the last bracket among the tokens opens a list. -/
def insideAfter (tokens : List Token) : Bool :=
  (tokens.filter Token.isListBracket).getLast? == some (.keyword .openList)

/-- The token at a position is inside a list if the last bracket up to it, itself included, opens
one. -/
def InsideListAt (tokens : List Token) (i : Nat) : Prop := insideAfter (tokens.take (i + 1)) = true

/-- What is wrong with the token at a position. -/
inductive ViolatedAt (tokens : List Token) : Nat → LexFault → Prop
  | operator {i : Nat} {k : Keyword} (hk : tokens[i]? = some (.keyword k)) (hopen : k ≠ .openList)
      (hclose : k ≠ .closeList) (hinside : InsideListAt tokens i) :
      ViolatedAt tokens i .listContent
  | literals {i : Nat} {l r : Literal} (hl : tokens[i]? = some (.literal l))
      (hr : tokens[i + 1]? = some (.literal r)) (houtside : ¬ InsideListAt tokens (i + 1)) :
      ViolatedAt tokens (i + 1) (.illegalCombination (.literal l) (.literal r))

/-- What the check says about the token at a position. -/
def faultAt? (tokens : List Token) (i : Nat) : Option LexFault :=
  tokens[i]?.bind (neighbourFault? (insideAfter (tokens.take (i + 1))) (tokens.take i).getLast?)

/-! ## One token -/

theorem Token.isOperator_iff {t : Token} :
    t.isOperator = true ↔ ∃ k, t = .keyword k ∧ k ≠ .openList ∧ k ≠ .closeList := by
  cases t with
  | keyword k => cases k <;> simp [isOperator]
  | literal l => simp [isOperator]

theorem neighbourFault?_eq_some_iff {inside : Bool} {previous : Option Token} {t : Token}
    {fault : LexFault} :
    neighbourFault? inside previous t = some fault ↔
      (inside = true ∧ t.isOperator = true ∧ fault = .listContent) ∨
      (inside = false ∧ ∃ l r, previous = some (.literal l) ∧ t = .literal r ∧
        fault = .illegalCombination (.literal l) (.literal r)) := by
  unfold neighbourFault?
  cases inside with
  | true => simp only [if_true, Option.ite_none_right_eq_some, Option.some.injEq, true_and,
      Bool.true_eq_false, false_and, or_false, @eq_comm _ fault]
  | false =>
    rcases previous with _ | (k | l)
    · simp
    · simp [Token.isLiteral, Token.literal?]
    · cases t <;> simp [Token.isLiteral, Token.literal?, @eq_comm _ fault]

theorem getLast?_take_succ {α : Type} {l : List α} {i : Nat} {a : α} (h : l[i + 1]? = some a) :
    (l.take (i + 1)).getLast? = l[i]? := by
  obtain ⟨hlt, -⟩ := List.getElem?_eq_some_iff.1 h
  rw [List.getLast?_take, if_neg (Nat.succ_ne_zero i), Nat.add_sub_cancel,
    List.getElem?_eq_getElem (Nat.lt_of_succ_lt hlt), Option.some_or]

/-- What the check says of a token is what is wrong with it. -/
theorem faultAt?_eq_some_iff {tokens : List Token} {i : Nat} {fault : LexFault} :
    faultAt? tokens i = some fault ↔ ViolatedAt tokens i fault := by
  simp only [faultAt?, Option.bind_eq_some_iff, neighbourFault?_eq_some_iff, Token.isOperator_iff]
  constructor
  · rintro ⟨t, ht, ⟨hinside, ⟨k, rfl, hopen, hclose⟩, rfl⟩ | ⟨houtside, l, r, hl, rfl, rfl⟩⟩
    · exact .operator ht hopen hclose hinside
    · cases i with
      | zero => cases hl
      | succ i =>
        rw [getLast?_take_succ ht] at hl
        exact .literals hl ht (Bool.eq_false_iff.1 houtside)
  · intro h
    cases h with
    | operator hk hopen hclose hinside =>
      exact ⟨_, hk, .inl ⟨hinside, ⟨_, rfl, hopen, hclose⟩, rfl⟩⟩
    | literals hl hr houtside =>
      refine ⟨_, hr, .inr ⟨Bool.eq_false_iff.2 houtside, _, _, ?_, rfl, rfl⟩⟩
      rw [getLast?_take_succ hr, hl]

theorem faultAt?_eq_none_iff {tokens : List Token} {i : Nat} :
    faultAt? tokens i = none ↔ ∀ fault, ¬ ViolatedAt tokens i fault := by
  simp only [Option.eq_none_iff_forall_ne_some, ne_eq, faultAt?_eq_some_iff]

/-! ## Going through the tokens -/

theorem insideAfter_concat (tokens : List Token) (t : Token) :
    insideAfter (tokens ++ [t]) = insideList (insideAfter tokens) t := by
  unfold insideAfter
  rw [List.filter_append]
  cases t with
  | keyword k => cases k <;> simp [insideList, Token.isListBracket]
  | literal l => simp [insideList, Token.isListBracket]

theorem faultAt?_length (before tokens : List Token) (t : Token) :
    faultAt? (before ++ t :: tokens) before.length =
      neighbourFault? (insideList (insideAfter before) t) before.getLast? t := by
  have htake : (before ++ t :: tokens).take (before.length + 1) = before ++ [t] := by
    rw [List.append_cons]
    exact List.take_left' List.length_append
  rw [faultAt?, htake, insideAfter_concat, List.take_left, List.getElem?_append_right le_rfl,
    Nat.sub_self]
  rfl

/-- **The check is a search**: from where it stands, through all the positions behind. -/
theorem adjacencyFaultFrom?_eq_findSome? (before tokens : List Token) :
    adjacencyFaultFrom? (insideAfter before) before.getLast? tokens =
      (List.range' before.length tokens.length).findSome? (faultAt? (before ++ tokens)) := by
  induction tokens generalizing before with
  | nil => rfl
  | cons t tokens ih =>
    have hrest := ih (before ++ [t])
    rw [insideAfter_concat, List.getLast?_concat, List.length_append, List.length_singleton,
      List.append_assoc, List.singleton_append] at hrest
    rw [adjacencyFaultFrom?, List.length_cons, List.range'_succ, List.findSome?_cons,
      faultAt?_length, hrest]
    cases neighbourFault? (insideList (insideAfter before) t) before.getLast? t <;> rfl

theorem adjacencyFault?_eq_findSome? (tokens : List Token) :
    adjacencyFault? tokens = (List.range tokens.length).findSome? (faultAt? tokens) := by
  rw [List.range_eq_range']
  exact adjacencyFaultFrom?_eq_findSome? [] tokens

/-- A search through the first positions finds the least one at which there is something. -/
theorem findSome?_range_eq_some_iff {α : Type} {f : Nat → Option α} {n : Nat} {a : α} :
    (List.range n).findSome? f = some a ↔ ∃ i < n, f i = some a ∧ ∀ j < i, f j = none := by
  rw [List.range_eq_range', List.findSome?_eq_some_iff]
  constructor
  · rintro ⟨before, i, behind, hsplit, hi, hbefore⟩
    obtain ⟨k, hk, rfl, hcons⟩ := List.range'_eq_append_iff.1 hsplit
    obtain ⟨rfl, hlt, -⟩ := List.range'_eq_cons_iff.1 hcons.symm
    refine ⟨_, by omega, hi, fun j hj => hbefore j (List.mem_range'_1.2 (by omega))⟩
  · rintro ⟨i, hlt, hi, hbefore⟩
    obtain ⟨m, rfl⟩ := Nat.exists_eq_add_of_lt hlt
    refine ⟨List.range' 0 i, i, List.range' (i + 1) m, ?_, hi, fun j hj => hbefore j ?_⟩
    · rw [Nat.add_assoc, ← List.range'_append_1, Nat.zero_add, List.range'_succ]
    · simpa using hj

theorem lt_length_of_faultAt? {tokens : List Token} {i : Nat} {fault : LexFault}
    (h : faultAt? tokens i = some fault) : i < tokens.length := by
  obtain ⟨t, ht, -⟩ := Option.bind_eq_some_iff.1 h
  exact (List.getElem?_eq_some_iff.1 ht).1

theorem adjacencyFault?_eq_none_iff {tokens : List Token} :
    adjacencyFault? tokens = none ↔ ∀ i fault, ¬ ViolatedAt tokens i fault := by
  simp only [adjacencyFault?_eq_findSome?, List.findSome?_eq_none_iff, List.mem_range,
    ← faultAt?_eq_none_iff]
  refine ⟨fun h i => ?_, fun h i _ => h i⟩
  by_contra hfault
  obtain ⟨fault, hi⟩ := Option.ne_none_iff_exists'.1 hfault
  exact hfault (h i (lt_length_of_faultAt? hi))

/-- **The first violation** is the fault that is found. -/
theorem adjacencyFault?_eq_some_iff {tokens : List Token} {fault : LexFault} :
    adjacencyFault? tokens = some fault ↔
      ∃ i, ViolatedAt tokens i fault ∧ ∀ j < i, ∀ fault', ¬ ViolatedAt tokens j fault' := by
  simp only [adjacencyFault?_eq_findSome?, findSome?_range_eq_some_iff, faultAt?_eq_none_iff,
    faultAt?_eq_some_iff]
  refine exists_congr fun i => ⟨fun ⟨_, h⟩ => h, fun h => ⟨?_, h⟩⟩
  exact lt_length_of_faultAt? (faultAt?_eq_some_iff.2 h.1)

/-- **The check reports the first violation**, and accepts the tokens if there is none. The text has
no part in it, but to be shown with the fault. -/
theorem checkAdjacency_first_violation (tokens : List Token) (source : String) :
    (checkAdjacency tokens source = .ok () ↔ ∀ i fault, ¬ ViolatedAt tokens i fault) ∧
    (∀ e, checkAdjacency tokens source = .error e ↔ e.source = source ∧
      ∃ i, ViolatedAt tokens i e.fault ∧ ∀ j < i, ∀ fault, ¬ ViolatedAt tokens j fault) ∧
    ∀ source', checkAdjacency tokens source' =
      (checkAdjacency tokens source).mapError fun e => { e with source := source' } := by
  simp only [← adjacencyFault?_eq_none_iff, ← adjacencyFault?_eq_some_iff, checkAdjacency]
  cases adjacencyFault? tokens with
  | none => simp [Except.mapError]
  | some fault =>
    refine ⟨by simp, fun e => ?_, fun source' => rfl⟩
    obtain ⟨fault', source'⟩ := e
    simp only [Except.error.injEq, LexError.mk.injEq, Option.some.injEq]
    rw [and_comm, @eq_comm _ source]

/-- One closing bracket is enough, however many have been opened. -/
example :
    let word (w : String) : Token := .literal (.word w)
    adjacencyFault? [.keyword .openList, .keyword .openList, word "a", word "b",
        .keyword .closeList, word "c", word "d"] =
      some (.illegalCombination (word "c") (word "d")) := by decide

end FactQuery
