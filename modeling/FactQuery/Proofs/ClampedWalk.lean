import FactQuery.Proofs.Backtracking

/-!
# Walks of a cursor

A cursor counts the tokens before it. The count goes up and down by one, and is clamped between zero
and the number of tokens.

**The end as a flag** (`FlaggedCursor`). A cursor may keep beside its index whether it stands at the
end, and ask nothing but the flag. Each of its moves is stopped at one end only and sets the flag
anew, so that nothing but the moves sees to it that the flag is right.

**Walks.** A walk is a sequence of moves from the first token on. After every walk both cursors
stand at the same place, and the flag says whether it is the end (`Cursor.flagged_walk`).

**Theorem (`walk_clamped`).** Where a walk ends is the sum of its moves, clamped after each of them.
The token there is what the cursor shows, and one move on and one back make no difference before the
end.
-/

namespace FactQuery

/-- One move of a cursor. -/
inductive Move where
  | next
  | back
deriving DecidableEq

/-- How far a move goes where no end is in the way. -/
def Move.distance : Move → Int
  | .next => 1
  | .back => -1

/-- A move of a counter between zero and a length. -/
def clampedMove (length : Nat) (n : Int) (move : Move) : Int :=
  max 0 (min length (n + move.distance))

/-- Where a counter gets from zero. -/
def clampedWalk (length : Nat) (moves : List Move) : Int := moves.foldl (clampedMove length) 0

/-! ## Cursors that count -/

namespace Cursor

def move (c : Cursor) : Move → Cursor
  | .next => c.next
  | .back => c.back

def walk (c : Cursor) (moves : List Move) : Cursor := moves.foldl move c

theorem tokens_move (c : Cursor) (m : Move) : (c.move m).tokens = c.tokens := by
  cases m <;> rfl

theorem index_move (c : Cursor) (m : Move) :
    ((c.move m).index : Int) = clampedMove c.tokens.length c.index m := by
  have hle := c.index_le
  cases m with
  | next =>
    show ((min (c.index + 1) c.tokens.length : Nat) : Int) =
      max 0 (min (c.tokens.length : Int) ((c.index : Int) + 1))
    omega
  | back =>
    show ((min (c.index - 1) c.tokens.length : Nat) : Int) =
      max 0 (min (c.tokens.length : Int) ((c.index : Int) + -1))
    omega

theorem tokens_walk (c : Cursor) (moves : List Move) : (c.walk moves).tokens = c.tokens := by
  induction moves generalizing c with
  | nil => rfl
  | cons m moves ih => exact (ih (c.move m)).trans (c.tokens_move m)

/-- **A walk counts.** From any place, the index is what the counter makes of the moves. -/
theorem index_walk (c : Cursor) (moves : List Move) :
    ((c.walk moves).index : Int) = moves.foldl (clampedMove c.tokens.length) c.index := by
  induction moves generalizing c with
  | nil => rfl
  | cons m moves ih =>
    rw [List.foldl_cons, ← c.index_move m, ← c.tokens_move m]
    exact ih (c.move m)

theorem isAtEnd_iff (c : Cursor) : c.isAtEnd = true ↔ c.index = c.tokens.length := beq_iff_eq

theorem current?_eq_none_iff (c : Cursor) : c.current? = none ↔ c.index = c.tokens.length := by
  have hle := c.index_le
  rw [current?, List.getElem?_eq_none_iff]
  omega

end Cursor

/-! ## Cursors that keep a flag -/

/-- A cursor that keeps whether it stands at the end. -/
structure FlaggedCursor where
  tokens : List Token
  index : Nat
  atEnd : Bool

namespace FlaggedCursor

def ofTokens (tokens : List Token) : FlaggedCursor := ⟨tokens, 0, tokens.isEmpty⟩

/-- The cursor at an index, with the flag set for it. -/
def place (tokens : List Token) (index : Nat) : FlaggedCursor :=
  ⟨tokens, index, decide (tokens.length ≤ index)⟩

/-- One token on, unless the last one is passed. -/
def next (f : FlaggedCursor) : FlaggedCursor :=
  place f.tokens (if f.index < f.tokens.length then f.index + 1 else f.index)

/-- One token back, unless the first one is reached. -/
def back (f : FlaggedCursor) : FlaggedCursor := place f.tokens (f.index - 1)

/-- The token at the cursor, if the flag does not say that there is none. -/
def current? (f : FlaggedCursor) : Option Token :=
  if f.atEnd then none else f.tokens[f.index]?

def move (f : FlaggedCursor) : Move → FlaggedCursor
  | .next => f.next
  | .back => f.back

def walk (f : FlaggedCursor) (moves : List Move) : FlaggedCursor := moves.foldl move f

end FlaggedCursor

namespace Cursor

/-- The cursor with the flag that is right for it. -/
def flagged (c : Cursor) : FlaggedCursor := ⟨c.tokens, c.index, c.isAtEnd⟩

theorem flagged_injective {c c' : Cursor} (h : c.flagged = c'.flagged) : c = c' := by
  obtain ⟨tokens, index, hle⟩ := c
  obtain ⟨tokens', index', hle'⟩ := c'
  obtain ⟨rfl, rfl, -⟩ := FlaggedCursor.mk.inj h
  rfl

theorem flagged_eq_place (c : Cursor) : c.flagged = .place c.tokens c.index := by
  have hle := c.index_le
  have hflag : c.isAtEnd = decide (c.tokens.length ≤ c.index) := by
    rw [Bool.eq_iff_iff, isAtEnd_iff, decide_eq_true_eq]
    omega
  rw [flagged, hflag, FlaggedCursor.place]

theorem flagged_ofTokens (tokens : List Token) :
    FlaggedCursor.ofTokens tokens = (ofTokens tokens).flagged := by
  cases tokens <;> rfl

/-- A move keeps the flag right. The end at which it is not stopped is out of its reach. -/
theorem flagged_move (c : Cursor) (m : Move) : c.flagged.move m = (c.move m).flagged := by
  have hle := c.index_le
  rw [flagged_eq_place (c.move m), tokens_move]
  cases m with
  | next =>
    have hindex : (if c.index < c.tokens.length then c.index + 1 else c.index) =
        min (c.index + 1) c.tokens.length := by
      split <;> omega
    exact congrArg (FlaggedCursor.place c.tokens) hindex
  | back =>
    have hindex : c.index - 1 = min (c.index - 1) c.tokens.length := by omega
    exact congrArg (FlaggedCursor.place c.tokens) hindex

/-- **A walk keeps the flag right.** -/
theorem flagged_walk (c : Cursor) (moves : List Move) :
    c.flagged.walk moves = (c.walk moves).flagged :=
  List.foldl_hom flagged flagged_move

theorem current?_flagged (c : Cursor) : c.flagged.current? = c.current? := by
  show (if c.isAtEnd then none else c.tokens[c.index]?) = c.current?
  by_cases h : c.isAtEnd = true
  · rw [if_pos h, c.current?_eq_none_iff.2 (c.isAtEnd_iff.1 h)]
  · rw [if_neg h, current?]

end Cursor

/-- **Walks are clamped.** After any moves from the first token on, the cursor stands where the
clamped counter gets by them, and there is the end exactly if all the tokens are passed. One move on
and one back restore the cursor exactly before the end, or if there is no token at all. A cursor
with a flag stands at the same place, shows the same token, and is restored in the same places. -/
theorem walk_clamped (tokens : List Token) (moves : List Move) :
    let c := (Cursor.ofTokens tokens).walk moves
    let f := (FlaggedCursor.ofTokens tokens).walk moves
    ((c.index : Int) = clampedWalk tokens.length moves ∧ c.tokens = tokens ∧
      (c.isAtEnd = true ↔ c.index = tokens.length) ∧
      c.current? = tokens[c.index]? ∧ (c.current? = none ↔ c.index = tokens.length) ∧
      (c.next.back = c ↔ c.index < tokens.length ∨ tokens = [])) ∧
    f.index = c.index ∧ f.tokens = c.tokens ∧ f.atEnd = c.isAtEnd ∧ f.current? = c.current? ∧
      (f.next.back = f ↔ c.next.back = c) := by
  intro c f
  have hindex : (c.index : Int) = clampedWalk tokens.length moves :=
    (Cursor.ofTokens tokens).index_walk moves
  have htokens : c.tokens = tokens := (Cursor.ofTokens tokens).tokens_walk moves
  have hf : f = c.flagged := by
    show (FlaggedCursor.ofTokens tokens).walk moves = _
    rw [Cursor.flagged_ofTokens, Cursor.flagged_walk]
  refine ⟨⟨hindex, htokens, ?_, ?_, ?_, ?_⟩, ?_⟩
  · rw [c.isAtEnd_iff, htokens]
  · rw [Cursor.current?, htokens]
  · rw [c.current?_eq_none_iff, htokens]
  · rw [c.next_back_eq_self_iff, htokens]
  · have hround : f.next.back = c.next.back.flagged := by
      have hnext : c.flagged.next = c.next.flagged := c.flagged_move .next
      have hback : c.next.flagged.back = c.next.back.flagged := c.next.flagged_move .back
      rw [hf, hnext, hback]
    rw [hround, hf]
    exact ⟨rfl, rfl, rfl, c.current?_flagged,
      fun h => Cursor.flagged_injective h, congrArg Cursor.flagged⟩

/-- Behind the only token the second move on does not count, and the move back does. -/
example (t : Token) : ((Cursor.ofTokens [t]).walk [.next, .next, .back]).index = 0 := rfl

end FactQuery
