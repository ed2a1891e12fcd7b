import FactQuery.Proofs.Spacing

/-!
# A lexer asked again and again

A lexer can be asked for the next token however often, also after an error.

**Theorem (`steps_settle`).** At first every answer is a token or a run of digits and points that is
no number, and takes at least one character of the text. From some question on the answer is always
the same: the end of the text, or an error at a character that begins nothing. There are at most as
many questions before as the text has characters. Each answer is what a new lexer says first of the
text that has not been read, but for the place of an error.

One question either takes something or leaves the lexer stuck (`takes_or_stuck`): an obstacle that
is not passed over stands in front of the text that is left (`IsObstacle`), so that it is met again.
The length of that text bounds the questions until then (`exists_stuck`).
-/

namespace FactQuery

namespace Lexer

/-- The lexer after `n` questions. -/
def after : Nat → Lexer → Lexer
  | 0, lexer => lexer
  | n + 1, lexer => after n lexer.next.2

def position (lexer : Lexer) : Nat := lexer.source.length - lexer.rest.length

/-- An answer behind which there may be another one. -/
inductive Passing (source : String) : Except LexError (Option Token) → Prop
  | token (t : Token) : Passing source (.ok (some t))
  | invalidNumber (run : String) : Passing source (.error ⟨.invalidNumber run, source⟩)

/-- An answer that is given for good. -/
inductive Lasting (source : String) : Except LexError (Option Token) → Prop
  | finish : Lasting source (.ok none)
  | invalidCharacter (c : Char) (position : Nat) :
      Lasting source (.error ⟨.invalidCharacter c position, source⟩)
  | unknownSymbol (c : Char) (position : Nat) :
      Lasting source (.error ⟨.unknownSymbol c position, source⟩)

/-! ## One question -/

/-- The answer is not the last one, and takes some of the text. -/
structure Takes (lexer : Lexer) : Prop where
  answer : Passing lexer.source lexer.next.1
  length_lt : lexer.next.2.rest.length < lexer.rest.length

/-- The answer is a lasting one, and is given again. -/
structure Stuck (lexer : Lexer) : Prop where
  answer : Lasting lexer.source lexer.next.1
  next_eq : lexer.next.2.next = lexer.next

variable {lexer : Lexer}

theorem next_of_finish (h : Lexeme.read lexer.rest = .finish) :
    lexer.next = (.ok none, { lexer with rest := [] }) := by
  simp only [next, h]

theorem next_of_token {t : Token} {rest : List Char}
    (h : Lexeme.read lexer.rest = .token t rest) :
    lexer.next = (.ok (some t), { lexer with rest }) := by
  simp only [next, h]

theorem next_of_obstacle {o : Obstacle} {rest : List Char}
    (h : Lexeme.read lexer.rest = .obstacle o rest) :
    lexer.next = (.error (o.error lexer.source rest.length), { lexer with rest }) := by
  simp only [next, h]

theorem next_source (lexer : Lexer) : lexer.next.2.source = lexer.source := by
  unfold next
  split <;> rfl

theorem next_suffix (lexer : Lexer) : lexer.next.2.rest <:+ lexer.rest := by
  cases hread : Lexeme.read lexer.rest with
  | finish =>
    rw [next_of_finish hread]
    exact List.nil_suffix
  | token t rest =>
    obtain ⟨blanks, run, hs, -, -⟩ := Lexeme.isLexeme_of_read hread
    rw [next_of_token hread, hs, ← List.append_assoc]
    exact List.suffix_append _ rest
  | obstacle o rest =>
    obtain ⟨blanks, behind, hs, -, hobstacle⟩ := Lexeme.isObstacle_of_read hread
    rw [next_of_obstacle hread, hs]
    exact hobstacle.suffix.trans (List.suffix_append blanks behind)

/-- At an obstacle, a run that is no number is passed over. Anything else is met again. -/
theorem takes_or_stuck_of_obstacle {o : Obstacle} {rest : List Char}
    (h : Lexeme.read lexer.rest = .obstacle o rest) : Takes lexer ∨ Stuck lexer := by
  obtain ⟨blanks, behind, hs, -, hobstacle⟩ := Lexeme.isObstacle_of_read h
  have hnil : ∀ c ∈ ([] : List Char), Text.isBlank c = true := nofun
  have hagain : Lexeme.read behind = .obstacle o rest := Lexeme.read_of_isObstacle hnil hobstacle
  have hnext := next_of_obstacle h
  cases hobstacle with
  | @character c =>
    refine .inr ⟨?_, ?_⟩
    · rw [hnext]
      exact .invalidCharacter c _
    · rw [hnext]
      exact next_of_obstacle hagain
  | @symbol c =>
    refine .inr ⟨?_, ?_⟩
    · rw [hnext]
      exact .unknownSymbol c _
    · rw [hnext]
      exact next_of_obstacle hagain
  | @numeral run hne =>
    refine .inl ⟨?_, ?_⟩
    · rw [hnext]
      exact .invalidNumber _
    · have hpos : 0 < run.length := List.length_pos_iff.2 hne
      rw [hnext, hs]
      simp only [List.length_append]
      omega

/-- **One question** takes some of the text, or the lexer is stuck. -/
theorem takes_or_stuck (lexer : Lexer) : Takes lexer ∨ Stuck lexer := by
  cases hread : Lexeme.read lexer.rest with
  | finish =>
    refine .inr ⟨?_, ?_⟩
    · rw [next_of_finish hread]
      exact .finish
    · rw [next_of_finish hread]
      rfl
  | token t rest =>
    refine .inl ⟨?_, ?_⟩
    · rw [next_of_token hread]
      exact .token t
    · rw [next_of_token hread]
      exact Lexeme.length_lt_of_read hread
  | obstacle o rest => exact takes_or_stuck_of_obstacle hread

/-- An answer depends on the text that is left alone, but for the place of an error. -/
theorem answer_eq (h : lexer.rest.length ≤ lexer.source.length) :
    lexer.next.1 = (ofSource (String.ofList lexer.rest)).next.1.mapError
      (LexError.behind lexer.position lexer.source) := by
  have hlength : lexer.source.length = lexer.position + (String.ofList lexer.rest).length := by
    rw [String.length_ofList, position, Nat.sub_add_cancel h]
  have hfresh : Lexeme.read (ofSource (String.ofList lexer.rest)).rest = Lexeme.read lexer.rest :=
    congrArg Lexeme.read String.toList_ofList
  cases hread : Lexeme.read lexer.rest with
  | finish =>
    rw [next_of_finish hread, next_of_finish (hfresh.trans hread)]
    rfl
  | token t rest =>
    rw [next_of_token hread, next_of_token (hfresh.trans hread)]
    rfl
  | obstacle o rest =>
    have hleft : rest.length ≤ (String.ofList lexer.rest).length := by
      have hsuffix := next_suffix lexer
      rw [next_of_obstacle hread] at hsuffix
      rw [String.length_ofList]
      exact hsuffix.length_le
    rw [next_of_obstacle hread, next_of_obstacle (hfresh.trans hread)]
    exact congrArg Except.error (o.error_behind_of_le hlength hleft)

/-! ## Many questions -/

theorem steps_eq (n : Nat) (lexer : Lexer) :
    steps n lexer = (List.range n).map fun i => (lexer.after i).next.1 := by
  induction n generalizing lexer with
  | zero => rfl
  | succ n ih =>
    rw [steps, ih, List.range_succ_eq_map, List.map_cons, List.map_map]
    rfl

theorem after_add (m n : Nat) (lexer : Lexer) : lexer.after (m + n) = (lexer.after m).after n := by
  induction m generalizing lexer with
  | zero => rw [Nat.zero_add, after]
  | succ m ih => rw [Nat.add_right_comm, after, after, ih]

theorem after_source (n : Nat) (lexer : Lexer) : (lexer.after n).source = lexer.source := by
  induction n generalizing lexer with
  | zero => rfl
  | succ n ih => rw [after, ih, next_source]

theorem after_suffix (n : Nat) (lexer : Lexer) : (lexer.after n).rest <:+ lexer.rest := by
  induction n generalizing lexer with
  | zero => exact List.suffix_rfl
  | succ n ih => exact (ih lexer.next.2).trans (next_suffix lexer)

/-- A stuck lexer gives its answer for good. -/
theorem Stuck.after_next (h : Stuck lexer) (n : Nat) : (lexer.after n).next = lexer.next := by
  induction n generalizing lexer with
  | zero => rfl
  | succ n ih =>
    have hanswer : Lasting lexer.next.2.source lexer.next.2.next.1 := by
      rw [next_source, h.next_eq]
      exact h.answer
    have hstuck : Stuck lexer.next.2 := ⟨hanswer, by rw [h.next_eq, h.next_eq]⟩
    rw [after, ih hstuck, h.next_eq]

/-- **Each question takes some of the text until the lexer is stuck**, after as many questions as
there are characters at the latest. -/
theorem exists_stuck (lexer : Lexer) :
    ∃ k ≤ lexer.rest.length, (∀ i < k, Takes (lexer.after i)) ∧ Stuck (lexer.after k) := by
  -- Strong induction, since one question may take many characters.
  induction hlength : lexer.rest.length using Nat.strong_induction_on generalizing lexer with
  | _ length ih =>
    rcases takes_or_stuck lexer with htakes | hstuck
    · have hlt : lexer.next.2.rest.length < length := hlength ▸ htakes.length_lt
      obtain ⟨k, hk, hbefore, hstuck⟩ := ih _ hlt lexer.next.2 rfl
      refine ⟨k + 1, by omega, fun i hi => ?_, hstuck⟩
      cases i with
      | zero => exact htakes
      | succ i => exact hbefore i (by omega)
    · exact ⟨0, Nat.zero_le _, fun i hi => absurd hi (Nat.not_lt_zero i), hstuck⟩

/-! ## Places in the text -/

theorem rest_eq_drop (h : lexer.rest <:+ lexer.source.toList) :
    lexer.rest = lexer.source.toList.drop lexer.position := by
  rw [position, ← String.length_toList]
  exact List.suffix_iff_eq_drop.1 h

theorem Takes.position_lt (h : Takes lexer) (hlength : lexer.rest.length ≤ lexer.source.length) :
    lexer.position < lexer.next.2.position := by
  have hlt := h.length_lt
  rw [position, position, next_source]
  omega

/-- **A lexer asked again and again.** Up to some question each answer is a token or a run that is
no number, and takes at least one character of the text. From then on there is one lasting answer.
An answer depends on the text that has not been read alone, but for the place of an error. -/
theorem steps_settle (source : String) :
    (∀ n, steps n (ofSource source) =
      (List.range n).map fun i => ((ofSource source).after i).next.1) ∧
    let lexer (i : Nat) := (ofSource source).after i
    (∀ i, (lexer i).rest = source.toList.drop (lexer i).position ∧
      (lexer i).next.1 = (ofSource (String.ofList (lexer i).rest)).next.1.mapError
        (LexError.behind (lexer i).position source)) ∧
    ∃ k ≤ source.length, ∃ last, Lasting source last ∧
      (∀ i < k, Passing source (lexer i).next.1 ∧ (lexer i).position < (lexer (i + 1)).position ∧
        (lexer (i + 1)).position ≤ source.length) ∧
      ∀ i, k ≤ i → (lexer i).next.1 = last := by
  refine ⟨fun n => steps_eq n (ofSource source), ?_⟩
  intro lexer
  have hsource (i : Nat) : (lexer i).source = source := after_source i (ofSource source)
  have hsuffix (i : Nat) : (lexer i).rest <:+ (lexer i).source.toList := by
    rw [hsource]
    exact after_suffix i (ofSource source)
  have hlength (i : Nat) : (lexer i).rest.length ≤ (lexer i).source.length := by
    rw [← String.length_toList]
    exact (hsuffix i).length_le
  have hrest (i : Nat) : (lexer i).rest = source.toList.drop (lexer i).position :=
    hsource i ▸ rest_eq_drop (hsuffix i)
  have hanswer (i : Nat) : (lexer i).next.1 =
      (ofSource (String.ofList (lexer i).rest)).next.1.mapError
        (LexError.behind (lexer i).position source) :=
    hsource i ▸ answer_eq (hlength i)
  have hnext (i : Nat) : lexer (i + 1) = (lexer i).next.2 := after_add i 1 (ofSource source)
  obtain ⟨k, hk, htakes, hstuck⟩ := exists_stuck (ofSource source)
  have hkmax : k ≤ source.length := hk.trans_eq String.length_toList
  refine ⟨fun i => ⟨hrest i, hanswer i⟩, k, hkmax, (lexer k).next.1, ?_, fun i hi => ?_,
    fun i hi => ?_⟩
  · rw [← hsource k]
    exact hstuck.answer
  · have hpassing : Passing source (lexer i).next.1 := hsource i ▸ (htakes i hi).answer
    refine ⟨hpassing, hnext i ▸ (htakes i hi).position_lt (hlength i), ?_⟩
    rw [← hsource (i + 1)]
    exact Nat.sub_le _ _
  · obtain ⟨n, rfl⟩ := Nat.exists_eq_add_of_le hi
    have hafter : lexer (k + n) = (lexer k).after n := after_add k n (ofSource source)
    rw [hafter, hstuck.after_next n]

/-- A run that is no number is passed over, and a symbol that is no keyword is met for ever. -/
theorem steps_settle_symbol :
    let source := "a 1..2 & b"
    let stop : Except LexError (Option Token) := .error ⟨.unknownSymbol '&' 7, source⟩
    steps 4 (ofSource source) =
      [.ok (some (.literal (.word "a"))), .error ⟨.invalidNumber "1..2", source⟩, stop, stop] ∧
    ∀ i, 10 ≤ i → ((ofSource source).after i).next.1 = stop := by
  intro source stop
  obtain ⟨-, -, k, hk, last, -, -, hlast⟩ := steps_settle source
  have hten : ((ofSource source).after 10).next.1 = stop := by decide +kernel
  have hlength : k ≤ 10 := hk.trans_eq (by decide)
  refine ⟨by decide +kernel, fun i hi => ?_⟩
  rw [hlast i (hlength.trans hi), ← hlast 10 hlength, hten]

end Lexer

end FactQuery
