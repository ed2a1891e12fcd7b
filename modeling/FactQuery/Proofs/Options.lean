import Mathlib
import FactQuery.Command.Arguments

/-!
# Options

What the arguments behind a subcommand are, if they are accepted.

**One argument** (`Item.Written`) is an option by its long name, options by their letters, or an
expression. The value of `--facts` belongs to the same argument or is the next one.

**Theorem (`Item.ofArguments?_eq_some_iff`).** The items of some arguments are what these are, one
after another (`Item.AllWritten`). They are items of the subcommand (`Item.BelongsTo`).
-/

namespace FactQuery

/-! ## Names -/

namespace Subcommand

def name : Subcommand → String
  | .check => "check"
  | .tokens => "tokens"
  | .tree => "ast"

/-- The options of a subcommand. -/
inductive Takes : Subcommand → Flag → Prop
  | verbose (subcommand : Subcommand) : Takes subcommand .verbose
  | facts : Takes .check .facts
  | syntaxOnly : Takes .check .syntaxOnly
  | pretty : Takes .tree .pretty

theorem ofName?_eq_some_iff {arg : String} {subcommand : Subcommand} :
    ofName? arg = some subcommand ↔ arg = subcommand.name := by
  constructor
  · intro h
    unfold ofName? at h
    split_ifs at h with hcheck htokens htree
    · cases h
      exact hcheck
    · cases h
      exact htokens
    · cases h
      exact htree
  · rintro rfl
    cases subcommand <;> rfl

end Subcommand

namespace Flag

/-- The name of an option behind two dashes. -/
inductive HasName : Flag → String → Prop
  | verbose : HasName .verbose "verbose"
  | facts : HasName .facts "facts"
  | syntaxOnly : HasName .syntaxOnly "syntax-only"
  | pretty : HasName .pretty "pretty"

/-- The letter of an option behind one dash. -/
inductive HasLetter : Flag → Char → Prop
  | verbose : HasLetter .verbose 'v'
  | facts : HasLetter .facts 'f'
  | pretty : HasLetter .pretty 'p'

theorem ofLong?_eq_some_iff {subcommand : Subcommand} {name : String} {f : Flag} :
    ofLong? subcommand name = some f ↔ subcommand.Takes f ∧ f.HasName name := by
  constructor
  · intro h
    unfold ofLong? at h
    by_cases hverbose : name = "verbose"
    · rw [if_pos hverbose] at h
      cases h
      exact ⟨.verbose _, hverbose ▸ .verbose⟩
    rw [if_neg hverbose] at h
    cases subcommand with
    | check =>
      dsimp only at h
      split_ifs at h with hfacts hsyntactic
      · cases h
        exact ⟨.facts, hfacts ▸ .facts⟩
      · cases h
        exact ⟨.syntaxOnly, hsyntactic ▸ .syntaxOnly⟩
    | tokens => cases h
    | tree =>
      dsimp only at h
      split_ifs at h with hpretty
      cases h
      exact ⟨.pretty, hpretty ▸ .pretty⟩
  · rintro ⟨htakes, hname⟩
    cases htakes <;> cases hname <;> rfl

theorem ofShort?_eq_some_iff {subcommand : Subcommand} {letter : Char} {f : Flag} :
    ofShort? subcommand letter = some f ↔ subcommand.Takes f ∧ f.HasLetter letter := by
  constructor
  · intro h
    unfold ofShort? at h
    by_cases hverbose : letter = 'v'
    · rw [if_pos hverbose] at h
      cases h
      exact ⟨.verbose _, hverbose ▸ .verbose⟩
    rw [if_neg hverbose] at h
    cases subcommand with
    | check =>
      dsimp only at h
      split_ifs at h with hfacts
      cases h
      exact ⟨.facts, hfacts ▸ .facts⟩
    | tokens => cases h
    | tree =>
      dsimp only at h
      split_ifs at h with hpretty
      cases h
      exact ⟨.pretty, hpretty ▸ .pretty⟩
  · rintro ⟨htakes, hletter⟩
    cases htakes <;> cases hletter <;> rfl

end Flag

/-! ## Arguments -/

namespace Item

/-- An argument that begins with no dash, or is one. -/
def IsUndashed (arg : String) : Prop := ∀ c cs, arg.toList ≠ '-' :: c :: cs

/-- What options are by their letters, and the one that waits for the next argument as its value. -/
inductive Lettered (subcommand : Subcommand) : List Char → List Item → Option Flag → Prop
  | nil : Lettered subcommand [] [] none
  | flag {f : Flag} {letter : Char} (htakes : subcommand.Takes f) (hletter : f.HasLetter letter)
      (hf : f ≠ .facts) {letters : List Char} {items : List Item} {waiting : Option Flag}
      (h : Lettered subcommand letters items waiting) :
      Lettered subcommand (letter :: letters) (.flag f :: items) waiting
  | facts (htakes : subcommand.Takes .facts) {c : Char} (hc : c ≠ '=') (v : List Char) :
      Lettered subcommand ('f' :: c :: v) [.value .facts (String.ofList (c :: v))] none
  | factsEquals (htakes : subcommand.Takes .facts) (v : List Char) :
      Lettered subcommand ('f' :: '=' :: v) [.value .facts (String.ofList v)] none
  | factsWaiting (htakes : subcommand.Takes .facts) : Lettered subcommand ['f'] [] (some .facts)

/-- What an argument is, and the option that waits for the next one as its value. -/
inductive Written (subcommand : Subcommand) : String → List Item → Option Flag → Prop
  | long {f : Flag} {name : String} (htakes : subcommand.Takes f) (hname : f.HasName name)
      (hf : f ≠ .facts) : Written subcommand ("--" ++ name) [.flag f] none
  | facts (htakes : subcommand.Takes .facts) (v : String) :
      Written subcommand ("--facts=" ++ v) [.value .facts v] none
  | factsWaiting (htakes : subcommand.Takes .facts) :
      Written subcommand "--facts" [] (some .facts)
  | letters {letter : Char} {letters : List Char} {items : List Item} {waiting : Option Flag}
      (h : Lettered subcommand (letter :: letters) items waiting) :
      Written subcommand (String.ofList ('-' :: letter :: letters)) items waiting
  | expression {e : String} (h : IsUndashed e) : Written subcommand e [.expression e] none

/-- What the arguments behind a subcommand are. -/
inductive AllWritten (subcommand : Subcommand) : List String → List Item → Prop
  | nil : AllWritten subcommand [] []
  | cons {arg : String} {items : List Item} (harg : Written subcommand arg items none)
      {args : List String} {others : List Item} (h : AllWritten subcommand args others) :
      AllWritten subcommand (arg :: args) (items ++ others)
  | value {arg : String} {items : List Item} {f : Flag}
      (harg : Written subcommand arg items (some f)) {v : String} (hv : IsUndashed v)
      {args : List String} {others : List Item} (h : AllWritten subcommand args others) :
      AllWritten subcommand (arg :: v :: args) (items ++ .value f v :: others)
  | rest (args : List String) : AllWritten subcommand ("--" :: args) (args.map .expression)

variable {subcommand : Subcommand} {items : List Item} {waiting : Option Flag}

theorem takesValue_iff {f : Flag} : f.takesValue = true ↔ f = .facts := by
  cases f <;> decide

theorem ofLetters?_flag {f : Flag} {letter : Char} (htakes : subcommand.Takes f)
    (hletter : f.HasLetter letter) (hf : f ≠ .facts) (letters : List Char) :
    ofLetters? subcommand (letter :: letters) =
      (ofLetters? subcommand letters).map fun (items, waiting) => (.flag f :: items, waiting) := by
  rw [ofLetters?, Flag.ofShort?_eq_some_iff.2 ⟨htakes, hletter⟩]
  exact if_neg (takesValue_iff.not.2 hf)

theorem ofLetters?_facts (htakes : subcommand.Takes .facts) (letters : List Char) :
    ofLetters? subcommand ('f' :: letters) = match letters with
      | [] => some ([], some .facts)
      | '=' :: v => some ([.value .facts (String.ofList v)], none)
      | v => some ([.value .facts (String.ofList v)], none) := by
  rw [ofLetters?, Flag.ofShort?_eq_some_iff.2 ⟨htakes, .facts⟩]
  exact if_pos rfl

theorem ofLetters?_eq_some_iff {letters : List Char} :
    ofLetters? subcommand letters = some (items, waiting) ↔
      Lettered subcommand letters items waiting := by
  constructor
  · intro h
    induction letters generalizing items with
    | nil =>
      cases h
      exact .nil
    | cons letter letters ih =>
      cases hf : Flag.ofShort? subcommand letter with
      | none => simp [ofLetters?, hf] at h
      | some f =>
        obtain ⟨htakes, hletter⟩ := Flag.ofShort?_eq_some_iff.1 hf
        by_cases hfacts : f = .facts
        · subst hfacts
          cases hletter
          rw [ofLetters?_facts htakes] at h
          split at h
          · cases h
            exact .factsWaiting htakes
          · cases h
            exact .factsEquals htakes _
          · next hnil hequals =>
            cases h
            obtain ⟨c, v, rfl⟩ := List.exists_cons_of_ne_nil hnil
            refine .facts htakes ?_ v
            rintro rfl
            exact hequals v rfl
        · rw [ofLetters?_flag htakes hletter hfacts] at h
          obtain ⟨⟨others, _⟩, hothers, heq⟩ := Option.map_eq_some_iff.1 h
          cases heq
          exact .flag htakes hletter hfacts (ih hothers)
  · intro h
    induction h with
    | nil => rfl
    | flag htakes hletter hf _ ih => rw [ofLetters?_flag htakes hletter hf, ih, Option.map_some]
    | @facts htakes c hc v =>
      rw [ofLetters?_facts htakes]
      split
      · next hnil => cases hnil
      · next hequals =>
        cases hequals
        exact absurd rfl hc
      · rfl
    | factsEquals htakes | factsWaiting htakes => exact ofLetters?_facts htakes _

theorem Lettered.ne_dash {letter : Char} {letters : List Char}
    (h : Lettered subcommand (letter :: letters) items waiting) : letter ≠ '-' := by
  cases h with
  | flag _ hletter => cases hletter <;> decide
  | facts | factsEquals | factsWaiting => decide

theorem ofArgument?_facts (htakes : subcommand.Takes .facts) (v : String) :
    ofArgument? subcommand ("--facts=" ++ v) = some ([.value .facts v], none) := by
  have hlist : ("--facts=" ++ v).toList = '-' :: '-' :: ("facts".toList ++ '=' :: v.toList) := by
    simp
  cases htakes
  rw [ofArgument?, hlist]
  simp [ofLong?, Flag.ofLong?, Flag.takesValue, String.ofList_toList]

theorem ofArgument?_letters {letter : Char} (h : letter ≠ '-') (letters : List Char) :
    ofArgument? subcommand (String.ofList ('-' :: letter :: letters)) =
      ofLetters? subcommand (letter :: letters) := by
  rw [ofArgument?, String.toList_ofList]
  split
  · next heq =>
    cases heq
    exact absurd rfl h
  · next heq =>
    cases heq
    rfl
  · next hno => exact absurd rfl (hno letter letters)

/-- A long option is told from its value by the first equals sign. -/
theorem written_of_ofLong? {s : List Char} (h : ofLong? subcommand s = some (items, waiting)) :
    Written subcommand (String.ofList ('-' :: '-' :: s)) items waiting := by
  have hsplit : s = s.takeWhile (· != '=') ++ s.dropWhile (· != '=') :=
    List.takeWhile_append_dropWhile.symm
  unfold ofLong? at h
  generalize hname : String.ofList (s.takeWhile (· != '=')) = name at h
  have hlist : s.takeWhile (· != '=') = name.toList := by rw [← hname, String.toList_ofList]
  dsimp only at h
  cases hf : Flag.ofLong? subcommand name with
  | none => simp [hf] at h
  | some f =>
    obtain ⟨htakes, hname⟩ := Flag.ofLong?_eq_some_iff.1 hf
    cases hrest : s.dropWhile (· != '=') with
    | nil =>
      -- There is no equals sign, so the name is all.
      have harg : String.ofList ('-' :: '-' :: s) = "--" ++ name := by
        rw [hsplit, hlist, hrest]
        apply String.toList_injective
        simp
      rw [harg]
      simp only [hf, hrest] at h
      by_cases hfacts : f = .facts
      · subst hfacts
        cases hname
        cases h
        exact .factsWaiting htakes
      · rw [if_neg (takesValue_iff.not.2 hfacts)] at h
        cases h
        exact .long htakes hname hfacts
    | cons c v =>
      -- The name is followed by the equals sign.
      have hc : c = '=' := by
        have hhead := List.head?_dropWhile_not (· != '=') s
        rw [hrest] at hhead
        simpa using hhead
      simp only [hf, hrest] at h
      by_cases hfacts : f = .facts
      · subst hfacts hc
        cases hname
        cases h
        have harg : String.ofList ('-' :: '-' :: s) = "--facts=" ++ String.ofList v := by
          rw [hsplit, hlist, hrest]
          apply String.toList_injective
          simp
        rw [harg]
        exact .facts htakes _
      · rw [if_neg (takesValue_iff.not.2 hfacts)] at h
        cases h

/-- **One argument.** -/
theorem ofArgument?_eq_some_iff {arg : String} :
    ofArgument? subcommand arg = some (items, waiting) ↔ Written subcommand arg items waiting := by
  constructor
  · intro h
    unfold ofArgument? at h
    split at h
    · next s hlist =>
      have hwritten := written_of_ofLong? h
      rwa [← hlist, String.ofList_toList] at hwritten
    · next letter letters _ hlist =>
      have hwritten := Written.letters (ofLetters?_eq_some_iff.1 h)
      rwa [← hlist, String.ofList_toList] at hwritten
    · next _ hdash =>
      cases h
      exact .expression hdash
  · intro h
    cases h with
    | long htakes hname hf =>
      cases hname with
      | verbose => rfl
      | facts => exact absurd rfl hf
      | syntaxOnly | pretty =>
        cases htakes
        rfl
    | facts htakes v => exact ofArgument?_facts htakes v
    | factsWaiting htakes =>
      cases htakes
      rfl
    | letters h => rw [ofArgument?_letters h.ne_dash, ofLetters?_eq_some_iff.2 h]
    | expression h =>
      unfold ofArgument?
      split
      · next hlist => exact absurd hlist (h _ _)
      · next hlist => exact absurd hlist (h _ _)
      · rfl

theorem Written.ne_end {arg : String} (h : Written subcommand arg items waiting) : arg ≠ "--" := by
  rintro rfl
  have hnone : ofArgument? subcommand "--" = none := by cases subcommand <;> rfl
  cases hnone.symm.trans (ofArgument?_eq_some_iff.2 h)

theorem isValue_iff {arg : String} : isValue arg = true ↔ IsUndashed arg := by
  unfold isValue
  split
  · next hlist => exact ⟨nofun, fun h => absurd hlist (h _ _)⟩
  · next hno => exact ⟨fun _ => hno, fun _ => rfl⟩

theorem ofArguments?_cons {arg : String} {front : List Item}
    (harg : Written subcommand arg front none) (args : List String) :
    ofArguments? subcommand (arg :: args) = (ofArguments? subcommand args).map (front ++ ·) := by
  rw [ofArguments?, if_neg harg.ne_end, ofArgument?_eq_some_iff.2 harg]

theorem ofArguments?_cons_value {arg : String} {front : List Item} {f : Flag}
    (harg : Written subcommand arg front (some f)) (v : String) (args : List String) :
    ofArguments? subcommand (arg :: v :: args) =
      if isValue v then (ofArguments? subcommand args).map (front ++ .value f v :: ·)
      else none := by
  rw [ofArguments?, if_neg harg.ne_end, ofArgument?_eq_some_iff.2 harg]

/-- **All arguments behind a subcommand.** -/
theorem ofArguments?_eq_some_iff {args : List String} :
    ofArguments? subcommand args = some items ↔ AllWritten subcommand args items := by
  constructor
  · intro h
    fun_induction ofArguments? subcommand args generalizing items with
    | case1 =>
      cases h
      exact .nil
    | case2 args =>
      cases h
      exact .rest args
    | case3 | case5 | case7 => cases h
    | case4 arg args _ front harg ih =>
      obtain ⟨others, hothers, rfl⟩ := Option.map_eq_some_iff.1 h
      exact .cons (ofArgument?_eq_some_iff.1 harg) (ih hothers)
    | case6 arg _ front f harg v args hv ih =>
      obtain ⟨others, hothers, rfl⟩ := Option.map_eq_some_iff.1 h
      exact .value (ofArgument?_eq_some_iff.1 harg) (isValue_iff.1 hv) (ih hothers)
  · intro h
    induction h with
    | nil => rfl
    | cons harg _ ih => rw [ofArguments?_cons harg, ih, Option.map_some]
    | value harg hv _ ih =>
      rw [ofArguments?_cons_value harg, if_pos (isValue_iff.2 hv), ih, Option.map_some]
    | rest args => rw [ofArguments?, if_pos rfl]

/-! ## Items of a subcommand -/

/-- An item that a subcommand may have. -/
inductive BelongsTo (subcommand : Subcommand) : Item → Prop
  | flag {f : Flag} (htakes : subcommand.Takes f) (hf : f ≠ .facts) :
      BelongsTo subcommand (.flag f)
  | facts (htakes : subcommand.Takes .facts) (v : String) : BelongsTo subcommand (.value .facts v)
  | expression (e : String) : BelongsTo subcommand (.expression e)

theorem Lettered.belongsTo {letters : List Char} (h : Lettered subcommand letters items waiting) :
    (∀ item ∈ items, item.BelongsTo subcommand) ∧
      ∀ f ∈ waiting, f = .facts ∧ subcommand.Takes .facts := by
  induction h with
  | nil => exact ⟨nofun, nofun⟩
  | flag htakes _ hf _ ih => exact ⟨List.forall_mem_cons.2 ⟨.flag htakes hf, ih.1⟩, ih.2⟩
  | facts htakes | factsEquals htakes =>
    exact ⟨List.forall_mem_singleton.2 (.facts htakes _), nofun⟩
  | factsWaiting htakes => exact ⟨nofun, fun f hf => ⟨(Option.some.inj hf).symm, htakes⟩⟩

theorem Written.belongsTo {arg : String} (h : Written subcommand arg items waiting) :
    (∀ item ∈ items, item.BelongsTo subcommand) ∧
      ∀ f ∈ waiting, f = .facts ∧ subcommand.Takes .facts := by
  cases h with
  | long htakes _ hf => exact ⟨List.forall_mem_singleton.2 (.flag htakes hf), nofun⟩
  | facts htakes v => exact ⟨List.forall_mem_singleton.2 (.facts htakes v), nofun⟩
  | factsWaiting htakes => exact ⟨nofun, fun f hf => ⟨(Option.some.inj hf).symm, htakes⟩⟩
  | letters h => exact h.belongsTo
  | expression => exact ⟨List.forall_mem_singleton.2 (.expression _), nofun⟩

theorem AllWritten.belongsTo {args : List String} (h : AllWritten subcommand args items) :
    ∀ item ∈ items, item.BelongsTo subcommand := by
  induction h with
  | nil => exact nofun
  | cons harg _ ih => exact List.forall_mem_append.2 ⟨harg.belongsTo.1, ih⟩
  | value harg _ _ ih =>
    obtain ⟨hitems, hwaiting⟩ := harg.belongsTo
    obtain ⟨rfl, htakes⟩ := hwaiting _ rfl
    exact List.forall_mem_append.2 ⟨hitems, List.forall_mem_cons.2 ⟨.facts htakes _, ih⟩⟩
  | rest args => exact List.forall_mem_map.2 fun e _ => .expression e

end Item

end FactQuery
