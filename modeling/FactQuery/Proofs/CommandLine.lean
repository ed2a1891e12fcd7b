import FactQuery.Proofs.Options

/-!
# Command lines

Which command lines are accepted, and what they ask for.

**Requests** (`Request.items`). A request is asked for by its items, in any order, with some `-v`
among them. The name of its subcommand comes first, and before that there may be `-v` only.

**Theorem (`Invocation.ofArguments?_eq_some_iff`).** The command lines that are accepted for a
request are those that spell it (`Invocation.Spelled`).

**More detail** (`AddsVerbose`). To add `-v` wherever an option may stand is to spell the same
request in another detail (`exists_request_of_addsVerbose`).
-/

namespace FactQuery

/-! ## Items -/

namespace Item

variable {subcommand : Subcommand} {items : List Item}

theorem perm_sorted (h : ∀ item ∈ items, item.BelongsTo subcommand) :
    items.Perm ((items.filterMap expression?).map .expression ++
      (items.filterMap (value? .facts)).map (.value .facts) ++
      List.replicate (items.count (.flag .syntaxOnly)) (.flag .syntaxOnly) ++
      List.replicate (items.count (.flag .pretty)) (.flag .pretty) ++
      List.replicate (items.count (.flag .verbose)) (.flag .verbose)) := by
  induction items with
  | nil => exact .nil
  | cons item items ih =>
    obtain ⟨hitem, hitems⟩ := List.forall_mem_cons.1 h
    -- The item adds one to its own part, and nothing to the others.
    refine ((ih hitems).cons item).trans (List.perm_iff_count.2 fun other => ?_)
    cases hitem with
    | expression e => simp [expression?, value?, List.filterMap_cons]
    | facts htakes v =>
      simp [expression?, value?, List.filterMap_cons, List.count_cons]
      omega
    | @flag f htakes hf =>
      cases f with
      | facts => exact absurd rfl hf
      | verbose | syntaxOnly | pretty =>
        simp [expression?, value?, List.filterMap_cons, List.count_cons, List.replicate_succ]
        omega

end Item

/-! ## Requests -/

namespace Request

def subcommand : Request → Subcommand
  | .check .. => .check
  | .tokens _ => .tokens
  | .tree .. => .tree

/-- What a request is asked for by, but for the detail. -/
def items : Request → List Item
  | .check e facts syntaxOnly => .expression e :: facts.toList.map (.value .facts) ++
      if syntaxOnly then [.flag .syntaxOnly] else []
  | .tokens e => [.expression e]
  | .tree e pretty => .expression e :: if pretty then [.flag .pretty] else []

end Request

namespace Invocation

variable {subcommand : Subcommand} {items : List Item} {v n : Nat} {r : Request}

theorem replicate_eq_of_le_one {α : Type} {m : Nat} {a : α} (h : m ≤ 1) :
    List.replicate m a = if m == 1 then [a] else [] := by
  interval_cases m <;> rfl

theorem eq_of_perm_of_length_le_one {α : Type} {l l' : List α} (hperm : l.Perm l')
    (h : l'.length ≤ 1) : l = l' := by
  match l', h with
  | [], _ => exact hperm.eq_nil
  | [a], _ => exact List.perm_singleton.1 hperm

theorem ofItems?_of_perm {items' : List Item} (hperm : items.Perm items') {i : Invocation}
    (h : ofItems? subcommand v items' = some i) : ofItems? subcommand v items = some i := by
  have hexpression := hperm.filterMap Item.expression?
  have hfacts := hperm.filterMap (Item.value? .facts)
  unfold ofItems? at h ⊢
  rw [hperm.count_eq, hperm.count_eq, hperm.count_eq]
  generalize items'.filterMap Item.expression? = es' at h hexpression
  generalize items'.filterMap (Item.value? .facts) = facts' at h hfacts
  match es' with
  | [] | _ :: _ :: _ => cases h
  | [e] =>
    dsimp only at h
    by_cases hmore : 1 < facts'.length ∨ 1 < items'.count (.flag .syntaxOnly) ∨
        1 < items'.count (.flag .pretty)
    · rw [if_pos hmore] at h
      cases h
    · have hlength : facts'.length ≤ 1 := Nat.not_lt.1 fun hlt => hmore (.inl hlt)
      rw [List.perm_singleton.1 hexpression, eq_of_perm_of_length_le_one hfacts hlength]
      exact h

theorem ofItems?_items (v k : Nat) (r : Request) :
    ofItems? r.subcommand v (r.items ++ List.replicate k (.flag .verbose)) =
      some (.request (if k = 0 then v else k) r) := by
  have hexpression : (List.replicate k (.flag .verbose)).filterMap Item.expression? = [] :=
    List.filterMap_eq_nil_iff.2 fun item h => List.eq_of_mem_replicate h ▸ rfl
  have hfacts : (List.replicate k (.flag .verbose)).filterMap (Item.value? .facts) = [] :=
    List.filterMap_eq_nil_iff.2 fun item h => List.eq_of_mem_replicate h ▸ rfl
  unfold ofItems?
  rw [List.filterMap_append, List.filterMap_append, hexpression, hfacts]
  rcases r with ⟨e, _ | facts, _ | _⟩ | e | ⟨e, _ | _⟩ <;>
    simp [Request.items, Request.subcommand, Item.expression?, Item.value?, List.filterMap_cons,
      List.count_replicate]

/-- Items that are accepted are those of a request, in any order, and some more `-v`. Without these
it is the detail from before the subcommand that counts. -/
theorem ofItems?_eq_some_iff (h : ∀ item ∈ items, item.BelongsTo subcommand) :
    ofItems? subcommand v items = some (.request n r) ↔
      subcommand = r.subcommand ∧ ∃ k, items.Perm (r.items ++ List.replicate k (.flag .verbose)) ∧
        n = if k = 0 then v else k := by
  constructor
  · intro hitems
    have hsorted := Item.perm_sorted h
    have hcount {f : Flag} (hf : ¬ subcommand.Takes f) : items.count (.flag f) = 0 := by
      refine List.count_eq_zero.2 fun hmem => ?_
      cases h _ hmem with
      | flag htakes => exact hf htakes
    have hnone (hf : ¬ subcommand.Takes .facts) : items.filterMap (Item.value? .facts) = [] := by
      refine List.filterMap_eq_nil_iff.2 fun item hmem => ?_
      cases h _ hmem with
      | flag | expression => rfl
      | facts htakes => exact absurd htakes hf
    unfold ofItems? at hitems
    generalize items.filterMap Item.expression? = es at hitems hsorted
    generalize items.filterMap (Item.value? .facts) = facts at hitems hsorted hnone
    match es with
    | [] | _ :: _ :: _ => cases hitems
    | [e] =>
      dsimp only at hitems
      by_cases hmore : 1 < facts.length ∨ 1 < items.count (.flag .syntaxOnly) ∨
          1 < items.count (.flag .pretty)
      · rw [if_pos hmore] at hitems
        cases hitems
      rw [if_neg hmore, Option.some.injEq, request.injEq] at hitems
      obtain ⟨rfl, rfl⟩ := hitems
      push Not at hmore
      obtain ⟨hlength, hsyntactic, hpretty⟩ := hmore
      -- No part has more than one item, and those that the subcommand does not take have none.
      refine ⟨by cases subcommand <;> rfl, items.count (.flag .verbose), ?_, rfl⟩
      cases subcommand with
      | check =>
        have hpretty : items.count (.flag .pretty) = 0 := hcount nofun
        have hhead : facts.head?.toList = facts := by
          match facts, hlength with
          | [], _ => rfl
          | [_], _ => rfl
        rw [hpretty, replicate_eq_of_le_one hsyntactic] at hsorted
        simpa [Request.items, hhead] using hsorted
      | tokens =>
        have hsyntactic : items.count (.flag .syntaxOnly) = 0 := hcount nofun
        have hpretty : items.count (.flag .pretty) = 0 := hcount nofun
        rw [hpretty, hsyntactic, hnone nofun] at hsorted
        simpa [Request.items] using hsorted
      | tree =>
        have hsyntactic : items.count (.flag .syntaxOnly) = 0 := hcount nofun
        rw [hsyntactic, hnone nofun, replicate_eq_of_le_one hpretty] at hsorted
        simpa [Request.items] using hsorted
  · rintro ⟨rfl, k, hperm, rfl⟩
    exact ofItems?_of_perm hperm (ofItems?_items v k r)

/-! ## Before the subcommand -/

/-- An argument that asks for more detail, so many times, and for nothing else. -/
inductive Verbose : String → Nat → Prop
  | long : Verbose "--verbose" 1
  | letters (n : Nat) : Verbose (String.ofList ('-' :: List.replicate (n + 1) 'v')) (n + 1)

/-- Arguments that ask for more detail, so many times all in all. -/
inductive Leading : List String → Nat → Prop
  | nil : Leading [] 0
  | cons {arg : String} {n : Nat} (harg : Verbose arg n) {args : List String} {m : Nat}
      (h : Leading args m) : Leading (arg :: args) (n + m)

/-- The arguments that ask for a request, in a detail: the name of its subcommand stands before its
items. -/
inductive Spelled : List String → Nat → Request → Prop
  | intro {before args : List String} {m k : Nat} {r : Request} {items : List Item}
      (hbefore : Leading before m) (hargs : Item.AllWritten r.subcommand args items)
      (hitems : items.Perm (r.items ++ List.replicate k (.flag .verbose))) :
      Spelled (before ++ r.subcommand.name :: args) (if k = 0 then m else k) r

theorem leadingLetters?_eq_some_iff {letters : List Char} :
    leadingLetters? v letters = some (some n) ↔
      ∃ k, letters = List.replicate k 'v' ∧ n = v + k := by
  constructor
  · intro h
    fun_induction leadingLetters? v letters with
    | case1 v =>
      cases h
      exact ⟨0, rfl, rfl⟩
    | case2 v letters ih =>
      obtain ⟨k, rfl, rfl⟩ := ih h
      exact ⟨k + 1, rfl, by omega⟩
    | case3 | case4 => cases h
  · rintro ⟨k, rfl, rfl⟩
    induction k generalizing v with
    | zero => rfl
    | succ k ih => rw [List.replicate_succ, leadingLetters?, ih, Nat.add_assoc, Nat.add_comm 1]

theorem ofArgumentsFrom?_verbose {arg : String} (h : Verbose arg n) (v : Nat)
    (args : List String) : ofArgumentsFrom? v (arg :: args) = ofArgumentsFrom? (v + n) args := by
  cases h with
  | long => rfl
  | letters n =>
    -- Long names have two dashes, so the letters are read.
    have hname (name : String) (hname : ∀ n, name.toList ≠ '-' :: List.replicate (n + 1) 'v') :
        String.ofList ('-' :: List.replicate (n + 1) 'v') ≠ name := by
      rintro rfl
      exact hname n String.toList_ofList
    have hversion := hname "--version" fun n => by simp [List.replicate_succ]
    have hverbose := hname "--verbose" fun n => by simp [List.replicate_succ]
    have hletters : leadingLetters? v (List.replicate (n + 1) 'v') = some (some (v + (n + 1))) :=
      leadingLetters?_eq_some_iff.2 ⟨n + 1, rfl, rfl⟩
    rw [ofArgumentsFrom?, if_neg hversion, if_neg hverbose, String.toList_ofList]
    rw [List.replicate_succ] at hletters ⊢
    simp only [hletters]

theorem ofArgumentsFrom?_subcommand (v : Nat) (subcommand : Subcommand) (args : List String) :
    ofArgumentsFrom? v (subcommand.name :: args) =
      (Item.ofArguments? subcommand args).bind (ofItems? subcommand v) := by
  cases subcommand <;> rfl

theorem verbose_or_subcommand {arg : String} {args : List String}
    (h : ofArgumentsFrom? v (arg :: args) = some (.request n r)) :
    (∃ m, Verbose arg m) ∨ ∃ subcommand : Subcommand, arg = subcommand.name := by
  unfold ofArgumentsFrom? at h
  by_cases hversion : arg = "--version"
  · rw [if_pos hversion] at h
    cases h
  by_cases hverbose : arg = "--verbose"
  · exact .inl ⟨1, hverbose ▸ .long⟩
  rw [if_neg hversion, if_neg hverbose] at h
  split at h
  · next letter letters hlist =>
    split at h
    · cases h
    · cases h
    · next hletters =>
      obtain ⟨k, hk, -⟩ := leadingLetters?_eq_some_iff.1 hletters
      cases k with
      | zero => cases hk
      | succ k =>
        have harg : arg = String.ofList ('-' :: List.replicate (k + 1) 'v') := by
          rw [← hk, ← hlist, String.ofList_toList]
        exact .inl ⟨k + 1, harg ▸ .letters k⟩
  · split at h
    · cases h
    · next hname => exact .inr ⟨_, Subcommand.ofName?_eq_some_iff.1 hname⟩

/-- **Accepted arguments**, with some detail asked for before them. -/
theorem ofArgumentsFrom?_eq_some_iff {args : List String} :
    ofArgumentsFrom? v args = some (.request n r) ↔
      ∃ before m args' items k, Leading before m ∧ Item.AllWritten r.subcommand args' items ∧
        items.Perm (r.items ++ List.replicate k (.flag .verbose)) ∧
        args = before ++ r.subcommand.name :: args' ∧ n = if k = 0 then v + m else k := by
  constructor
  · intro h
    induction args generalizing v with
    | nil => cases h
    | cons arg args ih =>
      rcases verbose_or_subcommand h with ⟨m, hverbose⟩ | ⟨subcommand, rfl⟩
      · rw [ofArgumentsFrom?_verbose hverbose] at h
        obtain ⟨before, m', args', items, k, hbefore, hargs, hitems, rfl, rfl⟩ := ih h
        refine ⟨arg :: before, m + m', args', items, k, .cons hverbose hbefore, hargs, hitems, rfl,
          ?_⟩
        rw [Nat.add_assoc]
      · rw [ofArgumentsFrom?_subcommand] at h
        obtain ⟨items, hitems, h⟩ := Option.bind_eq_some_iff.1 h
        have hargs := Item.ofArguments?_eq_some_iff.1 hitems
        obtain ⟨rfl, k, hperm, rfl⟩ := (ofItems?_eq_some_iff hargs.belongsTo).1 h
        exact ⟨[], 0, args, items, k, .nil, hargs, hperm, rfl, rfl⟩
  · rintro ⟨before, m, args, items, k, hbefore, hargs, hitems, rfl, rfl⟩
    induction hbefore generalizing v with
    | nil =>
      rw [List.nil_append, ofArgumentsFrom?_subcommand, Item.ofArguments?_eq_some_iff.2 hargs]
      exact (ofItems?_eq_some_iff hargs.belongsTo).2 ⟨rfl, k, hitems, rfl⟩
    | cons harg _ ih => rw [List.cons_append, ofArgumentsFrom?_verbose harg, ih, Nat.add_assoc]

/-- **Accepted arguments** are those that spell a request. -/
theorem ofArguments?_eq_some_iff {args : List String} :
    ofArguments? args = some (.request n r) ↔ Spelled args n r := by
  rw [ofArguments?, ofArgumentsFrom?_eq_some_iff]
  constructor
  · rintro ⟨before, m, args, items, k, hbefore, hargs, hitems, rfl, rfl⟩
    rw [Nat.zero_add]
    exact .intro hbefore hargs hitems
  · rintro ⟨hbefore, hargs, hitems⟩
    exact ⟨_, _, _, _, _, hbefore, hargs, hitems, rfl, by rw [Nat.zero_add]⟩

end Invocation

/-! ## More detail -/

section
open Invocation Item

/-- The second arguments of a subcommand are the first ones and some that ask for more detail. These
stand where options may stand, and so not in the place of a value or behind `--`. -/
inductive AddsVerboseTo (subcommand : Subcommand) : List String → List String → Prop
  | nil : AddsVerboseTo subcommand [] []
  | add {arg : String} {n : Nat} (harg : Verbose arg n) {args args' : List String}
      (h : AddsVerboseTo subcommand args args') : AddsVerboseTo subcommand args (arg :: args')
  | keep {arg : String} {items : List Item} (harg : Written subcommand arg items none)
      {args args' : List String} (h : AddsVerboseTo subcommand args args') :
      AddsVerboseTo subcommand (arg :: args) (arg :: args')
  | value {arg : String} {items : List Item} {f : Flag}
      (harg : Written subcommand arg items (some f)) (v : String) {args args' : List String}
      (h : AddsVerboseTo subcommand args args') :
      AddsVerboseTo subcommand (arg :: v :: args) (arg :: v :: args')
  | rest (args : List String) : AddsVerboseTo subcommand ("--" :: args) ("--" :: args)

/-- The second command line is the first one with more detail asked for, before its subcommand or
behind it. -/
inductive AddsVerbose : List String → List String → Prop
  | add {arg : String} {n : Nat} (harg : Verbose arg n) {args args' : List String}
      (h : AddsVerbose args args') : AddsVerbose args (arg :: args')
  | keep {arg : String} {n : Nat} (harg : Verbose arg n) {args args' : List String}
      (h : AddsVerbose args args') : AddsVerbose (arg :: args) (arg :: args')
  | subcommand (subcommand : Subcommand) {args args' : List String}
      (h : AddsVerboseTo subcommand args args') :
      AddsVerbose (subcommand.name :: args) (subcommand.name :: args')

theorem lettered_replicate (subcommand : Subcommand) (n : Nat) :
    Lettered subcommand (List.replicate n 'v') (List.replicate n (.flag .verbose)) none := by
  induction n with
  | zero => exact .nil
  | succ n ih => exact .flag (.verbose subcommand) .verbose nofun ih

theorem written_verbose {arg : String} {n : Nat} (h : Verbose arg n) (subcommand : Subcommand) :
    Written subcommand arg (List.replicate n (.flag .verbose)) none := by
  cases h with
  | long => exact .long (.verbose subcommand) .verbose nofun
  | letters n => exact .letters (lettered_replicate subcommand (n + 1))

/-- Behind a subcommand, more detail is all that there is more of. -/
theorem exists_items_of_addsVerboseTo {subcommand : Subcommand} {args args' : List String}
    (hadds : AddsVerboseTo subcommand args args') {items : List Item}
    (h : ofArguments? subcommand args = some items) :
    ∃ items' k, ofArguments? subcommand args' = some items' ∧
      items'.Perm (items ++ List.replicate k (.flag .verbose)) := by
  induction hadds generalizing items with
  | nil => exact ⟨items, 0, h, by simp⟩
  | @add arg n harg args args' _ ih =>
    obtain ⟨items', k, h', hperm⟩ := ih h
    refine ⟨List.replicate n (.flag .verbose) ++ items', n + k, ?_, ?_⟩
    · rw [ofArguments?_cons (written_verbose harg subcommand), h', Option.map_some]
    · rw [List.replicate_add, ← List.append_assoc]
      -- The new ones stand in front, and are counted at the end.
      refine (hperm.append_left _).trans ?_
      rw [← List.append_assoc]
      exact List.perm_append_comm.append_right _
  | @keep arg front harg _ _ _ ih =>
    rw [ofArguments?_cons harg] at h
    obtain ⟨rest, hrest, rfl⟩ := Option.map_eq_some_iff.1 h
    obtain ⟨rest', k, h', hperm⟩ := ih hrest
    refine ⟨front ++ rest', k, ?_, ?_⟩
    · rw [ofArguments?_cons harg, h', Option.map_some]
    · rw [List.append_assoc]
      exact hperm.append_left front
  | @value arg front f harg v _ _ _ ih =>
    rw [ofArguments?_cons_value harg] at h
    by_cases hv : isValue v
    · rw [if_pos hv] at h
      obtain ⟨rest, hrest, rfl⟩ := Option.map_eq_some_iff.1 h
      obtain ⟨rest', k, h', hperm⟩ := ih hrest
      refine ⟨front ++ .value f v :: rest', k, ?_, ?_⟩
      · rw [ofArguments?_cons_value harg, if_pos hv, h', Option.map_some]
      · rw [List.append_assoc, List.cons_append]
        exact (hperm.cons _).append_left front
    · rw [if_neg hv] at h
      cases h
  | rest args => exact ⟨items, 0, h, by simp⟩

/-- **More detail is the same request.** -/
theorem exists_request_of_addsVerbose {args args' : List String} (hadds : AddsVerbose args args')
    {v n : Nat} {r : Request} (h : ofArgumentsFrom? v args = some (.request n r)) (v' : Nat) :
    ∃ n', ofArgumentsFrom? v' args' = some (.request n' r) := by
  induction hadds generalizing v v' with
  | add harg _ ih =>
    rw [ofArgumentsFrom?_verbose harg]
    exact ih h _
  | keep harg _ ih =>
    rw [ofArgumentsFrom?_verbose harg] at h ⊢
    exact ih h _
  | subcommand subcommand hadds =>
    rw [ofArgumentsFrom?_subcommand] at h ⊢
    obtain ⟨items, hitems, h⟩ := Option.bind_eq_some_iff.1 h
    obtain ⟨items', k, hitems', hperm⟩ := exists_items_of_addsVerboseTo hadds hitems
    have hbelongs := (ofArguments?_eq_some_iff.1 hitems).belongsTo
    obtain ⟨rfl, m, hm, -⟩ := (ofItems?_eq_some_iff hbelongs).1 h
    have hbelongs' := (ofArguments?_eq_some_iff.1 hitems').belongsTo
    rw [hitems', Option.bind_some]
    refine ⟨_, (ofItems?_eq_some_iff hbelongs').2 ⟨rfl, m + k, ?_, rfl⟩⟩
    rw [List.replicate_add, ← List.append_assoc]
    exact hperm.trans (hm.append_right _)

end

end FactQuery
