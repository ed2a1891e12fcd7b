import FactQuery.Command.Run
import FactQuery.Proofs.CommandLine
import FactQuery.Proofs.ErrorTexts

/-!
# What a run reports

A run leaves an exit code and two texts, and these say what the library returned.

**Where the facts come from** (`Environment.Gives`). Facts among the arguments and facts on the
input are the same to a check. Only the input can be unreadable, which is noticed before anything
else. A terminal is not read.

**Answers** (`Request.Answers`). A request is answered by a text, or by the text of an error
(`CheckError.Shows`): what the library returns, in words. Each request has exactly one answer.

**Logs** (`Environment.Logs`). A filter that is set from outside decides alone what is logged. If
none is set, `-v` shows the records of evaluations and `-vv` all of them.

**Theorem (`command_reports`).** A run reports the answer to the request that its arguments spell,
behind the log. To ask for more detail only adds to the log.
-/

namespace FactQuery

/-- What a command line leaves behind, if its arguments are not refused. -/
def outcome? (complaint : String → String) (args : List String) (env : Environment) :
    Option Outcome :=
  (Invocation.ofArguments? args).map (·.run complaint env)

/-! ## Where the facts come from -/

/-- The facts of a check, for those among its arguments. -/
inductive Environment.Gives (env : Environment) : Option String → Bool → Option String → Prop
  | arguments (facts : String) (syntaxOnly : Bool) : Gives env (some facts) syntaxOnly (some facts)
  | syntaxOnly : Gives env none true none
  | terminal (h : env.isTerminal = true) : Gives env none false none
  | input (h : env.isTerminal = false) {facts : String} (hinput : env.input = facts.toUTF8) :
      Gives env none false (some facts)

/-- The input is to be read, and is no text. -/
def Environment.IsUnreadable (env : Environment) : Prop :=
  env.isTerminal = false ∧ ∀ text : String, env.input ≠ text.toUTF8

theorem fromUTF8?_eq_some_iff {bytes : ByteArray} {s : String} :
    String.fromUTF8? bytes = some s ↔ bytes = s.toUTF8 := by
  constructor
  · intro h
    unfold String.fromUTF8? at h
    split_ifs at h
    cases h
    rfl
  · rintro rfl
    rw [String.fromUTF8?, String.toUTF8_eq_toByteArray, dif_pos s.isValidUTF8]
    rfl

theorem fromUTF8?_eq_none_iff {bytes : ByteArray} :
    String.fromUTF8? bytes = none ↔ ∀ s : String, bytes ≠ s.toUTF8 := by
  simp only [Option.eq_none_iff_forall_ne_some, Ne, fromUTF8?_eq_some_iff]

namespace Request

theorem factsText_input {env : Environment} (h : env.isTerminal = false) :
    factsText none false env = match String.fromUTF8? env.input with
      | some text => .ok (some text)
      | none => .error .unreadableInput := by
  have hread : (!false && !env.isTerminal) = true := by simp [h]
  exact if_pos hread

theorem factsText_eq_ok_iff {facts given : Option String} {syntaxOnly : Bool} {env : Environment} :
    factsText facts syntaxOnly env = .ok given ↔ env.Gives facts syntaxOnly given := by
  constructor
  · intro h
    match facts, syntaxOnly with
    | some facts, _ =>
      cases h
      exact .arguments facts _
    | none, true =>
      cases h
      exact .syntaxOnly
    | none, false =>
      by_cases hterminal : env.isTerminal = true
      · simp only [factsText, hterminal, Bool.not_true, Bool.and_false, Bool.false_eq_true,
          if_false, Except.ok.injEq] at h
        exact h ▸ .terminal hterminal
      · rw [Bool.not_eq_true] at hterminal
        rw [factsText_input hterminal] at h
        cases hinput : String.fromUTF8? env.input with
        | none =>
          rw [hinput] at h
          cases h
        | some text =>
          rw [hinput] at h
          cases h
          exact .input hterminal (fromUTF8?_eq_some_iff.1 hinput)
  · rintro (⟨facts, _⟩ | _ | hterminal | ⟨hterminal, hinput⟩)
    · rfl
    · rfl
    · simp only [factsText, hterminal, Bool.not_true, Bool.and_false, Bool.false_eq_true, if_false]
    · rw [factsText_input hterminal, fromUTF8?_eq_some_iff.2 hinput]

theorem factsText_eq_error_iff {facts : Option String} {syntaxOnly : Bool} {env : Environment}
    {e : CheckError} :
    factsText facts syntaxOnly env = .error e ↔
      (facts = none ∧ syntaxOnly = false ∧ env.IsUnreadable) ∧ e = .unreadableInput := by
  constructor
  · intro h
    unfold factsText at h
    split at h
    · cases h
    · split_ifs at h with hread
      split at h
      · cases h
      · next hinput =>
        cases h
        obtain ⟨hsyntactic, hterminal⟩ := Bool.and_eq_true_iff.1 hread
        refine ⟨⟨rfl, ?_, ?_, fromUTF8?_eq_none_iff.1 hinput⟩, rfl⟩
        · simpa using hsyntactic
        · simpa using hterminal
  · rintro ⟨⟨rfl, rfl, hterminal, hinput⟩, rfl⟩
    rw [factsText_input hterminal, fromUTF8?_eq_none_iff.2 hinput]

end Request

/-! ## Answers -/

/-- What the library answers to a request, in words. -/
inductive Request.Answers (complaint : String → String) (env : Environment) :
    Request → Except String String → Prop
  | syntaxValid {e : String} {facts given : Option String} {syntaxOnly : Bool}
      (hgiven : env.Gives facts syntaxOnly given)
      (h : FactQuery.check complaint e given syntaxOnly = .ok .syntaxValid) :
      Answers complaint env (.check e facts syntaxOnly) (.ok "Syntax is valid")
  | verdict {e : String} {facts given : Option String} {syntaxOnly v : Bool}
      (hgiven : env.Gives facts syntaxOnly given)
      (h : FactQuery.check complaint e given syntaxOnly = .ok (.verdict v)) :
      Answers complaint env (.check e facts syntaxOnly) (.ok (if v then "true" else "false"))
  | checkError {e : String} {facts given : Option String} {syntaxOnly : Bool}
      (hgiven : env.Gives facts syntaxOnly given) {fault : CheckError} {text : String}
      (h : FactQuery.check complaint e given syntaxOnly = .error fault) (htext : fault.Shows text) :
      Answers complaint env (.check e facts syntaxOnly) (.error text)
  | unreadable {e : String} (h : env.IsUnreadable) :
      Answers complaint env (.check e none false)
        (.error "IO error: stream did not contain valid UTF-8")
  | tokens {e : String} {tokens : List Token} (h : lex e = .ok tokens) :
      Answers complaint env (.tokens e) (.ok (listing tokens))
  | tokensError {e : String} {fault : LexError} {text : String} (h : lex e = .error fault)
      (htext : (CheckError.query (.lex fault)).Shows text) :
      Answers complaint env (.tokens e) (.error text)
  | tree {e : String} {pretty : Bool} {x : Expr} (h : parse e = .ok x) :
      Answers complaint env (.tree e pretty) (.ok (if pretty then x.indented else x.compact))
  | treeError {e : String} {pretty : Bool} {fault : QueryError} {text : String}
      (h : parse e = .error fault) (htext : (CheckError.query fault).Shows text) :
      Answers complaint env (.tree e pretty) (.error text)

theorem Request.answers_of_check {complaint : String → String} {env : Environment} {e : String}
    {facts given : Option String} {syntaxOnly : Bool} (hgiven : env.Gives facts syntaxOnly given) :
    (Request.check e facts syntaxOnly).Answers complaint env
      (((FactQuery.check complaint e given syntaxOnly).map CheckResult.text).mapError
        CheckError.message) := by
  rcases h : FactQuery.check complaint e given syntaxOnly with fault | _ | _ | _
  · exact .checkError hgiven h (CheckError.shows_iff.2 rfl)
  · exact .syntaxValid hgiven h
  · exact .verdict hgiven h
  · exact .verdict hgiven h

/-- **Each request has exactly one answer**, which is what its result says. -/
theorem Request.answers_iff {complaint : String → String} {env : Environment} {r : Request}
    {answer : Except String String} :
    r.Answers complaint env answer ↔
      (r.result complaint env).1.mapError CheckError.message = answer := by
  constructor
  · intro h
    cases h with
    | syntaxValid hgiven h =>
      simp only [result, factsText_eq_ok_iff.2 hgiven, h]
      rfl
    | @verdict _ _ _ _ v hgiven h =>
      simp only [result, factsText_eq_ok_iff.2 hgiven, h]
      cases v <;> rfl
    | checkError hgiven h htext =>
      obtain rfl := CheckError.shows_iff.1 htext
      simp only [result, factsText_eq_ok_iff.2 hgiven, h]
      rfl
    | unreadable h =>
      simp only [result, factsText_eq_error_iff.2 ⟨⟨rfl, rfl, h⟩, rfl⟩]
      rfl
    | tokens h =>
      simp only [result, listTokens, h]
      rfl
    | tokensError h htext | treeError h htext =>
      obtain rfl := CheckError.shows_iff.1 htext
      simp only [result, listTokens, showTree, h]
      rfl
    | tree h =>
      simp only [result, showTree, h]
      rfl
  · rintro rfl
    cases r with
    | check e facts syntaxOnly =>
      cases hfacts : factsText facts syntaxOnly env with
      | error fault =>
        obtain ⟨⟨rfl, rfl, hinput⟩, rfl⟩ := factsText_eq_error_iff.1 hfacts
        simp only [result, hfacts]
        exact .unreadable hinput
      | ok given =>
        simp only [result, hfacts]
        exact answers_of_check (factsText_eq_ok_iff.1 hfacts)
    | tokens e =>
      simp only [result, listTokens]
      cases h : lex e with
      | error fault => exact .tokensError h (CheckError.shows_iff.2 rfl)
      | ok tokens => exact .tokens h
    | tree e pretty =>
      simp only [result, showTree]
      cases h : parse e with
      | error fault => exact .treeError h (CheckError.shows_iff.2 rfl)
      | ok x => exact .tree h

/-! ## Logs -/

def logLines (records : List LogRecord) : String :=
  String.join (records.map fun r =>
    "[" ++ r.stage.detail.name ++ " " ++ r.stage.target ++ "] " ++ r.text ++ "\n")

/-- What is written of a log, for the number of `-v`. -/
inductive Environment.Logs (env : Environment) (log : List LogRecord) : Nat → String → Prop
  | nothing (h : env.logFilter = none) : Logs env log 0 ""
  | debug (h : env.logFilter = none) :
      Logs env log 1 (logLines (log.filter fun r => r.stage.detail = .debug))
  | trace (h : env.logFilter = none) (n : Nat) : Logs env log (n + 2) (logLines log)
  | filtered {filter : LogFilter} (h : env.logFilter = some filter) (n : Nat) :
      Logs env log n (filter.notice ++ logLines (log.filter filter.shows))

theorem LogFilter.shownLog_eq (filter : LogFilter) (log : List LogRecord) :
    filter.shownLog log = filter.notice ++ logLines (log.filter filter.shows) := rfl

theorem LogFilter.filter_shows_ofVerbosity (log : List LogRecord) :
    log.filter (ofVerbosity 0).shows = [] ∧
      log.filter (ofVerbosity 1).shows = log.filter (fun r => r.stage.detail = .debug) ∧
      ∀ n, log.filter (ofVerbosity (n + 2)).shows = log := by
  refine ⟨List.filter_eq_nil_iff.2 fun r _ => ?_, List.filter_congr fun r _ => ?_, fun n =>
    List.filter_eq_self.2 fun r _ => ?_⟩
  · show ¬ r.stage.detail.isShown 0 = true
    cases r.stage.detail <;> decide
  · show r.stage.detail.isShown 1 = decide (r.stage.detail = .debug)
    cases r.stage.detail <;> rfl
  · show r.stage.detail.isShown (n + 2) = true
    cases r.stage.detail <;> simp [Detail.isShown]

/-- **What the filter of a run lets through.** -/
theorem Environment.logs_shownLog (env : Environment) (log : List LogRecord) (n : Nat) :
    env.Logs log n ((env.filter n).shownLog log) := by
  rw [filter]
  cases h : env.logFilter with
  | some f => exact .filtered h n
  | none =>
    obtain ⟨hnothing, hdebug, htrace⟩ := LogFilter.filter_shows_ofVerbosity log
    rw [Option.getD_none, LogFilter.shownLog_eq]
    match n with
    | 0 =>
      rw [hnothing]
      exact .nothing h
    | 1 =>
      rw [hdebug]
      exact .debug h
    | n + 2 =>
      rw [htrace]
      exact .trace h n

/-! ## Outcomes -/

/-- What is left behind when an answer is reported, with a log before it. -/
inductive Outcome.Reports (log : String) : Except String String → Outcome → Prop
  | ok (text : String) : Reports log (.ok text) ⟨0, text ++ "\n", log⟩
  | error (text : String) : Reports log (.error text) ⟨1, "", log ++ text ++ "\n"⟩

theorem Outcome.reports_ofResult (log : String) (result : Except CheckError String) :
    Reports log (result.mapError CheckError.message) (.ofResult log result) := by
  cases result with
  | ok text => exact .ok text
  | error e => exact .error e.message

theorem Outcome.ofResult_append (log more : String) (result : Except CheckError String) :
    Outcome.ofResult (more ++ log) result =
      { Outcome.ofResult log result with
        stderr := more ++ (Outcome.ofResult log result).stderr } := by
  cases result <;> simp [Outcome.ofResult, String.append_assoc]

/-- **A run of a request** is its result behind the log. -/
theorem outcome?_of_spelled (complaint : String → String) {args : List String} {n : Nat}
    {r : Request} (h : Invocation.Spelled args n r) (env : Environment) :
    outcome? complaint args env = some (.ofResult
      ((env.filter n).shownLog (r.result complaint env).2) (r.result complaint env).1) := by
  rw [outcome?, Invocation.ofArguments?_eq_some_iff.2 h, Option.map_some]
  rfl

theorem spelled_check_facts (e facts : String) :
    Invocation.Spelled ["check", "--facts=" ++ facts, "--", e] 0 (.check e (some facts) false) := by
  have hargs : Item.AllWritten .check ["--facts=" ++ facts, "--", e]
      [.value .facts facts, .expression e] := .cons (.facts .facts facts) (.rest [e])
  exact @Invocation.Spelled.intro [] _ 0 0 (.check e (some facts) false) _ .nil hargs
    (List.Perm.swap _ _ _)

theorem spelled_check_input (e : String) :
    Invocation.Spelled ["check", "--", e] 0 (.check e none false) :=
  @Invocation.Spelled.intro [] _ 0 0 (.check e none false) _ .nil (.rest [e]) (.refl _)

/-- Facts on the input are the same as facts among the arguments. -/
theorem Request.result_check_input (complaint : String → String) (e facts : String)
    (env : Environment) :
    (Request.check e none false).result complaint
        { env with input := facts.toUTF8, isTerminal := false } =
      (Request.check e (some facts) false).result complaint env := by
  have hfacts : factsText none false { env with input := facts.toUTF8, isTerminal := false } =
      .ok (some facts) := factsText_eq_ok_iff.2 (.input rfl rfl)
  simp only [result, hfacts]
  rfl

/-- Without a filter from outside, more detail puts lines of the log before what there is. -/
theorem Environment.exists_shownLog_eq (env : Environment) (log : List LogRecord) (n : Nat) :
    ∃ records, records.Sublist log ∧
      (env.filter n).shownLog log = logLines records ++ (env.filter 0).shownLog log := by
  cases h : env.logFilter with
  | some f =>
    refine ⟨[], List.nil_sublist log, ?_⟩
    simp [filter, h, logLines]
  | none =>
    refine ⟨log.filter (LogFilter.ofVerbosity n).shows, List.filter_sublist, ?_⟩
    have hnothing := (LogFilter.filter_shows_ofVerbosity log).1
    rw [filter, filter, h, Option.getD_none, Option.getD_none, LogFilter.shownLog_eq,
      LogFilter.shownLog_eq, hnothing]
    simp [LogFilter.ofVerbosity, logLines]

/-- **The command reports what the library returns.** The command lines that are accepted are those
that spell a request, and facts on the input have the outcome of the same facts among the arguments.
A request has one answer. If it is a text, a run leaves the code 0 and the text on the standard
output, and if it is an error, the code 1 and its text on the standard error; only the log stands
before that, which is empty unless there is a `-v` or a filter from outside. To add `-v` to a
command line without it changes neither the code nor the standard output, and puts lines of the log
before what stands on the standard error. -/
theorem command_reports (complaint : String → String) :
    (∀ args n r,
      Invocation.ofArguments? args = some (.request n r) ↔ Invocation.Spelled args n r) ∧
    (∀ (e facts : String) (env : Environment), ∃ o,
      outcome? complaint ["check", "--facts=" ++ facts, "--", e] env = some o ∧
      outcome? complaint ["check", "--", e]
        { env with input := facts.toUTF8, isTerminal := false } = some o) ∧
    ∀ (args : List String) (n : Nat) (r : Request) (env : Environment),
      Invocation.Spelled args n r →
      ∃ answer log o, (∀ answer', r.Answers complaint env answer' ↔ answer' = answer) ∧
        env.Logs (r.result complaint env).2 n log ∧
        outcome? complaint args env = some o ∧ Outcome.Reports log answer o ∧
        (n = 0 → (env.logFilter = none → log = "") ∧ ∀ args', AddsVerbose args args' →
          ∃ n' o' records, Invocation.Spelled args' n' r ∧ outcome? complaint args' env = some o' ∧
            o'.code = o.code ∧ o'.stdout = o.stdout ∧
            List.Sublist records (r.result complaint env).2 ∧
            o'.stderr = logLines records ++ o.stderr) := by
  refine ⟨fun args n r => Invocation.ofArguments?_eq_some_iff, fun e facts env => ?_,
    fun args n r env hspelled => ?_⟩
  · have hspelled := spelled_check_facts e facts
    have hspelled' := spelled_check_input e
    refine ⟨_, outcome?_of_spelled complaint hspelled env, ?_⟩
    rw [outcome?_of_spelled complaint hspelled', Request.result_check_input]
    rfl
  · refine ⟨_, _, _, fun answer => Request.answers_iff.trans eq_comm, env.logs_shownLog _ n,
      outcome?_of_spelled complaint hspelled env, Outcome.reports_ofResult _ _, ?_⟩
    rintro rfl
    refine ⟨fun h => ?_, fun args' hadds => ?_⟩
    · have hnothing := (LogFilter.filter_shows_ofVerbosity (r.result complaint env).2).1
      rw [Environment.filter, h, Option.getD_none, LogFilter.shownLog_eq, hnothing]
      rfl
    · obtain ⟨n', hargs'⟩ := exists_request_of_addsVerbose hadds
        (Invocation.ofArguments?_eq_some_iff.2 hspelled) 0
      have hspelled' : Invocation.Spelled args' n' r := Invocation.ofArguments?_eq_some_iff.1 hargs'
      obtain ⟨records, hsub, hlog⟩ := env.exists_shownLog_eq (r.result complaint env).2 n'
      refine ⟨n', _, records, hspelled', outcome?_of_spelled complaint hspelled' env, ?_⟩
      rw [hlog, Outcome.ofResult_append]
      exact ⟨rfl, rfl, hsub, rfl⟩

/-- A false verdict is no failure, and more detail changes neither. An input that is no text is one
even for a check of what is no expression, and a terminal is not even read. -/
theorem command_reports_detail :
    let complaint := fun _ => "EOF while parsing"
    let args : List String := ["check", "--facts", "[]", "a in [b]"]
    let detailed : List String := ["-v", "check", "--facts", "[]", "-vv", "a in [b]"]
    let env : Environment := ⟨⟨#[255]⟩, false, none⟩
    let terminal : Environment := ⟨.empty, true, none⟩
    (Invocation.Spelled args 0 (.check "a in [b]" (some "[]") false) ∧ AddsVerbose args detailed ∧
      outcome? complaint args env = some ⟨0, "false\n", ""⟩ ∧
      ∃ log, outcome? complaint detailed env = some ⟨0, "false\n", log⟩) ∧
    (Invocation.Spelled ["check", "--", "=="] 0 (.check "==" none false) ∧
      outcome? complaint ["check", "--", "=="] env =
        some ⟨1, "", "IO error: stream did not contain valid UTF-8\n"⟩) ∧
    Invocation.Spelled ["check", "--", "a in [b]"] 0 (.check "a in [b]" none false) ∧
      outcome? complaint ["check", "--", "a in [b]"] terminal =
        some ⟨1, "", "No facts provided. Use --facts or pipe JSON to stdin.\n"⟩ := by
  intro complaint args detailed env terminal
  obtain ⟨haccepted, -, hreports⟩ := command_reports complaint
  have hrun {args : List String} {r : Request} {env : Environment} {answer : Except String String}
      (hargs : Invocation.Spelled args 0 r) (hanswer : r.Answers complaint env answer)
      (hfilter : env.logFilter = none) :
      ∃ o, outcome? complaint args env = some o ∧ Outcome.Reports "" answer o ∧
        ∀ args', AddsVerbose args args' → ∃ o', outcome? complaint args' env = some o' ∧
          o'.code = o.code ∧ o'.stdout = o.stdout := by
    obtain ⟨_, _, o, hanswers, -, ho, hreport, hzero⟩ := hreports args 0 r env hargs
    obtain ⟨hlog, hmore⟩ := hzero rfl
    obtain rfl := (hanswers _).1 hanswer
    obtain rfl := hlog hfilter
    refine ⟨o, ho, hreport, fun args' hadds => ?_⟩
    obtain ⟨-, o', -, -, ho', hcode, hstdout, -⟩ := hmore args' hadds
    exact ⟨o', ho', hcode, hstdout⟩
  have hargs : Invocation.Spelled args 0 (.check "a in [b]" (some "[]") false) :=
    (haccepted _ _ _).1 (by cbv)
  have hadds : AddsVerbose args detailed := by
    refine .add (.letters 0) (.subcommand .check ?_)
    refine .value (.factsWaiting .facts) "[]" (.add (.letters 1) (.keep (.expression ?_) .nil))
    intro c cs h
    cases h
  have hverdict : check complaint "a in [b]" (some "[]") false = .ok (.verdict false) := by
    show check (fun _ => "EOF while parsing") "a in [b]" (some "[]") false = _
    cbv
  have hnoFacts : check complaint "a in [b]" none false = .error .noFacts := by
    show check (fun _ => "EOF while parsing") "a in [b]" none false = _
    cbv
  have hunreadable : env.IsUnreadable := by
    refine ⟨rfl, fun text htext => ?_⟩
    -- No text has the byte 255.
    have hvalid : ByteArray.IsValidUTF8 ⟨#[255]⟩ := by
      rw [show (⟨#[255]⟩ : ByteArray) = text.toUTF8 from htext]
      exact text.isValidUTF8
    exact absurd hvalid (by decide)
  have hanswer : (Request.check "a in [b]" (some "[]") false).Answers complaint env (.ok "false") :=
    .verdict (.arguments "[]" false) hverdict
  have hanswer' : (Request.check "a in [b]" none false).Answers complaint terminal
      (.error "No facts provided. Use --facts or pipe JSON to stdin.") :=
    .checkError (.terminal rfl) hnoFacts .noFacts
  obtain ⟨o, ho, hreport, hmore⟩ := hrun hargs hanswer rfl
  obtain ⟨⟨code, stdout, log⟩, ho', hcode, hstdout⟩ := hmore detailed hadds
  cases hreport
  obtain rfl : code = 0 := hcode
  obtain rfl : stdout = "false\n" := hstdout
  obtain ⟨o, hinvalid, hreport, -⟩ := hrun (spelled_check_input "==") (.unreadable hunreadable) rfl
  cases hreport
  obtain ⟨o, hterminal, hreport, -⟩ := hrun (spelled_check_input "a in [b]") hanswer' rfl
  cases hreport
  exact ⟨⟨hargs, hadds, ho, log, ho'⟩, ⟨spelled_check_input "==", hinvalid⟩,
    spelled_check_input "a in [b]", hterminal⟩

end FactQuery
