import FactQuery.Log

/-!
# Which records a log shows

A filter shows some records of a log. There is one for each detail that arguments may ask for
(`ofVerbosity`), and any other one may be set from outside.

**Directives** (`ofText`). A filter that is set from outside is written as directives between
commas. `level` goes for all records, `target=level` for those under a target that begins so, and
`target` for all details of these. The directive with the longest target counts, and of two equally
long ones the later one; a record that none goes for is not shown. What is no directive is passed
over with a notice.

**Patterns.** Behind a slash there may be a pattern, which the texts of the records have to match.
What it is to match is a parameter.
-/

namespace FactQuery

/-- Which records a log shows, and what is to be said first about the filter itself. -/
structure LogFilter where
  notice : String
  shows : LogRecord → Bool

/-- Whether records of a detail are shown. -/
def Detail.isShown (verbosity : Nat) : Detail → Bool
  | .debug => 1 ≤ verbosity
  | .trace => 2 ≤ verbosity

namespace LogFilter

/-- The filter for the detail that is asked for. -/
def ofVerbosity (verbosity : Nat) : LogFilter := ⟨"", fun r => r.stage.detail.isShown verbosity⟩

/-- The lines of the records that are shown. -/
def shownLog (filter : LogFilter) (log : List LogRecord) : String :=
  filter.notice ++ String.join ((log.filter filter.shows).map fun r => r.line ++ "\n")

/-! ## Directives -/

/-- The names of levels in ascending order. -/
def levels : List String := ["off", "error", "warn", "info", "debug", "trace"]

def level? (name : String) : Option Nat := levels.idxOf? (name.map Char.toLower)

/-- The target of a directive and the level up to which its records are shown, or what is wrong. -/
def directive (s : String) : Except String (String × Nat) :=
  match s.splitOn "=" with
  | [word] => .ok (((level? word).map ("", ·)).getD (word, levels.length))
  | [target, name] =>
    let name := String.ofList (Text.trim name.toList)
    if name = "" then .ok (target, levels.length)
    else ((level? name).map (target, ·)).elim (.error name) .ok
  | _ => .error s

/-- The level that counts for a target. -/
def levelOf (directives : List (String × Nat)) (target : String) : Nat :=
  let fitting := directives.filter fun d => d.1.toList.isPrefixOf target.toList
  (fitting.foldl (fun best d => if best.1.length ≤ d.1.length then d else best) ("", 0)).2

/-- The notice of a text that sets no filter. -/
def noticeOf (wrong : String) : String :=
  "warning: invalid logging spec " ++ wrong ++ ", ignoring it\n"

/-- The filter that directives set, and a pattern if there is one. -/
def ofDirectives (pattern : Option (String → Bool)) (text : String) : LogFilter :=
  let parts := (text.splitOn ",").map fun s => String.ofList (Text.trim s.toList)
  let results := (parts.filter (· != "")).map directive
  let directives := results.filterMap fun result => result.toOption
  { notice := String.join (results.map fun
      | .ok _ => ""
      | .error wrong => noticeOf ("'" ++ wrong ++ "'"))
    shows := fun r =>
      (level? r.stage.detail.name).any (· ≤ levelOf directives r.stage.target) &&
        pattern.all (· r.text) }

/-- The filter that a text sets. -/
def ofText (matchesPattern : String → String → Bool) (text : String) : LogFilter :=
  match text.splitOn "/" with
  | [directives] => ofDirectives none directives
  | [directives, pattern] => ofDirectives (some (matchesPattern pattern)) directives
  | _ => ⟨noticeOf ("'" ++ text ++ "' (too many '/'s)"), fun _ => false⟩

end LogFilter

end FactQuery
