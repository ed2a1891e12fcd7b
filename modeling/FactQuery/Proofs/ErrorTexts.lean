import FactQuery.Check
import FactQuery.Proofs.Conversion
import FactQuery.Proofs.OffendingToken

/-!
# What errors say

Every error has one text, which says what is wrong and where: a position, a token in quotes, a tree
on one line, or a field by its name.

**Texts** (`CheckError.Shows`). The text of an error names the stage, and then it says what the
stage complains about. Each stage has its own texts: `LexFault.Shows`, `ParseError.Shows`,
`EvalError.Shows` and `FactsFault.Shows`. Messages are these texts (`CheckError.shows_iff`).
-/

namespace FactQuery

/-! ## Reading and deciding an expression -/

/-- What is said about a fault in a text. -/
inductive LexFault.Shows : LexFault → String → Prop
  | invalidCharacter (c : Char) (position : Nat) :
      Shows (.invalidCharacter c position)
        ("Invalid character: '" ++ c.toString ++ "' at position " ++ toString position)
  | unknownSymbol (c : Char) (position : Nat) :
      Shows (.unknownSymbol c position)
        ("Unknown symbol '" ++ c.toString ++ "' at position " ++ toString position)
  | invalidNumber (run : String) :
      Shows (.invalidNumber run) ("'" ++ run ++ "' is not a valid number")
  | illegalCombination (left right : Token) :
      Shows (.illegalCombination left right)
        ("'" ++ left.text ++ " " ++ right.text ++
          "' forms an illegal combination outside of a list")
  | listContent : Shows .listContent "Values in a list must be words or numbers"

theorem LexFault.shows_iff {fault : LexFault} {text : String} :
    fault.Shows text ↔ fault.message = text := by
  constructor
  · rintro (_ | _ | _ | _ | _) <;> rfl
  · rintro rfl
    cases fault with
    | invalidCharacter c position => exact .invalidCharacter c position
    | unknownSymbol c position => exact .unknownSymbol c position
    | invalidNumber run => exact .invalidNumber run
    | illegalCombination left right => exact .illegalCombination left right
    | listContent => exact .listContent

/-- What is said about tokens that are no expression. -/
inductive ParseError.Shows : ParseError → String → Prop
  | found {e : ParseError} {found : Option Token} {text message : String}
      (hfound : e.found? = some found) (htext : FoundText found text)
      (h : e.Says text message) : Shows e message
  | tooDeep : Shows .tooDeep "Expression nests deeper than 128 levels"

theorem ParseError.shows_iff {e : ParseError} {text : String} :
    e.Shows text ↔ e.message = text := by
  constructor
  · rintro (⟨hfound, htext, h⟩ | _)
    · obtain rfl := foundText_iff.1 htext
      exact (says_iff hfound).1 h
    · decide
  · rintro rfl
    cases hfound : e.found? with
    | some found => exact .found hfound (foundText_iff.2 rfl) ((says_iff hfound).2 rfl)
    | none =>
      cases e with
      | tooDeep => exact .tooDeep
      | _ => cases hfound

/-- What is said about an expression that has no verdict. -/
inductive EvalError.Shows : EvalError → String → Prop
  | notACondition (e : Expr) :
      Shows (.notACondition e) ("Cannot evaluate '" ++ e.compact ++ "' as a condition")
  | notAField (op : BinaryOp) (found : Expr) :
      Shows (.notAField op found)
        ("Expected a field name on the left of '" ++ op.spelling ++ "', found '" ++
          found.compact ++ "'")
  | notAList (found : Expr) :
      Shows (.notAList found)
        ("Expected a list on the right of 'in', found '" ++ found.compact ++ "'")

theorem EvalError.shows_iff {e : EvalError} {text : String} :
    e.Shows text ↔ e.message = text := by
  constructor
  · rintro (_ | _ | _) <;> rfl
  · rintro rfl
    cases e with
    | notACondition e => exact .notACondition e
    | notAField op found => exact .notAField op found
    | notAList found => exact .notAList found

/-! ## Facts -/

/-- What is said about JSON that gives no facts. -/
inductive FactsFault.Shows : FactsFault → String → Prop
  | notAnObject {v : JsonValue} {kind : String} (hkind : v.IsCalled kind) :
      Shows (.notAnObject v.type) ("expected an object, found " ++ kind)
  | notAScalar (name : String) {v : JsonValue} {kind : String} (hkind : v.IsCalled kind) :
      Shows (.notAScalar name v.type)
        ("field '" ++ name ++ "' holds an " ++ kind ++ "; fact values must be scalars")

theorem JsonType.exists_isCalled (t : JsonType) :
    ∃ v : JsonValue, v.type = t ∧ v.IsCalled t.name := by
  cases t with
  | null => exact ⟨_, rfl, .null⟩
  | boolean => exact ⟨_, rfl, .boolean true⟩
  | number => exact ⟨_, rfl, .number (.natural 0)⟩
  | string => exact ⟨_, rfl, .string ""⟩
  | array => exact ⟨_, rfl, .array []⟩
  | object => exact ⟨_, rfl, .object []⟩

theorem FactsFault.shows_iff {fault : FactsFault} {text : String} :
    fault.Shows text ↔ fault.message = text := by
  constructor
  · rintro (hkind | ⟨name, hkind⟩)
    · obtain rfl := JsonValue.isCalled_iff.1 hkind
      rfl
    · obtain rfl := JsonValue.isCalled_iff.1 hkind
      rfl
  · rintro rfl
    cases fault with
    | notAnObject found =>
      obtain ⟨v, rfl, hkind⟩ := found.exists_isCalled
      exact .notAnObject hkind
    | notAScalar name found =>
      obtain ⟨v, rfl, hkind⟩ := found.exists_isCalled
      exact .notAScalar name hkind

/-! ## Checks -/

/-- The text of an error. -/
inductive CheckError.Shows : CheckError → String → Prop
  | lex {fault : LexFault} {text : String} (h : fault.Shows text) (source : String) :
      Shows (.query (.lex ⟨fault, source⟩)) ("ERROR: " ++ text ++ "\nCode:\n\t" ++ source)
  | parse {e : ParseError} {text : String} (h : e.Shows text) :
      Shows (.query (.parse e)) ("Parse error: " ++ text)
  | eval {e : EvalError} {text : String} (h : e.Shows text) :
      Shows (.query (.eval e)) ("Evaluation error: " ++ text)
  | invalidJson (complaint : String) :
      Shows (.invalidJson complaint) ("Invalid JSON: " ++ complaint)
  | invalidFacts {fault : FactsFault} {text : String} (h : fault.Shows text) :
      Shows (.invalidFacts fault) ("Invalid facts: " ++ text)
  | unreadableInput : Shows .unreadableInput "IO error: stream did not contain valid UTF-8"
  | noFacts : Shows .noFacts "No facts provided. Use --facts or pipe JSON to stdin."

theorem CheckError.shows_iff {e : CheckError} {text : String} :
    e.Shows text ↔ e.message = text := by
  constructor
  · rintro (⟨h, _⟩ | h | h | _ | h | _ | _)
    · rw [← LexFault.shows_iff.1 h]
      rfl
    · rw [← ParseError.shows_iff.1 h]
      rfl
    · rw [← EvalError.shows_iff.1 h]
      rfl
    · rfl
    · rw [← FactsFault.shows_iff.1 h]
      rfl
    · rfl
    · rfl
  · rintro rfl
    rcases e with (⟨fault, source⟩ | e | e) | complaint | fault | _ | _
    · exact .lex (LexFault.shows_iff.2 rfl) source
    · exact .parse (ParseError.shows_iff.2 rfl)
    · exact .eval (EvalError.shows_iff.2 rfl)
    · exact .invalidJson complaint
    · exact .invalidFacts (FactsFault.shows_iff.2 rfl)
    · exact .unreadableInput
    · exact .noFacts

end FactQuery
