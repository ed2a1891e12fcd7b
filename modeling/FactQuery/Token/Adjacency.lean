import FactQuery.Token.Fault

/-!
# Which tokens may stand together

Outside a list no two literals stand side by side, and inside a list no keyword stands but the
brackets. A token is inside a list from an opening bracket up to the next closing one; brackets do
not nest. The first violation from the left counts.
-/

namespace FactQuery

/-- Whether the token after `previous` is inside a list; it opens or closes one itself. -/
def insideList (inList : Bool) : Token → Bool
  | .keyword .openList => true
  | .keyword .closeList => false
  | _ => inList

/-- A keyword other than the two brackets. -/
def Token.isOperator : Token → Bool
  | .keyword .openList => false
  | .keyword .closeList => false
  | .keyword _ => true
  | .literal _ => false

/-- What is wrong with a token after the previous one. -/
def neighbourFault? (inList : Bool) (previous : Option Token) (t : Token) : Option LexFault :=
  if inList then if t.isOperator then some .listContent else none
  else match previous with
    | some p => if p.isLiteral && t.isLiteral then some (.illegalCombination p t) else none
    | none => none

/-- The first violation among tokens, given what stands before them. -/
def adjacencyFaultFrom? (inList : Bool) (previous : Option Token) : List Token → Option LexFault
  | [] => none
  | t :: tokens =>
    let inList := insideList inList t
    match neighbourFault? inList previous t with
    | some fault => some fault
    | none => adjacencyFaultFrom? inList (some t) tokens

/-- The first violation in a token sequence. -/
def adjacencyFault? (tokens : List Token) : Option LexFault := adjacencyFaultFrom? false none tokens

/-- Accepts the tokens of a text if they may stand together. -/
def checkAdjacency (tokens : List Token) (source : String) : Except LexError Unit :=
  match adjacencyFault? tokens with
  | none => .ok ()
  | some fault => .error ⟨fault, source⟩

end FactQuery
