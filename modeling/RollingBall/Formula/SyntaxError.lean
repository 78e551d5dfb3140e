/-!
# Syntax errors

A text that is no formula or condition is refused for one `Cause`, at the place where reading
stopped. `SyntaxError.message` is the wording shown to the player.
-/

namespace RollingBall

/-- Why a text is refused. -/
inductive SyntaxError.Cause where
  | nestedTooDeeply
  | unclosed
  /-- A function lacks an argument. -/
  | missingComma
  | unknownFunction (name : String)
  | unknownVariable (name : String)
  /-- The text ends where an operand should stand. -/
  | missingOperand
  /-- Something else stands where an operand should. -/
  | notAnOperand
  /-- A run of digits and points that is no number. -/
  | badNumeral (text : String)
  /-- No operand is left after joining. -/
  | emptyExpression
  | notARelation
  | trailing
deriving DecidableEq, Repr

/-- A refused text: the cause, and the text that was still unread. -/
structure SyntaxError where
  cause : SyntaxError.Cause
  rest : List Char
deriving DecidableEq, Repr

namespace SyntaxError

/-- The wording shown to the player. -/
def message (e : SyntaxError) : String :=
  match e.cause with
  | .nestedTooDeeply => "Expression nested too deeply"
  | .unclosed => "Missing closing ')'"
  | .missingComma => "Missing comma between function parameters"
  | .unknownFunction name => "Unknown function: '" ++ name ++ "'"
  | .unknownVariable name =>
    "Unknown variable '" ++ name ++ "', only 'x', 't', 'pi' and 'e' are allowed"
  | .missingOperand => "Expression cannot end with an operator or '('"
  | .notAnOperand => "Expected a number or '(' instead of '" ++ String.ofList e.rest ++ "'"
  | .badNumeral text => "Invalid number '" ++ text ++ "'"
  | .emptyExpression => "Empty expression"
  | .notARelation =>
    let found := match e.rest with
      | c :: _ => String.singleton c
      | [] => "(end of expression)"
    "Expected a relational operator, found '" ++ found ++ "'"
  | .trailing => "Trailing content: '" ++ String.ofList e.rest ++ "'"

end SyntaxError

end RollingBall
