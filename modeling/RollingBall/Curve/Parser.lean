import RollingBall.Curve
import RollingBall.Condition.Parser
import RollingBall.Text.Blank

/-!
# Reading curves

The player types a formula and, if the curve shall not exist everywhere, a condition. Blanks count
nowhere. A blank formula is no curve, whatever the condition says.
-/

namespace RollingBall.Curve

variable {α : Type} [Scalar α]

/-- The curve of a formula and a condition, both as typed. -/
def parse (formula condition : String) : Except SyntaxError (Option (Curve α)) :=
  match Formula.parse (Text.removeBlanks formula.toList) with
  | .error e => .error e
  | .ok none => .ok none
  | .ok (some f) =>
    match Condition.parse (Text.removeBlanks condition.toList) with
    | .error e => .error e
    | .ok none => .ok (some (unconditional f))
    | .ok (some c) => .ok (some ⟨f, c⟩)

end RollingBall.Curve
