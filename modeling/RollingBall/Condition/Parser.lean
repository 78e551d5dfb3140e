import RollingBall.Condition
import RollingBall.Formula.Parser

/-!
# Reading conditions

A condition is a chain of formulas with one of `<`, `<=`, `>`, `>=`, `==` and `!=` between
neighbours; there is at least one. A relation of two characters is read before one of a single
character, and a lone `=` or `!` is no relation.
-/

namespace RollingBall

namespace Parser

variable {α ρ : Type}

/-- The relation that comes next, and the text after it. -/
def relation? (s : List Char) : Option (Relation × Rest s) :=
  match s with
  | '<' :: '=' :: _ => some (.le, .drop 2 _)
  | '<' :: _ => some (.lt, .drop 1 _)
  | '>' :: '=' :: _ => some (.ge, .drop 2 _)
  | '>' :: _ => some (.gt, .drop 1 _)
  | '=' :: '=' :: _ => some (.eq, .drop 2 _)
  | '!' :: '=' :: _ => some (.ne, .drop 2 _)
  | _ => none

/-- Items with relations between them. -/
def comparisons (item : Parser ρ) : Parser (Comparisons ρ) := fun s =>
  match item s with
  | .error e => .error e
  | .ok first =>
    match links relation? item first.rest with
    | .error e => .error e
    | .ok ([], ⟨rest, _⟩) => .error ⟨.notARelation, rest⟩
    | .ok (link :: more, ⟨rest, h⟩) =>
      .ok ⟨⟨first.value, link, more⟩, rest, first.shorter_of_le rest h⟩

end Parser

namespace Condition

variable {α ρ : Type} [Scalar α]

/-- A text without blanks as formulas with relations between them. -/
def parseWith (builder : Builder α ρ) (s : List Char) :
    Except SyntaxError (Option (Comparisons ρ)) :=
  Parser.whole (Parser.comparisons (Parser.formula builder)) s

/-- A text without blanks as a condition on folded formulas. -/
def parse (s : List Char) : Except SyntaxError (Option (Condition α)) :=
  (parseWith .folding s).map (Option.map ofChain)

end Condition

end RollingBall
