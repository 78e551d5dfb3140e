import RollingBall.Formula.SyntaxError
import RollingBall.Formula.Numeral
import RollingBall.Formula.Chain
import RollingBall.Formula.Folding
import RollingBall.Text.Letter
import RollingBall.Text.Parsed

/-!
# Reading formulas

A formula is a chain of operands joined by `+`, `-`, `*` and `/`; an operand that begins with a
letter needs no `*` before it. An operand is a power with an optional sign, which applies to the
whole power. A power is a primary with an optional `^` and an operand as exponent, so `^` groups to
the right. A primary is a formula in parentheses, a numeral, a variable, a constant or a call.

Operands contain operands; `operand builder n` reads those with at most `n` on a path, and the
reader of a chain takes the reader of its operands as an argument. Every reader returns what it left
unread, together with the fact that it read something.

## Main definitions

* `Parser`: a reader that consumes at least one character when it succeeds.
* `Parser.expression`, `Parser.operand`: the readers of the two levels of the grammar.
* `Formula.parseWith`, `Formula.parse`: a whole text as a formula.
-/

namespace RollingBall

/-- A reader of values: it takes something off the front of a text or refuses it. -/
abbrev Parser (ρ : Type) : Type := (s : List Char) → Except SyntaxError (Parsed ρ s)

/-- The most operands that may lie within one another. -/
def maxNesting : Nat := 256

namespace Parser

variable {α ρ : Type}

/-- The text after a character that has to come next. -/
def expect (c : Char) (cause : SyntaxError.Cause) (s : List Char) :
    Except SyntaxError (ShorterRest s) :=
  match s with
  | head :: tail => if head = c then .ok ⟨tail, by simp⟩ else .error ⟨cause, head :: tail⟩
  | [] => .error ⟨cause, []⟩

/-! ## Chains -/

/-- The operator that comes next, and the text after it. A letter stands for a product and is left
in place. -/
def operator? (s : List Char) : Option (BinaryOp × Rest s) :=
  match s with
  | [] => none
  | c :: _ =>
    if Text.isLetter c then some (.mul, .drop 0 _)
    else
      match c with
      | '+' => some (.add, .drop 1 _)
      | '-' => some (.sub, .drop 1 _)
      | '*' => some (.mul, .drop 1 _)
      | '/' => some (.div, .drop 1 _)
      | _ => none

/-- Separators, each with the item after it, as many as follow. -/
def links {σ : Type} (separator? : (s : List Char) → Option (σ × Rest s)) (item : Parser ρ)
    (s : List Char) : Except SyntaxError (List (σ × ρ) × Rest s) :=
  match separator? s with
  | none => .ok ([], .drop 0 s)
  | some (separator, ⟨afterSeparator, hseparator⟩) =>
    match item afterSeparator with
    | .error e => .error e
    | .ok next =>
      have _shorter : next.rest.length < s.length := Nat.lt_of_lt_of_le next.shorter hseparator
      match links separator? item next.rest with
      | .error e => .error e
      | .ok (more, ⟨rest, hrest⟩) => .ok ((separator, next.value) :: more, ⟨rest, by omega⟩)
termination_by s.length

/-- An operand and the operators and operands that follow it. -/
def chain (operand : Parser ρ) : Parser (Chain ρ) := fun s =>
  match operand s with
  | .error e => .error e
  | .ok first =>
    match links operator? operand first.rest with
    | .error e => .error e
    | .ok (more, ⟨rest, h⟩) =>
      .ok ⟨⟨first.value, more⟩, rest, first.shorter_of_le rest h⟩

/-- A chain joined to one value. -/
def expression (builder : Builder α ρ) (operand : Parser ρ) : Parser ρ := fun s =>
  match chain operand s with
  | .error e => .error e
  | .ok parsed =>
    match parsed.value.join? builder.binary with
    | some value => .ok ⟨value, parsed.rest, parsed.shorter⟩
    | none => .error ⟨.emptyExpression, parsed.rest⟩

/-! ## Primaries -/

/-- A numeral. -/
def numeral [Scalar α] (builder : Builder α ρ) : Parser ρ := fun s =>
  if h : (Numeral.scan s).1.any Char.isDigit then
    match Numeral.read? (Numeral.scan s).1 with
    | some value =>
      .ok ⟨builder.constant value, (Numeral.scan s).2, Numeral.length_scan_lt h⟩
    | none =>
      .error ⟨.badNumeral (String.ofList (Numeral.scan s).1), (Numeral.scan s).2⟩
  else if s.isEmpty then .error ⟨.missingOperand, s⟩
  else .error ⟨.notAnOperand, s⟩

/-- The value of a name that is not called. -/
def named? [Scalar α] (builder : Builder α ρ) : String → Option ρ
  | "x" => some (builder.var .x)
  | "t" => some (builder.var .t)
  | "pi" | "PI" => some (builder.constant Scalar.pi)
  | "e" | "E" => some (builder.constant Scalar.euler)
  | _ => none

/-- Further arguments, each after a comma. -/
def moreArguments (expression : Parser ρ) :
    Nat → (s : List Char) → Except SyntaxError (List ρ × Rest s)
  | 0, s => .ok ([], .drop 0 s)
  | n + 1, s =>
    match expect ',' .missingComma s with
    | .error e => .error e
    | .ok ⟨afterComma, hcomma⟩ =>
      match expression afterComma with
      | .error e => .error e
      | .ok arg =>
        match moreArguments expression n arg.rest with
        | .error e => .error e
        | .ok (args, ⟨rest, hrest⟩) =>
          .ok (arg.value :: args, ⟨rest, by have := arg.shorter; omega⟩)

/-- The arguments of a call after its opening parenthesis, and the closing one. -/
def call (builder : Builder α ρ) (expression : Parser ρ) (name : String) : Parser ρ := fun s =>
  match Builtin.ofName? name with
  | none => .error ⟨.unknownFunction name, s⟩
  | some fn =>
    match expression s with
    | .error e => .error e
    | .ok first =>
      match moreArguments expression (fn.arity - 1) first.rest with
      | .error e => .error e
      | .ok (args, ⟨afterArgs, hargs⟩) =>
        match expect ')' .unclosed afterArgs with
        | .error e => .error e
        | .ok ⟨rest, hrest⟩ =>
          .ok ⟨builder.call fn (first.value :: args), rest, by have := first.shorter; omega⟩

/-- The characters of a name after its first, which is a letter. -/
def isNamePart (c : Char) : Bool := Text.isLetterOrNumeral c || c == '_'

/-- What comes after a name is shorter than the text that the name begins. -/
theorem shorter_afterName (c : Char) (tail rest : List Char)
    (h : tail.dropWhile isNamePart = rest) : rest.length < (c :: tail).length :=
  lt_length_cons_of_le c rest tail (h ▸ (List.dropWhile_sublist isNamePart).length_le)

theorem shorter_afterCall (c : Char) (tail inside : List Char)
    (h : tail.dropWhile isNamePart = '(' :: inside) (parsed : Parsed ρ inside) :
    parsed.rest.length < (c :: tail).length :=
  Nat.lt_trans (Nat.lt_succ_of_lt parsed.shorter) (shorter_afterName c tail _ h)

/-- A variable, a constant or a call: `tail` follows the letter `c`, and the name takes in all it
can. -/
def nameOrCall [Scalar α] (builder : Builder α ρ) (expression : Parser ρ) (c : Char)
    (tail : List Char) : Except SyntaxError (Parsed ρ (c :: tail)) :=
  let name := String.ofList (c :: tail.takeWhile isNamePart)
  match hrest : tail.dropWhile isNamePart with
  | '(' :: inside =>
    match call builder expression name inside with
    | .error e => .error e
    | .ok parsed =>
      .ok ⟨parsed.value, parsed.rest, shorter_afterCall c tail inside hrest parsed⟩
  | rest =>
    match named? builder name with
    | some value => .ok ⟨value, rest, shorter_afterName c tail rest hrest⟩
    | none => .error ⟨.unknownVariable name, rest⟩

/-- A formula in parentheses, a name or a numeral. -/
def primary [Scalar α] (builder : Builder α ρ) (expression : Parser ρ) : Parser ρ := fun s =>
  match s with
  | [] => numeral builder []
  | c :: tail =>
    if c = '(' then
      match expression tail with
      | .error e => .error e
      | .ok inner =>
        match expect ')' .unclosed inner.rest with
        | .error e => .error e
        | .ok ⟨rest, h⟩ =>
          .ok ⟨inner.value, rest, by have := inner.shorter; simp only [List.length_cons]; omega⟩
    else if Text.isLetter c then nameOrCall builder expression c tail
    else numeral builder (c :: tail)

/-! ## Operands -/

/-- A primary with an optional exponent. -/
def power [Scalar α] (builder : Builder α ρ) (operand : Parser ρ) : Parser ρ := fun s =>
  match primary builder (expression builder operand) s with
  | .error e => .error e
  | .ok base =>
    match hrest : base.rest with
    | '^' :: afterCaret =>
      match operand afterCaret with
      | .error e => .error e
      | .ok exponent =>
        .ok ⟨builder.binary .pow base.value exponent.value, exponent.rest, by
          have h₁ := base.shorter
          have h₂ := exponent.shorter
          simp only [hrest, List.length_cons] at h₁
          omega⟩
    | _ => .ok base

/-- A power with an optional sign. -/
def signedPower [Scalar α] (builder : Builder α ρ) (operand : Parser ρ) : Parser ρ := fun s =>
  match s with
  | [] => power builder operand []
  | c :: tail =>
    if c = '-' then
      match power builder operand tail with
      | .error e => .error e
      | .ok parsed =>
        .ok ⟨builder.negate parsed.value, parsed.rest, Nat.lt_succ_of_lt parsed.shorter⟩
    else power builder operand (c :: tail)

/-- An operand with at most the given number of operands on a path, itself included. -/
def operand [Scalar α] (builder : Builder α ρ) : Nat → Parser ρ
  | 0 => fun s => .error ⟨.nestedTooDeeply, s⟩
  | n + 1 => signedPower builder (operand builder n)

/-- A formula within the limit on nesting. -/
def formula [Scalar α] (builder : Builder α ρ) : Parser ρ :=
  expression builder (operand builder maxNesting)

/-- A whole text: none if it is empty, and refused if something is left. -/
def whole (parser : Parser ρ) (s : List Char) : Except SyntaxError (Option ρ) :=
  if s.isEmpty then .ok none
  else
    match parser s with
    | .error e => .error e
    | .ok parsed =>
      if parsed.rest.isEmpty then .ok (some parsed.value) else .error ⟨.trailing, parsed.rest⟩

end Parser

namespace Formula

variable {α ρ : Type} [Scalar α]

/-- A text without blanks as a formula, its nodes built as the builder says. -/
def parseWith (builder : Builder α ρ) (s : List Char) : Except SyntaxError (Option ρ) :=
  Parser.whole (Parser.formula builder) s

/-- A text without blanks as a formula whose constants are folded. -/
def parse (s : List Char) : Except SyntaxError (Option (Formula α)) := parseWith .folding s

end Formula

end RollingBall
