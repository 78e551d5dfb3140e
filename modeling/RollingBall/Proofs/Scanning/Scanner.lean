import RollingBall.Condition.Parser

/-!
# Reading with a cursor

The readers of formulas and conditions take texts apart, and their types say that they end. A
scanner does the same work on one text, along which it moves a cursor, and it counts the operands it
is in by stepping a counter up and down. Nothing says that it ends. So every routine that may come
to call itself is told how many calls may lie within one another, a turn of a loop being one of
them, and is `none` if it needs more; a scan that goes on for ever is `none` whatever it is told. A
scan keeps a log of all that is done.

## Main definitions

* `Scan`: a cursor, a counter and a log.
* `Scanner`: a program that moves a scan.
* `Scanner.expression`, `Scanner.operand`, `Scanner.condition`: the scanners of formulas and
  conditions.
-/

namespace RollingBall

/-- What a scanner does: it goes to a position or steps the counter of operands, copies a part of
the text, joins the two topmost operands while so many wait, or ends a chain with so many
operands. -/
inductive Event where
  | move (position depth : Nat)
  | copy (start stop : Nat)
  | merge (operands operators : Nat)
  | finish (operands : Nat)

/-- Where a scanner stands, within how many operands, and what it has done, the last first. -/
structure Scan where
  position : Nat
  depth : Nat
  log : List Event

/-- A program that moves a scan and ends with a value or an error, unless it runs out of calls. -/
abbrev Scanner (ρ : Type) : Type := ExceptT SyntaxError (StateT Scan Option) ρ

namespace Scanner

variable {α ρ : Type}

/-! ## Single moves -/

/-- No call is left. -/
def exhausted : Scanner ρ := fun _ => none

/-- Does something and logs it. -/
def act (event : Scan → Event) (change : Scan → Scan) : StateT Scan Option Unit :=
  modify fun scan => { change scan with log := event scan :: scan.log }

/-- Moves the cursor over so many characters. -/
def advance (n : Nat) : Scanner Unit :=
  act (fun scan => .move (scan.position + n) scan.depth)
    fun scan => { scan with position := scan.position + n }

/-- Moves the cursor back to a position. -/
def returnTo (position : Nat) : Scanner Unit :=
  act (fun scan => .move position scan.depth) fun scan => { scan with position }

/-- Counts one operand more. -/
def enter : StateT Scan Option Unit :=
  act (fun scan => .move scan.position (scan.depth + 1))
    fun scan => { scan with depth := scan.depth + 1 }

/-- Counts one operand less. -/
def leave : StateT Scan Option Unit :=
  act (fun scan => .move scan.position (scan.depth - 1))
    fun scan => { scan with depth := scan.depth - 1 }

/-! ## Words -/

/-- The operator that is written with a character. -/
def sign? : Char → Option BinaryOp
  | '+' => some .add
  | '-' => some .sub
  | '*' => some .mul
  | '/' => some .div
  | _ => none

/-- The relation that is written with two characters or with the first of them, and with how many it
is written. -/
def relationOf? : Option Char → Option Char → Option (Relation × Nat)
  | some '<', some '=' => some (.le, 2)
  | some '<', _ => some (.lt, 1)
  | some '>', some '=' => some (.ge, 2)
  | some '>', _ => some (.gt, 1)
  | some '=', some '=' => some (.eq, 2)
  | some '!', some '=' => some (.ne, 2)
  | _, _ => none

section Words

variable (text : List Char)

/-- The character so many places after the cursor. -/
def peek (offset : Nat) : Scanner (Option Char) := do
  return text[(← get).position + offset]?

/-- Refuses the text where the cursor is. -/
def refuse (cause : SyntaxError.Cause) : Scanner ρ := do
  throw ⟨cause, text.drop (← get).position⟩

/-- Moves over a character if it comes next. -/
def consume (c : Char) : Scanner Bool := do
  if (← peek text 0) = some c then
    advance 1
    return true
  else
    return false

/-- Moves over a character that has to come next. -/
def expect (c : Char) (cause : SyntaxError.Cause) : Scanner Unit := do
  if ← consume text c then
    return ()
  else
    refuse text cause

/-- The text between two positions. -/
def copy (start stop : Nat) : Scanner (List Char) := do
  act (fun _ => .copy start stop) id
  return (text.drop start).take (stop - start)

/-- Moves over the characters of a class that come next, and counts them. -/
def skipWhile (p : Char → Bool) : Nat → Scanner Nat
  | 0 => exhausted
  | n + 1 => do
    match ← peek text 0 with
    | some c =>
      if p c then
        advance 1
        return (← skipWhile p n) + 1
      else
        return 0
    | none => return 0

/-- Digits with a point among them or none, and how many digits they are. -/
def digits (n : Nat) : Scanner Nat := do
  let whole ← skipWhile text Char.isDigit n
  if ← consume text '.' then
    return whole + (← skipWhile text Char.isDigit n)
  else
    return whole

/-- A numeral. If it has no digit, the cursor goes back to where it was. -/
def numeral [Scalar α] (B : Builder α ρ) (n : Nat) : Scanner ρ := do
  let start := (← get).position
  if (← digits text n) = 0 then
    returnTo start
    if text.length ≤ start then
      refuse text .missingOperand
    else
      refuse text .notAnOperand
  else
    let numeral ← copy text start (← get).position
    match Numeral.read? numeral with
    | some value => return B.constant value
    | none => refuse text (.badNumeral (String.ofList numeral))

/-- A name, whose first character is known to be a letter. -/
def name (n : Nat) : Scanner String := do
  let start := (← get).position
  let _ ← skipWhile text Parser.isNamePart n
  return String.ofList (← copy text start (← get).position)

/-- The operator that comes next. The cursor stays before a letter. -/
def operator : Scanner (Option BinaryOp) := do
  match ← peek text 0 with
  | none => return none
  | some c =>
    if Text.isLetter c then
      return some .mul
    else
      match sign? c with
      | some op => advance 1; return some op
      | none => return none

/-- The relation that comes next. -/
def relation : Scanner (Option Relation) := do
  match relationOf? (← peek text 0) (← peek text 1) with
  | some (relation, length) => advance length; return some relation
  | none => return none

end Words

/-! ## Stacks -/

section Stacks

variable (join : BinaryOp → ρ → ρ → ρ)

/-- Joins the two topmost operands with the topmost operator. -/
def mergeTop (s : Stacks ρ) : Scanner (Stacks ρ) := do
  act (fun _ => .merge s.operands.length s.operators.length) id
  return s.mergeTop join

/-- Joins what binds at least as tight as the incoming operator. -/
def makeRoom (op : BinaryOp) : Nat → Stacks ρ → Scanner (Stacks ρ)
  | 0, _ => exhausted
  | n + 1, s => do
    match s.operators with
    | [] => return s
    | top :: _ =>
      if op.precedence ≤ top.precedence then
        makeRoom op n (← mergeTop join s)
      else
        return s

/-- Joins until no operator waits. -/
def mergeAll : Nat → Stacks ρ → Scanner (Stacks ρ)
  | 0, _ => exhausted
  | n + 1, s => do
    match s.operators with
    | [] => return s
    | _ :: _ => mergeAll n (← mergeTop join s)

end Stacks

/-! ## Phrases -/

section Phrases

variable [Scalar α] (text : List Char) (B : Builder α ρ)

mutual

/-- An operand and the operators and operands that follow it. -/
def expression : Nat → Scanner ρ
  | 0 => exhausted
  | n + 1 => do
    let first ← operand n
    match ← operator text with
    | none => return first
    | some op =>
      let next ← operand n
      chain n ⟨[next, first], [op]⟩

/-- The rest of a chain, with what waits to be joined. -/
def chain : Nat → Stacks ρ → Scanner ρ
  | 0, _ => exhausted
  | n + 1, s => do
    match ← operator text with
    | some op =>
      let next ← operand n
      let s ← makeRoom B.binary op n s
      chain n ⟨next :: s.operands, op :: s.operators⟩
    | none =>
      let s ← mergeAll B.binary n s
      act (fun _ => .finish s.operands.length) id
      match s.operands with
      | value :: _ => return value
      | [] => refuse text .emptyExpression

/-- An operand, if the limit on nesting allows one more. The counter is stepped down whatever comes
of the operand. -/
def operand : Nat → Scanner ρ
  | 0 => exhausted
  | n + 1 =>
    show StateT Scan Option (Except SyntaxError ρ) from do
      if maxNesting ≤ (← get).depth then
        (refuse text .nestedTooDeeply).run
      else
        enter
        let result ← (signedPower n).run
        leave
        return result

/-- A power with an optional sign. -/
def signedPower : Nat → Scanner ρ
  | 0 => exhausted
  | n + 1 => do
    let negative ← consume text '-'
    let value ← power n
    return if negative then B.negate value else value

/-- A primary with an optional exponent. -/
def power : Nat → Scanner ρ
  | 0 => exhausted
  | n + 1 => do
    let base ← primary n
    if ← consume text '^' then
      return B.binary .pow base (← operand n)
    else
      return base

/-- A formula in parentheses, a name or a numeral. -/
def primary : Nat → Scanner ρ
  | 0 => exhausted
  | n + 1 => do
    if ← consume text '(' then
      let value ← expression n
      expect text ')' .unclosed
      return value
    else
      match ← peek text 0 with
      | some c => if Text.isLetter c then nameOrCall n else numeral text B n
      | none => numeral text B n

/-- A variable, a constant or a call. -/
def nameOrCall : Nat → Scanner ρ
  | 0 => exhausted
  | n + 1 => do
    let name ← name text n
    if ← consume text '(' then
      call n name
    else
      match Parser.named? B name with
      | some value => return value
      | none => refuse text (.unknownVariable name)

/-- The arguments of a call and the closing parenthesis. -/
def call : Nat → String → Scanner ρ
  | 0, _ => exhausted
  | n + 1, name => do
    match Builtin.ofName? name with
    | none => refuse text (.unknownFunction name)
    | some fn =>
      let first ← expression n
      let more ← moreArguments n (fn.arity - 1)
      expect text ')' .unclosed
      return B.call fn (first :: more)

/-- So many further arguments, each after a comma. -/
def moreArguments : Nat → Nat → Scanner (List ρ)
  | 0, _ => exhausted
  | _ + 1, 0 => return []
  | n + 1, k + 1 => do
    expect text ',' .missingComma
    let arg ← expression n
    return arg :: (← moreArguments n k)

end

/-- Relations, each with the formula after it, as many as follow. -/
def relations : Nat → Scanner (List (Relation × ρ))
  | 0 => exhausted
  | n + 1 => do
    match ← relation text with
    | none => return []
    | some relation =>
      let next ← expression text B n
      return (relation, next) :: (← relations n)

/-- Formulas with relations between them. -/
def condition (n : Nat) : Scanner (Comparisons ρ) := do
  let first ← expression text B n
  match ← relation text with
  | none => refuse text .notARelation
  | some relation =>
    let next ← expression text B n
    return ⟨first, (relation, next), ← relations text B n⟩

end Phrases

end Scanner

end RollingBall
