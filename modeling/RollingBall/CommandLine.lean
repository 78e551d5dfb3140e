import RollingBall.Blueprint.Catalog
import RollingBall.Blueprint.Json
import RollingBall.Curve.Parser
import RollingBall.Decimal.Scientific
import RollingBall.Simulator

/-!
# The command line

The command line plays one level with the given equations and reports the outcome. The first
argument is the id of a built-in level or the name of a level file; each further one is a formula
with an optional condition after a semicolon. Blank formulas are left out.

## Main definitions

* `CommandLine.firstEnd`: the first end of a round within a number of ticks.
* `CommandLine.run`: what is printed, and the exit code, given the contents of files.
-/

namespace RollingBall.CommandLine

/-- What the program leaves behind: its exit code, and what it prints on standard output and on
standard error. -/
structure Outcome where
  code : UInt8
  out : String
  err : String
deriving DecidableEq, Repr

/-- The contents of a file, or why it cannot be read. -/
abbrev Files : Type := String → Except String String

/-- The outcome of a call that is refused with a message. -/
def refusal (message : String) : Outcome := ⟨2, "", message ++ "\n"⟩

/-- How to call the program. -/
def usage : String := "Usage: rolling-ball <level-id | level.json> <EXPR[;CONDITION]>..."

/-- A number below `2 ^ 32`, written in digits with an optional plus sign. -/
def levelId? (text : String) : Option Nat :=
  let ds := match text.toList with
    | '+' :: ds => ds
    | ds => ds
  if !ds.isEmpty && ds.all Char.isDigit then
    let n := Decimal.ofDigits ds
    if n < UInt32.size then some n else none
  else none

/-- The level an argument names, or why there is none. The words `not a level` stand for what the
reader of JSON says about the fault of a file, which is not modelled. -/
def loadLevel (files : Files) (arg : String) : Except String (Blueprint Float) :=
  match levelId? arg with
  | some id =>
    match Blueprint.byId? id with
    | some b => .ok b
    | none => .error ("No built-in level with id " ++ toString id)
  | none =>
    match files arg with
    | .error reason => .error ("Cannot read " ++ arg ++ ": " ++ reason)
    | .ok text =>
      match Blueprint.fromText? text with
      | some b => .ok b
      | none => .error ("Invalid level file " ++ arg ++ ": not a level")

/-- A formula and a condition, divided at the first semicolon. -/
def splitEquation (equation : String) : String × String :=
  let cs := equation.toList
  (String.ofList (cs.takeWhile (· ≠ ';')), String.ofList ((cs.dropWhile (· ≠ ';')).drop 1))

/-- The curves of the equations, or the message about the first that is refused. -/
def readEquations : List String → Except String (List (Curve Float))
  | [] => .ok []
  | equation :: equations =>
    let (formula, condition) := splitEquation equation
    match Curve.parse formula condition with
    | .error e => .error ("Syntax error in '" ++ equation ++ "': " ++ e.message)
    | .ok none => readEquations equations
    | .ok (some curve) => (readEquations equations).map (curve :: ·)

/-- The simulator of a level with the curves added in order. -/
def prepare (b : Blueprint Float) (curves : List (Curve Float)) : Simulator Float :=
  curves.foldl (fun sim curve => (sim.addGraph curve).2) (.ofLevel b.instantiate)

/-- The first end of a round within a number of ticks, and the simulator after it. -/
def firstEnd {α : Type} [Scalar α] : Nat → Simulator α → Option (RoundEnd α) × Simulator α
  | 0, sim => (none, sim)
  | n + 1, sim =>
    match sim.tick with
    | (none, sim) => firstEnd n sim
    | (some roundEnd, sim) => (some roundEnd, sim)

/-- A round that is not over after this many seconds is given up. -/
def maxSeconds : Nat := 120

/-- The greatest number of ticks of a round. -/
def maxTicks : Nat := maxSeconds * Rules.ticksPerSecond

/-- What is reported about a round. -/
def report (b : Blueprint Float) (equations : Nat) :
    Option (RoundEnd Float) × Simulator Float → Outcome
  | (some ⟨true, elapsed⟩, _) =>
    let score := b.score equations elapsed
    ⟨0, "Won in " ++ Decimal.fixed 2 elapsed ++ "s with " ++ toString equations ++
      " equation(s)\nScore: " ++ Decimal.fixed 0 (score * 100.0) ++ "%\n", ""⟩
  | (some ⟨false, elapsed⟩, sim) =>
    ⟨1, "Lost after " ++ Decimal.fixed 2 elapsed ++ "s at (" ++ Decimal.fixed 2 sim.ball.pos.x ++
      ", " ++ Decimal.fixed 2 sim.ball.pos.y ++ ")\n", ""⟩
  | (none, _) => ⟨1, "No result after " ++ toString maxSeconds ++ "s\n", ""⟩

/-- What the program does with its arguments. -/
def run (files : Files) : List String → Outcome
  | [] => refusal usage
  | level :: equations =>
    match loadLevel files level with
    | .error message => refusal message
    | .ok b =>
      match readEquations equations with
      | .error message => refusal message
      | .ok curves => report b curves.length (firstEnd maxTicks (prepare b curves).toggle)

end RollingBall.CommandLine
