import RollingBall.Formula.Parser
import RollingBall.Proofs.Reading.Precedence

/-!
# The grammar of formulas

What a text means as a formula, said without a reader. `Grammar.Expression B n s e r` says that the
text `s` begins with a formula that stands for `e`, that `r` is left after it, and that at most `n`
operands lie within one another in it; the other relations say the same of the other phrases. The
nodes are built by `B`. A rule may look at what is left, as the rule for names does, which take in
all the letters they can.

## Main definitions

* `Grammar.Number`, `Grammar.Name`, `Grammar.Symbol`: the words.
* `Grammar.Expression`, `Grammar.Operand` and the relations between them: the phrases.
* `Grammar.Derives`: a whole text stands for a formula.
-/

namespace RollingBall.Grammar

variable {α ρ : Type}

/-! ## Words -/

/-- The text does not begin with a character of the class. -/
def Stops (p : Char → Bool) (r : List Char) : Prop := ∀ c ∈ r.head?, p c = false

@[simp] theorem stops_nil (p : Char → Bool) : Stops p [] := by simp [Stops]

@[simp] theorem stops_cons {p : Char → Bool} {c : Char} {r : List Char} :
    Stops p (c :: r) ↔ p c = false := by simp [Stops]

theorem stops_char_iff {c : Char} {r : List Char} : Stops (· == c) r ↔ ∀ s, r ≠ c :: s := by
  cases r with
  | nil => simp
  | cons d r => simp

theorem Stops.mono {p q : Char → Bool} {r : List Char} (h : Stops p r)
    (hpq : ∀ c, q c → p c) : Stops q r := by
  intro c hc
  cases hq : q c with
  | false => rfl
  | true => exact absurd (hpq c hq) (by simp [h c hc])

/-- Decimal digits and a point, of which there is at most one, and at least one digit. The digits
after the point count as decimal places. -/
inductive Number [Scalar α] : List Char → α → List Char → Prop where
  | whole {ds r : List Char} (hne : ds ≠ []) (hds : ∀ c ∈ ds, c.isDigit) :
      Number (ds ++ r) (OfScientific.ofScientific (Decimal.ofDigits ds) true 0) r
  | point {ds fs r : List Char} (hne : ds ++ fs ≠ []) (hds : ∀ c ∈ ds ++ fs, c.isDigit) :
      Number (ds ++ '.' :: (fs ++ r))
        (OfScientific.ofScientific (Decimal.ofDigits (ds ++ fs)) true fs.length) r

/-- A letter and the letters, numerals and underscores after it, as many as there are. -/
inductive Name : List Char → String → List Char → Prop where
  | mk {c : Char} {cs r : List Char} (hc : Text.isLetter c)
      (hcs : ∀ d ∈ cs, Parser.isNamePart d) (hr : Stops Parser.isNamePart r) :
      Name (c :: (cs ++ r)) (String.ofList (c :: cs)) r

/-- The names that stand for something by themselves. -/
inductive Symbol [Scalar α] (B : Builder α ρ) : String → ρ → Prop where
  | x : Symbol B "x" (B.var .x)
  | t : Symbol B "t" (B.var .t)
  | pi : Symbol B "pi" (B.constant Scalar.pi)
  | capitalPi : Symbol B "PI" (B.constant Scalar.pi)
  | e : Symbol B "e" (B.constant Scalar.euler)
  | capitalE : Symbol B "E" (B.constant Scalar.euler)

/-- The signs between operands. -/
inductive Sign : Char → BinaryOp → Prop where
  | add : Sign '+' .add
  | sub : Sign '-' .sub
  | mul : Sign '*' .mul
  | div : Sign '/' .div

/-- The character begins a link of a chain: it is a sign or the letter after an unwritten one. -/
def beginsLink (c : Char) : Bool :=
  Text.isLetter c || c == '+' || c == '-' || c == '*' || c == '/'

/-! ## Phrases -/

mutual

/-- An operand and its links, joined by precedence. -/
inductive Expression [Scalar α] (B : Builder α ρ) : Nat → List Char → ρ → List Char → Prop where
  | chain {n : Nat} {s s' r : List Char} {first : ρ} {links : List (BinaryOp × ρ)} :
      Operand B n s first s' → Links B n s' links r →
      Expression B n s (Chain.byPrecedence B.binary ⟨first, links⟩) r

/-- Signs with an operand after each; a product needs no sign before a letter. -/
inductive Links [Scalar α] (B : Builder α ρ) :
    Nat → List Char → List (BinaryOp × ρ) → List Char → Prop where
  | done {n : Nat} {r : List Char} : Links B n r [] r
  | sign {n : Nat} {c : Char} {op : BinaryOp} {s s' r : List Char} {next : ρ}
      {links : List (BinaryOp × ρ)} :
      Sign c op → Operand B n s next s' → Links B n s' links r →
      Links B n (c :: s) ((op, next) :: links) r
  | product {n : Nat} {c : Char} {s s' r : List Char} {next : ρ} {links : List (BinaryOp × ρ)} :
      Text.isLetter c → Operand B n (c :: s) next s' → Links B n s' links r →
      Links B n (c :: s) ((.mul, next) :: links) r

/-- A power with or without a minus before it. -/
inductive Operand [Scalar α] (B : Builder α ρ) : Nat → List Char → ρ → List Char → Prop where
  | positive {n : Nat} {s r : List Char} {e : ρ} : Power B n s e r → Operand B (n + 1) s e r
  | negative {n : Nat} {s r : List Char} {e : ρ} :
      Power B n s e r → Operand B (n + 1) ('-' :: s) (B.negate e) r

/-- A primary with or without an exponent, which is an operand. -/
inductive Power [Scalar α] (B : Builder α ρ) : Nat → List Char → ρ → List Char → Prop where
  | base {n : Nat} {s r : List Char} {e : ρ} : Primary B n s e r → Power B n s e r
  | power {n : Nat} {s s' r : List Char} {base exponent : ρ} :
      Primary B n s base ('^' :: s') → Operand B n s' exponent r →
      Power B n s (B.binary .pow base exponent) r

/-- A formula in parentheses, a number, a symbol or a call with as many arguments as the function
takes. -/
inductive Primary [Scalar α] (B : Builder α ρ) : Nat → List Char → ρ → List Char → Prop where
  | parentheses {n : Nat} {s r : List Char} {e : ρ} :
      Expression B n s e (')' :: r) → Primary B n ('(' :: s) e r
  | number {n : Nat} {s r : List Char} {a : α} : Number s a r → Primary B n s (B.constant a) r
  | symbol {n : Nat} {s r : List Char} {name : String} {e : ρ} :
      Name s name r → Stops (· == '(') r → Symbol B name e → Primary B n s e r
  | call {n : Nat} {s s' r : List Char} {name : String} {fn : Builtin} {args : List ρ} :
      Name s name ('(' :: s') → Builtin.ofName? name = some fn →
      Arguments B n s' args (')' :: r) → args.length = fn.arity →
      Primary B n s (B.call fn args) r

/-- Formulas with commas between them, at least one. -/
inductive Arguments [Scalar α] (B : Builder α ρ) :
    Nat → List Char → List ρ → List Char → Prop where
  | last {n : Nat} {s r : List Char} {e : ρ} : Expression B n s e r → Arguments B n s [e] r
  | more {n : Nat} {s s' r : List Char} {e : ρ} {es : List ρ} :
      Expression B n s e (',' :: s') → Arguments B n s' es r → Arguments B n s (e :: es) r

end

/-- The whole text is a formula that stands for `e`, with at most `n` operands within one
another. -/
def Derives [Scalar α] (B : Builder α ρ) (n : Nat) (s : List Char) (e : ρ) : Prop :=
  Expression B n s e []

/-- The letter `x` is an operand, unless it begins a longer name or is called. -/
theorem Operand.x [Scalar α] {B : Builder α ρ} {n : Nat} {r : List Char}
    (hname : Stops Parser.isNamePart r) (hcall : Stops (· == '(') r) :
    Operand B (n + 1) ('x' :: r) (B.var .x) r := by
  have h : Name ('x' :: ([] ++ r)) (String.ofList ['x']) r :=
    .mk (by decide) (fun _ hd => nomatch hd) hname
  exact .positive (.base (.symbol h hcall .x))

end RollingBall.Grammar
