import RollingBall.Scalar

/-!
# Named functions

The functions a formula may call. A name of one argument is found whatever the case of its letters
(`UnaryFn.ofName?`), a name of two arguments only as it is written (`BinaryFn.ofName?`), and the
first kind is looked up first.
-/

namespace RollingBall

variable {α : Type}

/-- The functions of one argument. -/
inductive UnaryFn where
  | sin
  | cos
  | tan
  | asin
  | acos
  | atan
  | sinh
  | cosh
  | tanh
  | exp
  | ln
  | log10
  | sqrt
  | cbrt
  | abs
  | floor
  | ceil
  | round
  | sign
deriving DecidableEq, Repr

namespace UnaryFn

/-- The spelling of a function's name. -/
def name : UnaryFn → String
  | sin => "sin"
  | cos => "cos"
  | tan => "tan"
  | asin => "asin"
  | acos => "acos"
  | atan => "atan"
  | sinh => "sinh"
  | cosh => "cosh"
  | tanh => "tanh"
  | exp => "exp"
  | ln => "ln"
  | log10 => "log10"
  | sqrt => "sqrt"
  | cbrt => "cbrt"
  | abs => "abs"
  | floor => "floor"
  | ceil => "ceil"
  | round => "round"
  | sign => "sign"

/-- The function with this name or one of its other spellings. Only ASCII letters have another
case here: no other letter is the capital of a letter that a name contains. -/
def ofName? (name : String) : Option UnaryFn :=
  match name.toLower with
  | "sin" => some sin
  | "cos" => some cos
  | "tan" => some tan
  | "asin" | "arcsin" => some asin
  | "acos" | "arccos" => some acos
  | "atan" | "arctan" => some atan
  | "sinh" => some sinh
  | "cosh" => some cosh
  | "tanh" => some tanh
  | "exp" => some exp
  | "ln" | "log" => some ln
  | "log10" | "lg" => some log10
  | "sqrt" => some sqrt
  | "cbrt" => some cbrt
  | "abs" => some abs
  | "floor" => some floor
  | "ceil" => some ceil
  | "round" => some round
  | "sign" | "signum" => some sign
  | _ => none

theorem ofName?_name (fn : UnaryFn) : ofName? fn.name = some fn := by
  cases fn <;> decide +kernel

/-- The value of the function. A half is rounded up, and `sign` keeps a zero and an undefined
value as they are. -/
def apply [Scalar α] : UnaryFn → α → α
  | sin, a => Scalar.sin a
  | cos, a => Scalar.cos a
  | tan, a => Scalar.tan a
  | asin, a => Scalar.asin a
  | acos, a => Scalar.acos a
  | atan, a => Scalar.atan a
  | sinh, a => Scalar.sinh a
  | cosh, a => Scalar.cosh a
  | tanh, a => Scalar.tanh a
  | exp, a => Scalar.exp a
  | ln, a => Scalar.ln a
  | log10, a => Scalar.log10 a
  | sqrt, a => Scalar.sqrt a
  | cbrt, a => Scalar.cbrt a
  | abs, a => Scalar.abs a
  | floor, a => Scalar.floor a
  | ceil, a => Scalar.ceil a
  | round, a => Scalar.floor (a + 0.5)
  | sign, a =>
    if a == 0.0 || Scalar.isNaN a then a
    else if 0.0 < a then 1.0
    else -1.0

end UnaryFn

/-- The functions of two arguments. -/
inductive BinaryFn where
  | min
  | max
  | pow
  | atan2
  | hypot
deriving DecidableEq, Repr

namespace BinaryFn

/-- The spelling of a function's name. -/
def name : BinaryFn → String
  | min => "min"
  | max => "max"
  | pow => "pow"
  | atan2 => "atan2"
  | hypot => "hypot"

/-- The function with exactly this name or its other spelling. -/
def ofName? : String → Option BinaryFn
  | "min" => some min
  | "max" => some max
  | "pow" => some pow
  | "atan2" | "arctan2" => some atan2
  | "hypot" => some hypot
  | _ => none

theorem ofName?_name (fn : BinaryFn) : ofName? fn.name = some fn := by
  cases fn <;> decide +kernel

/-- The value of the function. The extremum of an undefined value is undefined. -/
def apply [Scalar α] : BinaryFn → α → α → α
  | min, a, b =>
    if Scalar.isNaN a || Scalar.isNaN b then Scalar.nan else Scalar.smaller a b
  | max, a, b =>
    if Scalar.isNaN a || Scalar.isNaN b then Scalar.nan else Scalar.larger a b
  | pow, a, b => Scalar.pow a b
  | atan2, a, b => Scalar.atan2 a b
  | hypot, a, b => Scalar.hypot a b

end BinaryFn

/-- A function that a formula may call. -/
inductive Builtin where
  | unary (fn : UnaryFn)
  | binary (fn : BinaryFn)
deriving DecidableEq, Repr

namespace Builtin

/-- The spelling of a function's name. -/
def name : Builtin → String
  | unary fn => fn.name
  | binary fn => fn.name

/-- The function with this name; those of one argument come first. -/
def ofName? (name : String) : Option Builtin :=
  match UnaryFn.ofName? name with
  | some fn => some (unary fn)
  | none => (BinaryFn.ofName? name).map binary

/-- The number of arguments the function takes. -/
def arity : Builtin → Nat
  | unary _ => 1
  | binary _ => 2

/-- The value at a list of arguments, undefined unless their number is the arity. -/
def apply [Scalar α] : Builtin → List α → α
  | unary fn, [a] => fn.apply a
  | binary fn, [a, b] => fn.apply a b
  | _, _ => Scalar.nan

end Builtin

end RollingBall
