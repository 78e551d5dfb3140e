import RollingBall.Decimal.Digits
import RollingBall.Scalar

/-!
# JSON values

Values keep what their text says: the members of an object in order, with repeats, the digits of a
number, and halves of surrogate pairs in strings. What a number or string stands for is asked for
separately, since a value that nobody asks for may hold anything the grammar allows.

## Main definitions

* `Json`: the values. `Json.Number`, `Json.Text`: numbers and strings as written.
* `Json.Number.toScalar?`, `Json.Number.toNat?`, `Json.Text.decode?`: what they stand for.
* `Json.Sound`: every number and string in a value stands for something and the value is not nested
  too deeply.
-/

namespace RollingBall

/-- A number as written. -/
structure Json.Number where
  negative : Bool
  whole : List Char
  /-- The digits after the point, none if no point is written. -/
  fraction : List Char
  /-- The sign and the digits of the exponent, none if no exponent is written. -/
  exponent : List Char
deriving DecidableEq, Repr

/-- An element of a string: a character, or an escape that names half of a surrogate pair. -/
inductive Json.Element where
  | char (c : Char)
  | surrogate (code : Nat)
deriving DecidableEq, Repr

/-- A string as written. -/
abbrev Json.Text : Type := List Json.Element

/-- A JSON value. -/
inductive Json where
  | null
  | bool (value : Bool)
  | number (value : Json.Number)
  | string (value : Json.Text)
  | array (items : List Json)
  | object (members : List (Json.Text × Json))

namespace Json

/-! ## Numbers -/

namespace Number

/-- The significands that are kept are below this. -/
def significandBound : Nat := UInt64.size

/-- Takes in digits as long as the number stays within the bound, and returns those left. -/
def absorb (n : Nat) : List Char → Nat × List Char
  | [] => (n, [])
  | c :: cs =>
    let next := 10 * n + (c.toNat - '0'.toNat)
    if next < significandBound then absorb next cs else (n, c :: cs)

/-- The exponent written, zero if none is. -/
def exponentValue (n : Number) : Int :=
  match n.exponent with
  | '-' :: ds => -(Decimal.ofDigits ds : Int)
  | '+' :: ds => Decimal.ofDigits ds
  | ds => Decimal.ofDigits ds

/-- The significand and the power of ten that it counts. A digit that does not fit is dropped; one
before the point raises the power. -/
def significand (n : Number) : Nat × Int :=
  let (s, dropped) := absorb 0 n.whole
  let (s, left) := absorb s n.fraction
  (s, dropped.length - (n.fraction.length - left.length) + n.exponentValue)

/-- The greatest power of ten that is applied at once. -/
def greatestPower : Nat := 308

/-- A power of ten as a scalar. -/
def power {α : Type} [Scalar α] (exponent : Nat) : α :=
  OfScientific.ofScientific 1 false exponent

/-- A number times a power of ten; none if the result is beyond the range of scalars. Powers beyond
the greatest are applied in parts, as long as the number is not zero. -/
def applyPower {α : Type} [Scalar α] (a : α) (exponent : Int) : Option α :=
  if exponent.natAbs ≤ greatestPower then
    if 0 ≤ exponent then
      let b := a * power exponent.natAbs
      if Scalar.isFinite b then some b else none
    else some (a / power exponent.natAbs)
  else if a == 0.0 then some a
  else if 0 ≤ exponent then none
  else applyPower (a / power greatestPower) (exponent + greatestPower)
termination_by exponent.natAbs
decreasing_by simp only [greatestPower] at *; omega

/-- The scalar a number stands for; none if it is too large. -/
def toScalar? {α : Type} [Scalar α] (n : Number) : Option α :=
  let (s, exponent) := n.significand
  (applyPower (Scalar.ofNat s) exponent).map fun a => if n.negative then -a else a

/-- The natural number written, if no sign, point or exponent is. -/
def toNat? (n : Number) : Option Nat :=
  if !n.negative && n.fraction.isEmpty && n.exponent.isEmpty then some (Decimal.ofDigits n.whole)
  else none

end Number

/-! ## Strings -/

namespace Text

/-- The text as written without escapes. -/
def ofChars (cs : List Char) : Text := cs.map .char

/-- The text of a string. -/
def ofString (s : String) : Text := ofChars s.toList

/-- The codes of the first halves of surrogate pairs. -/
def isHighSurrogate (code : Nat) : Bool := 0xD800 ≤ code && code < 0xDC00

/-- The codes of the second halves of surrogate pairs. -/
def isLowSurrogate (code : Nat) : Bool := 0xDC00 ≤ code && code < 0xE000

/-- The character that a surrogate pair stands for. -/
def pairChar (high low : Nat) : Char :=
  Char.ofNat (0x10000 + (high - 0xD800) * 0x400 + (low - 0xDC00))

/-- The characters a text stands for, if its surrogates come in pairs. -/
def chars? : Text → Option (List Char)
  | [] => some []
  | .char c :: rest => (chars? rest).map (c :: ·)
  | .surrogate high :: .surrogate low :: rest =>
    if isHighSurrogate high && isLowSurrogate low then
      (chars? rest).map (pairChar high low :: ·)
    else none
  | .surrogate _ :: _ => none

/-- The string a text stands for, if its surrogates come in pairs. -/
def decode? (t : Text) : Option String := t.chars?.map String.ofList

end Text

/-! ## Values that stand for something -/

mutual

/-- Every number in a value is in the range of the scalars `α`, every string has a meaning, and at
most the given number of arrays and objects lie within one another. -/
def sound (α : Type) [Scalar α] (depth : Nat) : Json → Bool
  | null => true
  | bool _ => true
  | number n => (n.toScalar? : Option α).isSome
  | string t => t.decode?.isSome
  | array items => decide (0 < depth) && soundItems α (depth - 1) items
  | object members => decide (0 < depth) && soundMembers α (depth - 1) members

/-- All items are sound. -/
def soundItems (α : Type) [Scalar α] (depth : Nat) : List Json → Bool
  | [] => true
  | item :: items => item.sound α depth && soundItems α depth items

/-- All members are sound and their names have a meaning. -/
def soundMembers (α : Type) [Scalar α] (depth : Nat) : List (Text × Json) → Bool
  | [] => true
  | (name, value) :: members =>
    name.decode?.isSome && value.sound α depth && soundMembers α depth members

end

end Json

end RollingBall
