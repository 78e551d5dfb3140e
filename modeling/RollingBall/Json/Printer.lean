import RollingBall.Json.Basic

/-!
# Writing JSON

A value is written over several lines: an item or member per line, two blanks deeper than the
brackets around it, a blank after each colon. Empty brackets stay together. In strings the quote,
the backslash and control characters are escaped and nothing else.
-/

namespace RollingBall.Json

namespace Number

/-- The number as written. -/
def render (n : Number) : List Char :=
  (if n.negative then ['-'] else []) ++ n.whole ++
    (if n.fraction.isEmpty then [] else '.' :: n.fraction) ++
    (if n.exponent.isEmpty then [] else 'e' :: n.exponent)

end Number

namespace Text

/-- The lower-case hexadecimal digit of a value below sixteen. -/
def hexDigit (n : Nat) : Char := Char.ofNat (if n < 10 then '0'.toNat + n else 'a'.toNat + (n - 10))

/-- A code as an escape with four digits. -/
def escapeCode (code : Nat) : List Char :=
  ['\\', 'u', hexDigit (code / 4096 % 16), hexDigit (code / 256 % 16),
    hexDigit (code / 16 % 16), hexDigit (code % 16)]

/-- A character within a string. -/
def escapeChar : Char → List Char
  | '"' => ['\\', '"']
  | '\\' => ['\\', '\\']
  | '\x08' => ['\\', 'b']
  | '\x0c' => ['\\', 'f']
  | '\n' => ['\\', 'n']
  | '\r' => ['\\', 'r']
  | '\t' => ['\\', 't']
  | c => if c.toNat < 0x20 then escapeCode c.toNat else [c]

/-- An element of a string. -/
def renderElement : Element → List Char
  | .char c => escapeChar c
  | .surrogate code => escapeCode code

/-- The string with its quotes. -/
def render (t : Text) : List Char := '"' :: (t.flatMap renderElement ++ ['"'])

end Text

/-- A new line, indented. -/
def newline (indent : Nat) : List Char := '\n' :: List.replicate (2 * indent) ' '

mutual

/-- The value as written inside the given number of brackets. -/
def renderAt (indent : Nat) : Json → List Char
  | null => "null".toList
  | bool true => "true".toList
  | bool false => "false".toList
  | number n => n.render
  | string t => Text.render t
  | array [] => ['[', ']']
  | array (item :: items) =>
    '[' :: newline (indent + 1) ++ renderAt (indent + 1) item ++ renderItems (indent + 1) items ++
      newline indent ++ [']']
  | object [] => ['{', '}']
  | object ((name, value) :: members) =>
    '{' :: newline (indent + 1) ++ Text.render name ++ [':', ' '] ++ renderAt (indent + 1) value ++
      renderMembers (indent + 1) members ++ newline indent ++ ['}']

/-- The items after the first, each after a comma on a line of its own. -/
def renderItems (indent : Nat) : List Json → List Char
  | [] => []
  | item :: items => ',' :: newline indent ++ renderAt indent item ++ renderItems indent items

/-- The members after the first, each after a comma on a line of its own. -/
def renderMembers (indent : Nat) : List (Text × Json) → List Char
  | [] => []
  | (name, value) :: members =>
    ',' :: newline indent ++ Text.render name ++ [':', ' '] ++ renderAt indent value ++
      renderMembers indent members

end

/-- The value as a text. -/
def render (v : Json) : List Char := renderAt 0 v

end RollingBall.Json
