import RollingBall.Json.Basic
import RollingBall.Text.Parsed

/-!
# Reading JSON

The reader follows the grammar of JSON strictly: no comma before a closing bracket, no leading zero,
no control character in a string. Values are nested, and `Json.Reader.value n` reads those with at
most `n` values within one another; a text is not nested deeper than it is long.

## Main definitions

* `Json.Reader`: a reader that consumes at least one character when it succeeds.
* `Json.parse?`: a whole text as a value.
-/

namespace RollingBall.Json

/-- A reader of values, which may refuse a text. -/
abbrev Reader (ρ : Type) : Type := (s : List Char) → Option (Parsed ρ s)

namespace Reader

variable {ρ : Type}

/-- The blank characters of JSON. -/
def isBlank (c : Char) : Bool := c == ' ' || c == '\t' || c == '\n' || c == '\r'

/-- The text from the first character that is not blank. -/
def skip (s : List Char) : List Char := s.dropWhile isBlank

theorem length_skip_le (s : List Char) : (skip s).length ≤ s.length :=
  (List.dropWhile_sublist _).length_le

/-- The text after a character that has to come next. -/
def expect (c : Char) (s : List Char) : Option (ShorterRest s) :=
  match s with
  | head :: tail =>
    if head = c then some ⟨tail, length_lt_cons head tail⟩ else none
  | [] => none

/-- The text after a word that has to come next. -/
def word (w : List Char) (s : List Char) : Option (Rest s) :=
  if w.isPrefixOf s then some (.drop w.length s) else none

/-! ## Strings -/

/-- The value of a hexadecimal digit. -/
def hexValue? (c : Char) : Option Nat :=
  if c.isDigit then some (c.toNat - '0'.toNat)
  else if 'a' ≤ c ∧ c ≤ 'f' then some (c.toNat - 'a'.toNat + 10)
  else if 'A' ≤ c ∧ c ≤ 'F' then some (c.toNat - 'A'.toNat + 10)
  else none

/-- The number written by four hexadecimal digits. -/
def hexCode? (a b c d : Char) : Option Nat :=
  match hexValue? a, hexValue? b, hexValue? c, hexValue? d with
  | some a, some b, some c, some d => some (((a * 16 + b) * 16 + c) * 16 + d)
  | _, _, _, _ => none

/-- The element that a code stands for. -/
def ofCode (code : Nat) : Element :=
  if Text.isHighSurrogate code || Text.isLowSurrogate code then .surrogate code
  else .char (Char.ofNat code)

/-- The character that a letter after a backslash stands for. -/
def escaped? : Char → Option Char
  | '"' => some '"'
  | '\\' => some '\\'
  | '/' => some '/'
  | 'b' => some '\x08'
  | 'f' => some '\x0c'
  | 'n' => some '\n'
  | 'r' => some '\r'
  | 't' => some '\t'
  | _ => none

/-- The elements of a string after its opening quote, and the text after the closing one. -/
def elements (s : List Char) : Option (Text × Rest s) :=
  match s with
  | [] => none
  | '"' :: rest => some ([], ⟨rest, by simp⟩)
  | '\\' :: 'u' :: a :: b :: c :: d :: rest =>
    match hexCode? a b c d, elements rest with
    | some code, some (es, ⟨r, h⟩) => some (ofCode code :: es, ⟨r, by simp; omega⟩)
    | _, _ => none
  | '\\' :: c :: rest =>
    match escaped? c, elements rest with
    | some e, some (es, ⟨r, h⟩) => some (.char e :: es, ⟨r, by simp; omega⟩)
    | _, _ => none
  | c :: rest =>
    if c = '\\' ∨ c.toNat < 0x20 then none
    else
      match elements rest with
      | some (es, ⟨r, h⟩) => some (.char c :: es, ⟨r, by simp; omega⟩)
      | none => none

/-- A string. -/
def text : Reader Text := fun s =>
  match expect '"' s with
  | none => none
  | some ⟨inside, h⟩ =>
    match elements inside with
    | none => none
    | some (es, ⟨rest, hrest⟩) => some ⟨es, rest, by omega⟩

/-! ## Numbers -/

/-- The digits in front of a text, and the rest. -/
def digits (s : List Char) : List Char × Rest s :=
  (s.takeWhile Char.isDigit,
    ⟨s.dropWhile Char.isDigit, (List.dropWhile_sublist _).length_le⟩)

/-- The digits of the integer part: a lone zero, or digits of which the first is not zero. -/
def wholePart : Reader (List Char) := fun s =>
  match s with
  | '0' :: rest => some (.single ['0'] '0' rest)
  | c :: rest =>
    if c.isDigit then
      let (ds, ⟨r, h⟩) := digits rest
      some ⟨c :: ds, r, lt_length_cons_of_le c r rest h⟩
    else none
  | [] => none

/-- The digits after a point, none if there is no point. -/
def fractionPart (s : List Char) : Option (List Char × Rest s) :=
  match s with
  | '.' :: rest =>
    let (ds, ⟨r, h⟩) := digits rest
    if ds.isEmpty then none else some (ds, ⟨r, by simp; omega⟩)
  | s => some ([], .drop 0 s)

/-- The sign of an exponent. -/
def signPart (s : List Char) : List Char × Rest s :=
  match s with
  | '+' :: _ => (['+'], .drop 1 _)
  | '-' :: _ => (['-'], .drop 1 _)
  | s => ([], .drop 0 s)

/-- The sign and the digits of an exponent, none if there is no exponent. -/
def exponentPart (s : List Char) : Option (List Char × Rest s) :=
  match s with
  | [] => some ([], .drop 0 [])
  | c :: rest =>
    if c = 'e' ∨ c = 'E' then
      let (sign, ⟨afterSign, hsign⟩) := signPart rest
      let (ds, ⟨r, h⟩) := digits afterSign
      if ds.isEmpty then none else
        some (sign ++ ds, ⟨r, length_le_cons_of_le c r afterSign rest h hsign⟩)
    else some ([], .drop 0 _)

/-- A number without its sign. -/
def unsigned (negative : Bool) : Reader Number := fun s =>
  match wholePart s with
  | none => none
  | some whole =>
    match fractionPart whole.rest with
    | none => none
    | some (fraction, ⟨afterFraction, hfraction⟩) =>
      match exponentPart afterFraction with
      | none => none
      | some (exponent, ⟨rest, h⟩) =>
        some ⟨⟨negative, whole.value, fraction, exponent⟩, rest, by
          have := whole.shorter; omega⟩

/-- A number. -/
def number : Reader Number := fun s =>
  match s with
  | '-' :: rest =>
    match unsigned true rest with
    | none => none
    | some parsed => some ⟨parsed.value, parsed.rest, Nat.lt_succ_of_lt parsed.shorter⟩
  | s => unsigned false s

/-! ## Arrays and objects -/

/-- Items separated by commas, up to a closing bracket. -/
def itemsUntil (close : Char) (item : Reader ρ) (s : List Char) : Option (List ρ × Rest s) :=
  match item s with
  | none => none
  | some first =>
    have _shorter := Nat.lt_of_le_of_lt (length_skip_le first.rest) first.shorter
    match skip first.rest, _shorter with
    | c :: rest, hrest =>
      if c = close then
        some ([first.value], ⟨rest, by simp only [List.length_cons] at hrest; omega⟩)
      else if c = ',' then
        match itemsUntil close item rest with
        | none => none
        | some (more, ⟨r, h⟩) =>
          some (first.value :: more, ⟨r, by simp only [List.length_cons] at hrest; omega⟩)
      else none
    | [], _ => none
termination_by s.length
decreasing_by simp only [List.length_cons] at hrest; omega

/-- Items between brackets, separated by commas. -/
def bracketed (opening close : Char) (item : Reader ρ) : Reader (List ρ) := fun s =>
  match expect opening s with
  | none => none
  | some ⟨inside, h⟩ =>
    match expect close (skip inside) with
    | some ⟨rest, hrest⟩ =>
      some ⟨[], rest, by have := length_skip_le inside; omega⟩
    | none =>
      match itemsUntil close item inside with
      | none => none
      | some (items, ⟨rest, hrest⟩) => some ⟨items, rest, by omega⟩

/-- A reader that skips blanks first. -/
def skipping (reader : Reader ρ) : Reader ρ := fun s =>
  match reader (skip s) with
  | none => none
  | some parsed =>
    some ⟨parsed.value, parsed.rest, Nat.lt_of_lt_of_le parsed.shorter (length_skip_le s)⟩

/-- A name, a colon and a value. -/
def member (value : Reader ρ) : Reader (Text × ρ) := fun s =>
  match skipping text s with
  | none => none
  | some name =>
    match expect ':' (skip name.rest) with
    | none => none
    | some ⟨afterColon, h⟩ =>
      match skipping value afterColon with
      | none => none
      | some parsed =>
        some ⟨(name.value, parsed.value), parsed.rest, by
          have h₁ := name.shorter
          have h₂ := parsed.shorter
          have h₃ := length_skip_le name.rest
          omega⟩

/-- A word that stands for a value: its first character and the others. -/
def literal (first : Char) (more : List Char) (v : Json) : Reader Json := fun s =>
  match expect first s with
  | none => none
  | some ⟨tail, htail⟩ =>
    match word more tail with
    | none => none
    | some ⟨rest, h⟩ => some ⟨v, rest, Nat.lt_of_le_of_lt h htail⟩

/-- The value read, changed. -/
def map {σ : Type} (f : ρ → σ) (reader : Reader ρ) : Reader σ := fun s =>
  (reader s).map fun parsed => ⟨f parsed.value, parsed.rest, parsed.shorter⟩

/-- A value with at most the given number of values within one another, itself included. -/
def value : Nat → Reader Json
  | 0 => fun _ => none
  | n + 1 => fun s =>
    match s.head? with
    | some '[' => map Json.array (bracketed '[' ']' (skipping (value n))) s
    | some '{' => map Json.object (bracketed '{' '}' (member (value n))) s
    | some '"' => map Json.string text s
    | some 't' => literal 't' ['r', 'u', 'e'] (.bool true) s
    | some 'f' => literal 'f' ['a', 'l', 's', 'e'] (.bool false) s
    | some 'n' => literal 'n' ['u', 'l', 'l'] .null s
    | _ => map Json.number number s

end Reader

/-- The value a text stands for, with blanks around it and nothing else. -/
def parse? (s : List Char) : Option Json :=
  match Reader.value s.length (Reader.skip s) with
  | none => none
  | some parsed => if (Reader.skip parsed.rest).isEmpty then some parsed.value else none

end RollingBall.Json
