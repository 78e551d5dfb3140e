import RollingBall.Json.Printer
import RollingBall.Json.Reader
import RollingBall.Proofs.Reading.Words

/-!
# Numbers and strings of JSON

What a text means as a number or as a string, said without a reader, and that it is read so. A
number is read as far as its parts go on, so nothing may come after it that extends one
(`Json.Number.Spells.reads`). A string ends at its quote, whatever comes after it
(`Json.Text.Spells.reads`).

## Main definitions

* `Json.Reader.Reads`: what a reader makes of a text.
* `Json.Number.Grammatical`, `Json.Text.Grammatical`: the numbers and strings of the grammar.
* `Json.Number.Spells`, `Json.Text.Spells`: the texts of a number and of a string.
-/

namespace RollingBall.Json

open Grammar

/-- From the text the reader takes the value and leaves the rest. -/
def Reader.Reads {ρ : Type} (reader : Reader ρ) (s : List Char) (v : ρ) (r : List Char) : Prop :=
  ∃ h, reader s = some ⟨v, r, h⟩

/-- The same for a reader that may take nothing. -/
def Reader.Leaves {ρ : Type} (reader : (s : List Char) → Option (ρ × Rest s)) (s : List Char)
    (v : ρ) (r : List Char) : Prop :=
  ∃ h, reader s = some (v, ⟨r, h⟩)

/-! ## Numbers -/

/-- What may follow a number within it. -/
def isNumberPart (c : Char) : Bool := c.isDigit || c == '.' || c == 'e' || c == 'E'

namespace Number

/-- Digits without a zero in front, unless it is the only one. -/
inductive IsWhole : List Char → Prop where
  | zero : IsWhole ['0']
  | digits {c : Char} {ds : List Char} (hc : c ≠ '0') (hds : ∀ d ∈ c :: ds, d.isDigit) :
      IsWhole (c :: ds)

/-- No exponent, or digits after a sign or none. -/
inductive IsExponent : List Char → Prop where
  | none : IsExponent []
  | some {sign ds : List Char} (hsign : sign = [] ∨ sign = ['+'] ∨ sign = ['-']) (hne : ds ≠ [])
      (hds : ∀ d ∈ ds, d.isDigit) : IsExponent (sign ++ ds)

/-- The number is one of the grammar. -/
structure Grammatical (n : Number) : Prop where
  whole : IsWhole n.whole
  fraction : ∀ d ∈ n.fraction, d.isDigit
  exponent : IsExponent n.exponent

/-- The exponent as written, after its letter. -/
def exponentText (letter : Char) (exponent : List Char) : List Char :=
  if exponent.isEmpty then [] else letter :: exponent

/-- The number as written, with this letter before its exponent. -/
def writtenWith (letter : Char) (n : Number) : List Char :=
  (if n.negative then ['-'] else []) ++ (n.whole ++
    ((if n.fraction.isEmpty then [] else '.' :: n.fraction) ++ exponentText letter n.exponent))

/-- The text is the number, with either letter before the exponent. -/
inductive Spells : List Char → Number → Prop where
  | mk {n : Number} (hn : n.Grammatical) {letter : Char} (hletter : letter = 'e' ∨ letter = 'E') :
      Spells (n.writtenWith letter) n

theorem spells_render {n : Number} (h : n.Grammatical) : Spells n.render n := by
  have hshape : n.render = n.writtenWith 'e' := by simp [render, writtenWith, exponentText]
  rw [hshape]
  exact .mk h (.inl rfl)

end Number

namespace Reader

section Digits

variable {r ds : List Char} (hds : ∀ d ∈ ds, d.isDigit)

include hds

theorem digits_of_stops (hr : Stops Char.isDigit r) :
    ∃ h, digits (ds ++ r) = (ds, ⟨r, h⟩) := by
  have hrest : (ds ++ r).dropWhile Char.isDigit = r := hr.dropWhile hds
  have htaken : (ds ++ r).takeWhile Char.isDigit = ds := hr.takeWhile hds
  refine ⟨by simp, ?_⟩
  unfold digits
  simp only [hrest, htaken]

theorem fractionPart_point (hne : ds ≠ []) (hr : Stops Char.isDigit r) :
    Leaves fractionPart ('.' :: (ds ++ r)) ds r := by
  obtain ⟨hlength, hdigits⟩ := digits_of_stops hds hr
  refine ⟨Nat.le_succ_of_le hlength, ?_⟩
  simp only [fractionPart, hdigits]
  rw [if_neg (by simpa using hne)]

end Digits

variable {r : List Char}

theorem stops_digit (h : Stops isNumberPart r) : Stops Char.isDigit r :=
  h.mono fun c hc => by simp [isNumberPart, hc]

theorem reads_wholePart {ds : List Char} (h : Number.IsWhole ds) (hr : Stops Char.isDigit r) :
    wholePart.Reads (ds ++ r) ds r := by
  cases h with
  | zero => exact ⟨_, rfl⟩
  | @digits c ds hc hds =>
    obtain ⟨hlength, hdigits⟩ := digits_of_stops (fun d hd => hds d (.tail c hd)) hr
    refine ⟨lt_length_cons_of_le c r _ hlength, ?_⟩
    show wholePart (c :: (ds ++ r)) = _
    rw [wholePart, if_pos (hds c (.head ds)), hdigits]
    exact hc

theorem fractionPart_of_stops (hr : Stops (· == '.') r) : Leaves fractionPart r [] r := by
  refine ⟨Nat.le_refl _, ?_⟩
  rw [fractionPart]
  · rfl
  · exact stops_char_iff.mp hr

/-- The fraction as written: with its point, if it is not empty. -/
theorem leaves_fractionPart {ds : List Char} (hds : ∀ d ∈ ds, d.isDigit)
    (hr : Stops (fun c => c.isDigit || c == '.') r) :
    Leaves fractionPart ((if ds.isEmpty then [] else '.' :: ds) ++ r) ds r := by
  cases ds with
  | nil => exact fractionPart_of_stops (hr.mono fun c hc => by simp_all)
  | cons d ds => exact fractionPart_point hds (by simp) (hr.mono fun c hc => by simp [hc])

theorem exponentPart_of_stops (hr : Stops isNumberPart r) : Leaves exponentPart r [] r := by
  refine ⟨Nat.le_refl _, ?_⟩
  unfold exponentPart
  split
  · rfl
  · rename_i c rest
    have hc := stops_cons.mp hr
    rw [if_neg]
    · rfl
    · rintro (rfl | rfl)
      · exact absurd hc (by decide)
      · exact absurd hc (by decide)

theorem signPart_digits {ds : List Char} (hds : ∀ d ∈ ds, d.isDigit) (hne : ds ≠ []) :
    ∃ h, signPart (ds ++ r) = ([], ⟨ds ++ r, h⟩) := by
  refine ⟨Nat.le_refl _, ?_⟩
  cases ds with
  | nil => exact absurd rfl hne
  | cons d ds =>
    have hdigit := hds d (.head ds)
    show signPart (d :: (ds ++ r)) = _
    rw [signPart]
    · rfl
    · intro tail heq
      rw [(List.cons.inj heq).1] at hdigit
      exact absurd hdigit (by decide)
    · intro tail heq
      rw [(List.cons.inj heq).1] at hdigit
      exact absurd hdigit (by decide)

/-- The exponent as written: with its letter, if it is not empty. -/
theorem leaves_exponentPart {e : List Char} (h : Number.IsExponent e) {letter : Char}
    (hletter : letter = 'e' ∨ letter = 'E') (hr : Stops isNumberPart r) :
    Leaves exponentPart (Number.exponentText letter e ++ r) e r := by
  cases h with
  | none => exact exponentPart_of_stops hr
  | @some sign ds hsign hne hds =>
    have hshape : Number.exponentText letter (sign ++ ds) ++ r = letter :: (sign ++ (ds ++ r)) := by
      rw [Number.exponentText, if_neg (by simp [hne]), List.cons_append, List.append_assoc]
    rw [hshape]
    obtain ⟨hlength, hdigits⟩ := digits_of_stops hds (stops_digit hr)
    have hempty : ¬ ds.isEmpty = true := by simpa using hne
    have hpart : ∃ h, signPart (sign ++ (ds ++ r)) = (sign, ⟨ds ++ r, h⟩) := by
      obtain rfl | rfl | rfl := hsign
      · exact signPart_digits hds hne
      · exact ⟨_, rfl⟩
      · exact ⟨_, rfl⟩
    obtain ⟨hsigned, hpart⟩ := hpart
    refine ⟨length_le_cons_of_le _ r _ _ hlength hsigned, ?_⟩
    rw [exponentPart, if_pos hletter, hpart]
    dsimp only
    rw [hdigits]
    exact if_neg hempty

end Reader

namespace Number

theorem stops_part {p : Char → Bool} {c : Char} (hc : p c = false) (ds : List Char)
    {r : List Char} (hr : Stops p r) : Stops p ((if ds.isEmpty then [] else c :: ds) ++ r) := by
  cases ds with
  | nil => exact hr
  | cons d ds => exact stops_cons.mpr hc

theorem IsWhole.begins {ds : List Char} (h : IsWhole ds) :
    ∃ c tail, ds = c :: tail ∧ c.isDigit := by
  cases h with
  | zero => exact ⟨'0', [], rfl, by decide⟩
  | @digits c ds _ hds => exact ⟨c, ds, rfl, hds c (.head ds)⟩

variable {n : Number} {cs r : List Char}

theorem Spells.begins (h : Spells cs n) : ∃ c tail, cs = c :: tail ∧ (c = '-' ∨ c.isDigit) := by
  obtain ⟨hn, -⟩ := h
  obtain ⟨c, tail, hwhole, hc⟩ := hn.whole.begins
  unfold writtenWith
  cases n.negative with
  | true => exact ⟨'-', _, rfl, .inl rfl⟩
  | false =>
    rw [hwhole]
    exact ⟨c, _, rfl, .inr hc⟩

theorem reads_unsigned (h : n.Grammatical) {letter : Char} (hletter : letter = 'e' ∨ letter = 'E')
    (hr : Stops isNumberPart r) :
    (Reader.unsigned n.negative).Reads
      (n.whole ++ ((if n.fraction.isEmpty then [] else '.' :: n.fraction) ++
        (exponentText letter n.exponent ++ r))) n r := by
  have hletter' : letter.isDigit = false ∧ (letter == '.') = false := by
    obtain rfl | rfl := hletter
    · decide
    · decide
  have hexponent : Stops (fun c => c.isDigit || c == '.') (exponentText letter n.exponent ++ r) :=
    stops_part (by simp [hletter']) _ (hr.mono fun c hc => by simp_all [isNumberPart])
  have hfraction : Stops Char.isDigit ((if n.fraction.isEmpty then [] else '.' :: n.fraction) ++
      (exponentText letter n.exponent ++ r)) :=
    stops_part (by decide) _ (hexponent.mono fun c hc => by simp [hc])
  obtain ⟨hw, hwhole⟩ := Reader.reads_wholePart h.whole hfraction
  obtain ⟨hf, hfraction⟩ := Reader.leaves_fractionPart h.fraction hexponent
  obtain ⟨he, hexponent⟩ := Reader.leaves_exponentPart h.exponent hletter hr
  refine ⟨by omega, ?_⟩
  unfold Reader.unsigned
  rw [hwhole]
  dsimp only
  rw [hfraction]
  dsimp only
  rw [hexponent]

/-- **Numbers.** A number is read from its text if nothing extends it. -/
theorem Spells.reads (h : Spells cs n) (hr : Stops isNumberPart r) :
    Reader.number.Reads (cs ++ r) n r := by
  obtain ⟨hn, hletter⟩ := h
  obtain ⟨hshorter, hread⟩ := reads_unsigned hn hletter hr
  unfold writtenWith
  simp only [List.append_assoc]
  generalize hs : n.whole ++ _ = s at hshorter hread
  cases hsign : n.negative with
  | true =>
    rw [hsign] at hread
    refine ⟨Nat.lt_succ_of_lt hshorter, ?_⟩
    show Reader.number ('-' :: s) = _
    rw [Reader.number, hread]
  | false =>
    rw [hsign] at hread
    refine ⟨hshorter, ?_⟩
    show Reader.number s = _
    rw [Reader.number, hread]
    -- A digit is no sign.
    intro rest heq
    obtain ⟨c, tail, hwhole, hc⟩ := hn.whole.begins
    rw [← hs, hwhole] at heq
    obtain ⟨rfl, -⟩ := List.cons.inj heq
    exact absurd hc (by decide)

end Number

/-! ## Strings -/

namespace Text

/-- Every escape of a surrogate names one. -/
def Grammatical (t : Text) : Prop :=
  ∀ code, .surrogate code ∈ t → isHighSurrogate code || isLowSurrogate code

/-- What stands between the quotes. -/
inductive Inside : List Char → Text → Prop where
  | nil : Inside [] []
  | plain {c : Char} {cs : List Char} {t : Text} (hquote : c ≠ '"') (hslash : c ≠ '\\')
      (hcontrol : ¬ c.toNat < 0x20) (h : Inside cs t) : Inside (c :: cs) (.char c :: t)
  | escaped {c d : Char} {cs : List Char} {t : Text} (hd : Reader.escaped? d = some c)
      (h : Inside cs t) : Inside ('\\' :: d :: cs) (.char c :: t)
  | code {a b c d : Char} {code : Nat} {cs : List Char} {t : Text}
      (hcode : Reader.hexCode? a b c d = some code) (h : Inside cs t) :
      Inside ('\\' :: 'u' :: a :: b :: c :: d :: cs) (Reader.ofCode code :: t)

/-- The text is the string, in quotes. -/
inductive Spells : List Char → Text → Prop where
  | mk {cs : List Char} {t : Text} (h : Inside cs t) : Spells ('"' :: (cs ++ ['"'])) t

/-! ### Strings as written -/

theorem hexValue?_hexDigit {n : Nat} (h : n < 16) : Reader.hexValue? (hexDigit n) = some n := by
  have hall : ∀ n : Fin 16, Reader.hexValue? (hexDigit n) = some n.val := by decide
  exact hall ⟨n, h⟩

theorem hexCode?_escape {code : Nat} (h : code < 65536) :
    Reader.hexCode? (hexDigit (code / 4096 % 16)) (hexDigit (code / 256 % 16))
      (hexDigit (code / 16 % 16)) (hexDigit (code % 16)) = some code := by
  unfold Reader.hexCode?
  rw [hexValue?_hexDigit (Nat.mod_lt _ (by decide)), hexValue?_hexDigit (Nat.mod_lt _ (by decide)),
    hexValue?_hexDigit (Nat.mod_lt _ (by decide)), hexValue?_hexDigit (Nat.mod_lt _ (by decide))]
  exact congrArg some (by omega)

section Elements

variable {t : Text} {cs r : List Char}

theorem ofCode_of_control {c : Char} (h : c.toNat < 0x20) : Reader.ofCode c.toNat = .char c := by
  unfold Reader.ofCode isHighSurrogate isLowSurrogate
  rw [if_neg (by simp; omega), Char.ofNat_toNat]

theorem Inside.escapeCode {code : Nat} (hcode : code < 65536) (h : Inside cs t) :
    Inside (Text.escapeCode code ++ cs) (Reader.ofCode code :: t) :=
  .code (hexCode?_escape hcode) h

theorem Inside.escapeChar (c : Char) (h : Inside cs t) :
    Inside (Text.escapeChar c ++ cs) (.char c :: t) := by
  unfold Text.escapeChar
  split
  · exact .escaped rfl h
  · exact .escaped rfl h
  · exact .escaped rfl h
  · exact .escaped rfl h
  · exact .escaped rfl h
  · exact .escaped rfl h
  · exact .escaped rfl h
  · rename_i hquote hslash _ _ _ _ _
    split
    · rename_i hcontrol
      rw [← ofCode_of_control hcontrol]
      exact h.escapeCode (by omega)
    · rename_i hcontrol
      exact .plain hquote hslash hcontrol h

theorem inside_elements (h : t.Grammatical) : Inside (t.flatMap renderElement) t := by
  induction t with
  | nil => exact .nil
  | cons e t ih =>
    have hrest := ih fun code hcode => h code (.tail e hcode)
    rw [List.flatMap_cons]
    cases e with
    | char c => exact hrest.escapeChar c
    | surrogate code =>
      have hsurrogate := h code (.head t)
      have hcode : code < 65536 := by
        simp only [isHighSurrogate, isLowSurrogate, Bool.or_eq_true, Bool.and_eq_true,
          decide_eq_true_eq] at hsurrogate
        omega
      have hinside := hrest.escapeCode hcode
      rw [Reader.ofCode, if_pos hsurrogate] at hinside
      exact hinside

theorem spells_render (h : t.Grammatical) : Spells t.render t := .mk (inside_elements h)

/-! ### Strings as read -/

theorem Spells.begins (h : Spells cs t) : ∃ tail, cs = '"' :: tail := by
  obtain ⟨-⟩ := h
  exact ⟨_, rfl⟩

theorem escaped?_u : Reader.escaped? 'u' = none := rfl

theorem Inside.leaves (h : Inside cs t) (r : List Char) :
    Reader.Leaves Reader.elements (cs ++ '"' :: r) t r := by
  induction h with
  | nil =>
    refine ⟨by simp, ?_⟩
    show Reader.elements ('"' :: r) = _
    rw [Reader.elements]
  | @plain c cs t hquote hslash hcontrol h ih =>
    obtain ⟨hlength, hread⟩ := ih
    refine ⟨Nat.le_succ_of_le hlength, ?_⟩
    show Reader.elements (c :: (cs ++ '"' :: r)) = _
    rw [Reader.elements, if_neg (by simp [hslash]; omega), hread]
    · exact hquote
    · intro _ _ _ _ _ heq _
      exact hslash heq
    · intro _ _ heq _
      exact hslash heq
  | @escaped c d cs t hd h ih =>
    obtain ⟨hlength, hread⟩ := ih
    refine ⟨by simp at hlength ⊢; omega, ?_⟩
    show Reader.elements ('\\' :: d :: (cs ++ '"' :: r)) = _
    rw [Reader.elements, hd, hread]
    rintro _ _ _ _ _ rfl _
    rw [escaped?_u] at hd
    contradiction
  | @code a b c d code cs t hcode h ih =>
    obtain ⟨hlength, hread⟩ := ih
    refine ⟨by simp at hlength ⊢; omega, ?_⟩
    show Reader.elements ('\\' :: 'u' :: a :: b :: c :: d :: (cs ++ '"' :: r)) = _
    rw [Reader.elements, hcode, hread]

/-- **Strings.** A string is read from its text, whatever comes after it. -/
theorem Spells.reads (h : Spells cs t) (r : List Char) : Reader.text.Reads (cs ++ r) t r := by
  obtain ⟨hinside⟩ := h
  obtain ⟨hlength, hread⟩ := hinside.leaves r
  rw [List.cons_append, List.append_assoc, List.singleton_append]
  refine ⟨Nat.lt_succ_of_le hlength, ?_⟩
  unfold Reader.text Reader.expect
  dsimp only
  rw [if_pos rfl]
  dsimp only
  rw [hread]

end Elements

end Text

end RollingBall.Json
