import RollingBall.Proofs.Reading.Merging

/-!
# Readers as programs

A reader returns a value, what it left and the fact that it left less, or it refuses a text. Without
that fact a reader is a program whose state is the text that is still unread (`Parser.outcome`), and
each reader is a sequence of the readers that it calls: one equation for each reader says of which.

## Main definitions

* `Parser.Outcome`: a program on the text that is still unread.
* `Parser.outcome`: what a reader makes of a text.
-/

namespace RollingBall.Parser

open Grammar

variable {α ρ σ : Type}

/-- A program on the text that is still unread, which ends with a value or an error. -/
abbrev Outcome (ρ : Type) : Type := StateT (List Char) (Except SyntaxError) ρ

/-- What a reader makes of a text. -/
def outcome (p : Parser ρ) : Outcome ρ := fun s =>
  (p s).map fun parsed => (parsed.value, parsed.rest)

theorem outcome_shorter {p : Parser ρ} {s r : List Char} {v : ρ} (h : p.outcome s = .ok (v, r)) :
    r.length < s.length := by
  unfold outcome at h
  cases hread : p s with
  | error e =>
    rw [hread] at h
    contradiction
  | ok parsed =>
    rw [hread] at h
    obtain ⟨⟩ := h
    exact parsed.shorter

/-! ## Steps -/

/-- The text is refused here. -/
def refusal (cause : SyntaxError.Cause) : Outcome ρ := fun s => .error ⟨cause, s⟩

/-- The character so many places ahead. -/
def upcoming (offset : Nat) : Outcome (Option Char) := fun s => .ok (s[offset]?, s)

/-- A character is taken if it comes next. -/
def consumed (c : Char) : Outcome Bool := fun s =>
  match s with
  | head :: tail => .ok (if head = c then (true, tail) else (false, head :: tail))
  | [] => .ok (false, [])

/-- A character that has to come next is taken. -/
def expected (c : Char) (cause : SyntaxError.Cause) : Outcome Unit := do
  if ← consumed c then
    return ()
  else
    refusal cause

/-- The characters of a class that come next are taken and counted. -/
def taken (p : Char → Bool) : Outcome Nat := fun s =>
  .ok ((s.takeWhile p).length, s.dropWhile p)

/-- Digits with a point among them or none are taken, and the digits are counted. -/
def digitsTaken : Outcome Nat := do
  let whole ← taken Char.isDigit
  if ← consumed '.' then
    return whole + (← taken Char.isDigit)
  else
    return whole

/-- The longest name. -/
def nameTaken : Outcome String := fun s =>
  .ok (String.ofList (s.takeWhile isNamePart), s.dropWhile isNamePart)

/-- A separator, if one comes next. -/
def separated (separator? : (s : List Char) → Option (σ × Rest s)) : Outcome (Option σ) := fun s =>
  match separator? s with
  | none => .ok (none, s)
  | some (separator, rest) => .ok (some separator, rest.val)

/-- Separators and items, as many as follow. -/
def linked (separator? : (s : List Char) → Option (σ × Rest s)) (p : Parser ρ) :
    Outcome (List (σ × ρ)) := fun s =>
  (links separator? p s).map fun read => (read.1, read.2.val)

/-- Further arguments. -/
def listed (p : Parser ρ) (n : Nat) : Outcome (List ρ) := fun s =>
  (moreArguments p n s).map fun read => (read.1, read.2.val)

/-- What comes of two stacks and the links still to be pushed on them. -/
def joined (B : Builder α ρ) (s : Stacks ρ) (links : List (BinaryOp × ρ)) : Outcome ρ :=
  match s.run B.binary links with
  | some value => return value
  | none => refusal .emptyExpression

section Steps

variable {p : Parser ρ} {s : List Char}

theorem bind_apply (m : Outcome ρ) (f : ρ → Outcome σ) (s : List Char) :
    (m >>= f) s = (m s).bind fun read => f read.1 read.2 := rfl

theorem bind_of_ok {m : Outcome ρ} {v : ρ} {r : List Char} (h : m s = .ok (v, r))
    (f : ρ → Outcome σ) : (m >>= f) s = f v r := by
  rw [bind_apply, h]
  rfl

theorem consumed_self (c : Char) (s : List Char) : consumed c (c :: s) = .ok (true, s) :=
  congrArg Except.ok (if_pos rfl)

theorem consumed_of_stops {c : Char} (h : Stops (· == c) s) : consumed c s = .ok (false, s) := by
  cases s with
  | nil => rfl
  | cons head tail => exact congrArg Except.ok (if_neg (by simpa using h))

theorem separated_of_none {separator? : (s : List Char) → Option (σ × Rest s)}
    (h : separator? s = none) : separated separator? s = .ok (none, s) := by
  rw [separated, h]

theorem separated_of_some {separator? : (s : List Char) → Option (σ × Rest s)} {separator : σ}
    {rest : Rest s} (h : separator? s = some (separator, rest)) :
    separated separator? s = .ok (some separator, rest.val) := by
  rw [separated, h]

theorem taken_cons {f : Char → Bool} {c : Char} (hc : f c) (s : List Char) :
    taken f (c :: s) = (do return (← taken f) + 1 : Outcome Nat) s := by
  unfold taken
  rw [List.takeWhile_cons, if_pos hc, List.dropWhile_cons, if_pos hc]
  rfl

theorem taken_of_stops {f : Char → Bool} (h : Stops f s) : taken f s = .ok (0, s) := by
  unfold taken
  cases s with
  | nil => rfl
  | cons c s =>
    have hc : ¬ f c := by simpa using h
    rw [List.takeWhile_cons, if_neg hc, List.dropWhile_cons, if_neg hc]
    rfl

theorem countP_takeWhile (f : Char → Bool) (s : List Char) :
    (s.takeWhile f).countP f = (s.takeWhile f).length :=
  List.countP_eq_length.mpr fun _ hc => of_mem_takeWhile hc

/-- Of what could be a numeral the digits are counted. -/
theorem digitsTaken_eq (s : List Char) :
    digitsTaken s = .ok ((Numeral.scan s).1.countP Char.isDigit, (Numeral.scan s).2) := by
  have hwhole : taken Char.isDigit s =
      .ok ((s.takeWhile Char.isDigit).length, s.dropWhile Char.isDigit) := rfl
  rw [digitsTaken, bind_of_ok hwhole]
  unfold Numeral.scan
  split
  · rename_i fraction hpoint
    have hconsumed : consumed '.' (s.dropWhile Char.isDigit) = .ok (true, fraction) := by
      rw [hpoint, consumed_self]
    rw [bind_of_ok hconsumed, if_pos rfl, List.countP_append, List.countP_cons, countP_takeWhile,
      countP_takeWhile]
    rfl
  · rename_i hnone
    rw [bind_of_ok (consumed_of_stops (stops_char_iff.mpr hnone)), countP_takeWhile]
    rfl

/-- A link is pushed before the links after it. -/
theorem linked_joined (B : Builder α ρ) (s : Stacks ρ) (link : BinaryOp × ρ)
    (m : Outcome (List (BinaryOp × ρ))) :
    ((do return link :: (← m)) >>= joined B s) = m >>= joined B (s.push B.binary link) := by
  rw [bind_assoc]
  simp only [pure_bind]
  rfl

theorem expected_eq (c : Char) (cause : SyntaxError.Cause) (s : List Char) :
    expected c cause s = (expect c cause s).map fun rest => ((), rest.val) := by
  cases s with
  | nil => rfl
  | cons head tail =>
    by_cases h : head = c
    · subst h
      rw [expect, if_pos rfl, expected, bind_of_ok (consumed_self _ _)]
      rfl
    · rw [expect, if_neg h, expected, bind_of_ok (consumed_of_stops (by simpa using h))]
      rfl

end Steps

/-! ## Readers -/

section Readers

variable {B : Builder α ρ} {p : Parser ρ}

theorem linked_eq (separator? : (s : List Char) → Option (σ × Rest s)) :
    linked separator? p = do
      match ← separated separator? with
      | none => return []
      | some separator =>
        let next ← p.outcome
        return (separator, next) :: (← linked separator? p) := by
  funext s
  rw [bind_apply]
  unfold linked separated outcome
  rw [links]
  cases separator? s with
  | none => rfl
  | some found =>
    obtain ⟨separator, rest, hrest⟩ := found
    dsimp only [Except.bind, bind_apply]
    cases p rest with
    | error e => rfl
    | ok next =>
      dsimp only [Except.map]
      cases links separator? p next.rest <;> rfl

/-- Operands with operators between them are joined on the stacks. -/
theorem outcome_expression :
    (expression B p).outcome = (do
      let first ← p.outcome
      let links ← linked operator? p
      joined B ⟨[first], []⟩ links) := by
  funext s
  rw [bind_apply]
  unfold outcome expression chain linked
  cases p s with
  | error e => rfl
  | ok first =>
    dsimp only [Except.map, Except.bind]
    rw [bind_apply]
    cases links operator? p first.rest with
    | error e => rfl
    | ok read =>
      obtain ⟨more, rest, hrest⟩ := read
      unfold joined
      show _ = (match Chain.join? B.binary ⟨first.value, more⟩ with
        | some value => (pure value : Outcome ρ)
        | none => refusal .emptyExpression) rest
      dsimp only
      cases Chain.join? B.binary ⟨first.value, more⟩ <;> rfl

theorem outcome_comparisons :
    (comparisons p).outcome = do
      let first ← p.outcome
      match ← linked relation? p with
      | [] => refusal .notARelation
      | link :: links => return ⟨first, link, links⟩ := by
  funext s
  rw [bind_apply]
  unfold outcome comparisons linked
  cases p s with
  | error e => rfl
  | ok first =>
    dsimp only [Except.map, Except.bind]
    rw [bind_apply]
    cases links relation? p first.rest with
    | error e => rfl
    | ok read =>
      obtain ⟨_ | ⟨link, more⟩, rest⟩ := read <;> rfl

theorem listed_zero : listed p 0 = pure [] := rfl

theorem listed_succ (n : Nat) :
    listed p (n + 1) = do
      expected ',' .missingComma
      let arg ← p.outcome
      return arg :: (← listed p n) := by
  funext s
  rw [bind_apply, expected_eq]
  unfold listed outcome
  rw [moreArguments]
  cases expect ',' .missingComma s with
  | error e => rfl
  | ok comma =>
    dsimp only [Except.map, Except.bind]
    rw [bind_apply]
    cases p comma.val with
    | error e => rfl
    | ok arg =>
      dsimp only [Except.map, Except.bind]
      rw [bind_apply]
      cases moreArguments p n arg.rest <;> rfl

theorem outcome_call (name : String) :
    (call B p name).outcome =
      match Builtin.ofName? name with
      | none => refusal (.unknownFunction name)
      | some fn => do
        let first ← p.outcome
        let more ← listed p (fn.arity - 1)
        expected ')' .unclosed
        return B.call fn (first :: more) := by
  funext s
  unfold outcome call listed
  cases Builtin.ofName? name with
  | none => rfl
  | some fn =>
    dsimp only
    rw [bind_apply]
    cases p s with
    | error e => rfl
    | ok first =>
      dsimp only [Except.map, Except.bind]
      rw [bind_apply]
      cases moreArguments p (fn.arity - 1) first.rest with
      | error e => rfl
      | ok more =>
        dsimp only [Except.map, Except.bind]
        rw [bind_apply, expected_eq]
        cases expect ')' .unclosed more.2.val <;> rfl

variable [Scalar α]

theorem outcome_numeral (s : List Char) :
    (numeral B).outcome s =
      if (Numeral.scan s).1.any Char.isDigit then
        match (Numeral.read? (Numeral.scan s).1 : Option α) with
        | some value => .ok (B.constant value, (Numeral.scan s).2)
        | none => .error ⟨.badNumeral (String.ofList (Numeral.scan s).1), (Numeral.scan s).2⟩
      else if s.isEmpty then .error ⟨.missingOperand, s⟩
      else .error ⟨.notAnOperand, s⟩ := by
  unfold outcome numeral
  split
  · cases (Numeral.read? (Numeral.scan s).1 : Option α) <;> rfl
  · split <;> rfl

theorem isNamePart_of_isLetter {c : Char} (h : Text.isLetter c) : isNamePart c := by
  have hletter : Text.isLetterOrNumeral c := by
    unfold Text.isLetter at h
    unfold Text.isLetterOrNumeral
    split at h
    · rw [if_pos ‹_›, Char.isAlphanum, h, Bool.true_or]
    · rw [if_neg ‹_›, h, Bool.true_or]
  rw [isNamePart, hletter, Bool.true_or]

/-- A name that a parenthesis follows is called. -/
theorem nameOrCall_eq {c : Char} (hc : Text.isLetter c) (s : List Char) :
    (nameOrCall B p c s).map (fun parsed => (parsed.value, parsed.rest)) =
      (do
        let name ← nameTaken
        if ← consumed '(' then
          (call B p name).outcome
        else
          match named? B name with
          | some value => return value
          | none => refusal (.unknownVariable name) : Outcome ρ) (c :: s) := by
  have hname : nameTaken (c :: s) =
      .ok (String.ofList (c :: s.takeWhile isNamePart), s.dropWhile isNamePart) := by
    unfold nameTaken
    rw [List.takeWhile_cons, if_pos (isNamePart_of_isLetter hc), List.dropWhile_cons,
      if_pos (isNamePart_of_isLetter hc)]
  rw [bind_of_ok hname]
  unfold nameOrCall outcome
  dsimp only
  split
  · rename_i inside hinside
    have hconsumed : consumed '(' (s.dropWhile isNamePart) = .ok (true, inside) := by
      rw [hinside, consumed_self]
    rw [bind_of_ok hconsumed, if_pos rfl]
    cases call B p (String.ofList (c :: s.takeWhile isNamePart)) inside <;> rfl
  · rename_i hnone
    rw [bind_of_ok (consumed_of_stops (stops_char_iff.mpr hnone))]
    cases named? B (String.ofList (c :: s.takeWhile isNamePart)) <;> rfl

theorem outcome_primary :
    (primary B p).outcome = (do
      if ← consumed '(' then
        let value ← p.outcome
        expected ')' .unclosed
        return value
      else
        match ← upcoming 0 with
        | some c =>
          if Text.isLetter c then
            let name ← nameTaken
            if ← consumed '(' then
              (call B p name).outcome
            else
              match named? B name with
              | some value => return value
              | none => refusal (.unknownVariable name)
          else
            (numeral B).outcome
        | none => (numeral B).outcome) := by
  funext s
  cases s with
  | nil => rfl
  | cons c s =>
    by_cases hparenthesis : c = '('
    · subst hparenthesis
      rw [bind_of_ok (consumed_self _ _), if_pos rfl, bind_apply]
      unfold outcome
      rw [primary, if_pos rfl]
      cases p s with
      | error e => rfl
      | ok inner =>
        dsimp only [Except.map, Except.bind]
        rw [bind_apply, expected_eq]
        cases expect ')' .unclosed inner.rest <;> rfl
    · rw [bind_of_ok (consumed_of_stops (by simpa using hparenthesis))]
      show _ = (if Text.isLetter c then _ else _ : Outcome ρ) (c :: s)
      unfold outcome
      rw [primary, if_neg hparenthesis]
      by_cases hc : Text.isLetter c
      · rw [if_pos hc, if_pos hc, nameOrCall_eq hc]
        rfl
      · rw [if_neg hc, if_neg hc]

theorem outcome_power :
    (power B p).outcome = do
      let base ← (primary B (expression B p)).outcome
      if ← consumed '^' then
        return B.binary .pow base (← p.outcome)
      else
        return base := by
  funext s
  rw [bind_apply]
  unfold outcome power
  cases primary B (expression B p) s with
  | error e => rfl
  | ok base =>
    rw [show Except.map _ (Except.ok base) = Except.ok (base.value, base.rest) from rfl]
    dsimp only [Except.bind]
    split
    · rename_i afterCaret hcaret
      have hconsumed : consumed '^' base.rest = .ok (true, afterCaret) := by
        rw [hcaret, consumed_self]
      rw [bind_of_ok hconsumed, if_pos rfl, bind_apply]
      cases p afterCaret <;> rfl
    · rename_i hnone
      rw [bind_of_ok (consumed_of_stops (stops_char_iff.mpr fun s hs => hnone s hs))]
      rfl

theorem outcome_signedPower :
    (signedPower B p).outcome = do
      let negative ← consumed '-'
      let value ← (power B p).outcome
      return if negative then B.negate value else value := by
  funext s
  unfold outcome
  cases s with
  | nil =>
    rw [bind_of_ok (consumed_of_stops (stops_nil _)), bind_apply, signedPower]
    cases power B p [] <;> rfl
  | cons c s =>
    by_cases hminus : c = '-'
    · subst hminus
      rw [bind_of_ok (consumed_self _ _), bind_apply, signedPower, if_pos rfl]
      cases power B p s <;> rfl
    · rw [bind_of_ok (consumed_of_stops (by simpa using hminus)), bind_apply, signedPower,
        if_neg hminus]
      cases power B p (c :: s) <;> rfl

end Readers

end RollingBall.Parser
