import RollingBall.Proofs.Reading.Readers

/-!
# The reader accepts its grammar

What the reader of formulas takes off a text is a phrase of the grammar (`expression_sound`), and it
takes a phrase off a text whole if no character comes after it that could go on with the phrase
(`expression_complete`). Nothing comes after a whole text, so a text is read as a formula exactly if
the grammar derives the formula from it, and a text has at most one formula.
-/

namespace RollingBall

namespace Grammar

open RollingBall.Parser

variable {α ρ : Type} [Scalar α] {B : Builder α ρ} {n : Nat} {s r : List Char} {e : ρ}

/-! ## What is read is a phrase -/

section Sound

variable (hoperand : ∀ {s e r}, (operand B n).Yields s e r → Operand B n s e r)

include hoperand

theorem links_sound {ls : List (BinaryOp × ρ)} (h : Leaves (links operator? (operand B n) s) ls r) :
    Links B n s ls r := by
  -- Each link takes something off the text, so the induction is on what is left of it.
  induction hlen : s.length using Nat.strongRecOn generalizing s ls with
  | ind k ih =>
    subst hlen
    rcases links_leaves_iff.mp h with
      ⟨-, rfl, rfl⟩ | ⟨op, rest, next, s', more, hop, hnext, hmore, rfl⟩
    · exact .done
    · have hrest := rest.property
      have hshorter := hnext.shorter
      have hlinks : Links B n s' more r := ih s'.length (by omega) hmore rfl
      rcases operator?_eq_some_iff.mp hop with ⟨c, hs, hsign⟩ | ⟨rfl, hs, c, tail, rfl, hc⟩
      · rw [hs]
        exact .sign hsign (hoperand hnext) hlinks
      · rw [hs] at hnext
        exact .product hc (hoperand hnext) hlinks

theorem expression_sound (h : (expression B (operand B n)).Yields s e r) :
    Expression B n s e r := by
  obtain ⟨first, s', ls, hfirst, hls, rfl⟩ := expression_yields_iff.mp h
  exact .chain (hoperand hfirst) (links_sound hoperand hls)

theorem arguments_sound {k : Nat} {s' : List Char} {more : List ρ} (h : Expression B n s e s')
    (hmore : Leaves (moreArguments (expression B (operand B n)) k s') more r) :
    Arguments B n s (e :: more) r ∧ more.length = k := by
  induction k generalizing s e s' more with
  | zero =>
    obtain ⟨rfl, rfl⟩ := moreArguments_zero_leaves_iff.mp hmore
    exact ⟨.last h, rfl⟩
  | succ k ih =>
    obtain ⟨afterComma, next, s'', rest, rfl, hnext, hrest, rfl⟩ :=
      moreArguments_succ_leaves_iff.mp hmore
    obtain ⟨hargs, hlen⟩ := ih (expression_sound hoperand hnext) hrest
    exact ⟨.more h hargs, by rw [List.length_cons, hlen]⟩

theorem primary_sound (h : (primary B (expression B (operand B n))).Yields s e r) :
    Primary B n s e r := by
  by_cases hother : Stops (fun c => c == '(' || Text.isLetter c) s
  · obtain ⟨hlt, hs⟩ := h
    rw [primary_eq_numeral hother] at hs
    obtain ⟨a, hnumber, rfl⟩ := numeral_yields ⟨hlt, hs⟩
    exact .number hnumber
  · cases s with
    | nil => exact absurd (stops_nil _) hother
    | cons c s =>
      by_cases hparenthesis : c = '('
      · subst hparenthesis
        exact .parentheses (expression_sound hoperand (primary_parenthesis_yields_iff.mp h))
      · have hc : Text.isLetter c := by simpa [hparenthesis] using hother
        rcases (primary_letter_yields_iff hc).mp h with
          ⟨name, hname, hstops, hsymbol⟩ | ⟨name, s', hname, hcall⟩
        · exact .symbol hname hstops hsymbol
        · obtain ⟨fn, first, s'', more, _, hfn, hfirst, hmore, rfl, rfl⟩ :=
            call_yields_iff.mp hcall
          obtain ⟨hargs, hlen⟩ := arguments_sound hoperand (expression_sound hoperand hfirst) hmore
          exact .call hname hfn hargs (by rw [List.length_cons, hlen]; cases fn <;> rfl)

theorem power_sound (h : (power B (operand B n)).Yields s e r) : Power B n s e r := by
  rcases power_yields_iff.mp h with ⟨hbase, -⟩ | ⟨base, s', exponent, hbase, hexponent, rfl⟩
  · exact .base (primary_sound hoperand hbase)
  · exact .power (primary_sound hoperand hbase) (hoperand hexponent)

end Sound

theorem operand_sound (h : (operand B n).Yields s e r) : Operand B n s e r := by
  induction n generalizing s e r with
  | zero => exact absurd h not_operand_zero
  | succ n ih =>
    rw [operand_succ] at h
    rcases signedPower_yields_iff.mp h with ⟨-, hpower⟩ | ⟨s', e', rfl, hpower, rfl⟩
    · exact .positive (power_sound ih hpower)
    · exact .negative (power_sound ih hpower)

/-! ## A phrase is read whole -/

/-- The character could go on with an operand. -/
def continuesOperand (c : Char) : Bool := isNumeralPart c || c == '^'

/-- The character could go on with a formula. -/
def continuesFormula (c : Char) : Bool := continuesOperand c || beginsLink c

section Follow

theorem Stops.operand (h : Stops continuesFormula r) : Stops continuesOperand r :=
  h.mono fun c hc => by rw [continuesFormula, hc, Bool.true_or]

theorem Stops.link (h : Stops continuesFormula r) : Stops beginsLink r :=
  h.mono fun c hc => by rw [continuesFormula, hc, Bool.or_true]

theorem Stops.numeral (h : Stops continuesOperand r) : Stops isNumeralPart r :=
  h.mono fun c hc => by rw [continuesOperand, hc, Bool.true_or]

theorem Stops.caret (h : Stops continuesOperand r) : Stops (· == '^') r :=
  h.mono fun c hc => by rw [continuesOperand, hc, Bool.or_true]

end Follow

theorem letter_not_continuesOperand {c : Char} (h : Text.isLetter c) :
    continuesOperand c = false := by
  cases hcontinues : continuesOperand c with
  | false => rfl
  | true =>
    rw [continuesOperand, isNumeralPart, Bool.or_eq_true, Bool.or_eq_true] at hcontinues
    rcases hcontinues with (hdigit | hpoint) | hcaret
    · rw [digit_not_letter hdigit] at h
      contradiction
    · obtain rfl := beq_iff_eq.mp hpoint
      exact absurd h (by decide)
    · obtain rfl := beq_iff_eq.mp hcaret
      exact absurd h (by decide)

theorem sign_not_continuesOperand {c : Char} {op : BinaryOp} (h : Sign c op) :
    continuesOperand c = false := by
  cases h <;> decide

theorem caret_not_isNumeralPart : isNumeralPart '^' = false := by decide

theorem closing_not_continuesFormula : continuesFormula ')' = false := by decide

theorem comma_not_continuesFormula : continuesFormula ',' = false := by decide

theorem Number.not_name {a : α} (h : Number s a r) :
    Stops (fun c => c == '(' || Text.isLetter c) s := by
  obtain ⟨c, tail, rfl, hc⟩ := h.begins
  rw [stops_cons, Bool.or_eq_false_iff, beq_eq_false_iff_ne]
  refine ⟨by rintro rfl; contradiction, ?_⟩
  rw [isNumeralPart, Bool.or_eq_true] at hc
  rcases hc with hdigit | hpoint
  · exact digit_not_letter hdigit
  · obtain rfl := beq_iff_eq.mp hpoint
    decide

/-- A primary never begins with a sign, so an operand's sign is its own. -/
theorem Primary.not_minus (h : Primary B n s e r) : Stops (· == '-') s := by
  cases h with
  | parentheses => simp
  | number h =>
    obtain ⟨c, tail, rfl, hc⟩ := h.begins
    rw [stops_cons, beq_eq_false_iff_ne]
    rintro rfl
    contradiction
  | symbol h | call h =>
    obtain ⟨c, tail, rfl, hc⟩ := h.begins
    rw [stops_cons, beq_eq_false_iff_ne]
    rintro rfl
    exact absurd hc (by decide)

theorem Power.not_minus (h : Power B n s e r) : Stops (· == '-') s := by
  cases h with
  | base h => exact h.not_minus
  | power h => exact h.not_minus

mutual

theorem expression_complete : ∀ {n : Nat} {s r : List Char} {e : ρ}, Expression B n s e r →
    Stops continuesFormula r → (expression B (operand B n)).Yields s e r
  | _, _, _, _, .chain hfirst hlinks, hr => by
    obtain ⟨hls, hs⟩ := links_complete hlinks hr
    exact expression_yields_iff.mpr ⟨_, _, _, operand_complete hfirst hs, hls, rfl⟩

theorem links_complete : ∀ {n : Nat} {s r : List Char} {ls : List (BinaryOp × ρ)},
    Links B n s ls r → Stops continuesFormula r →
    Leaves (links operator? (operand B n) s) ls r ∧ Stops continuesOperand s
  | _, _, _, _, .done, hr => by
    have hnone := operator?_eq_none_iff.mpr hr.link
    exact ⟨links_leaves_iff.mpr (.inl ⟨hnone, rfl, rfl⟩), hr.operand⟩
  | _, _, _, _, .sign hsign hnext hlinks, hr => by
    obtain ⟨hls, hs⟩ := links_complete hlinks hr
    have hread := links_leaves_iff.mpr
      (.inr ⟨_, _, _, _, _, operator?_sign hsign, operand_complete hnext hs, hls, rfl⟩)
    exact ⟨hread, stops_cons.mpr (sign_not_continuesOperand hsign)⟩
  | _, _, _, _, .product hc hnext hlinks, hr => by
    obtain ⟨hls, hs⟩ := links_complete hlinks hr
    have hread := links_leaves_iff.mpr
      (.inr ⟨_, _, _, _, _, operator?_letter hc, operand_complete hnext hs, hls, rfl⟩)
    exact ⟨hread, stops_cons.mpr (letter_not_continuesOperand hc)⟩

theorem operand_complete : ∀ {n : Nat} {s r : List Char} {e : ρ}, Operand B n s e r →
    Stops continuesOperand r → (operand B n).Yields s e r
  | _, _, _, _, .positive h, hr => by
    rw [operand_succ]
    exact signedPower_yields_iff.mpr (.inl ⟨h.not_minus, power_complete h hr⟩)
  | _, _, _, _, .negative h, hr => by
    rw [operand_succ]
    exact signedPower_yields_iff.mpr (.inr ⟨_, _, rfl, power_complete h hr, rfl⟩)

theorem power_complete : ∀ {n : Nat} {s r : List Char} {e : ρ}, Power B n s e r →
    Stops continuesOperand r → (power B (operand B n)).Yields s e r
  | _, _, _, _, .base h, hr =>
    power_yields_iff.mpr (.inl ⟨primary_complete h hr.numeral, hr.caret⟩)
  | _, _, _, _, .power hbase hexponent, hr => by
    have hread := primary_complete hbase (stops_cons.mpr caret_not_isNumeralPart)
    exact power_yields_iff.mpr (.inr ⟨_, _, _, hread, operand_complete hexponent hr, rfl⟩)

theorem primary_complete : ∀ {n : Nat} {s r : List Char} {e : ρ}, Primary B n s e r →
    Stops isNumeralPart r → (primary B (expression B (operand B n))).Yields s e r
  | _, _, _, _, .parentheses h, _ => by
    have hread := expression_complete h (stops_cons.mpr closing_not_continuesFormula)
    exact primary_parenthesis_yields_iff.mpr hread
  | _, _, _, _, .number h, hr => by
    obtain ⟨hlt, hread⟩ := numeral_yields_of_number (B := B) h hr
    exact ⟨hlt, (primary_eq_numeral h.not_name).trans hread⟩
  | _, _, _, _, .symbol hname hstops hsymbol, _ => by
    obtain ⟨c, tail, rfl, hc⟩ := hname.begins
    exact (primary_letter_yields_iff hc).mpr (.inl ⟨_, hname, hstops, hsymbol⟩)
  | _, _, _, _, .call hname hfn hargs hlen, _ => by
    obtain ⟨c, tail, rfl, hc⟩ := hname.begins
    obtain ⟨first, more, s', rfl, hfirst, hmore⟩ :=
      arguments_complete hargs (stops_cons.mpr closing_not_continuesFormula)
    have hcount := Nat.eq_sub_of_add_eq hlen
    rw [hcount] at hmore
    have hcall := call_yields_iff (B := B).mpr ⟨_, _, _, _, _, hfn, hfirst, hmore, rfl, rfl⟩
    exact (primary_letter_yields_iff hc).mpr (.inr ⟨_, _, hname, hcall⟩)

theorem arguments_complete : ∀ {n : Nat} {s r : List Char} {es : List ρ}, Arguments B n s es r →
    Stops continuesFormula r → ∃ first more s', es = first :: more ∧
      (expression B (operand B n)).Yields s first s' ∧
      Leaves (moreArguments (expression B (operand B n)) more.length s') more r
  | _, _, _, _, .last h, hr =>
    ⟨_, [], _, rfl, expression_complete h hr, moreArguments_zero_leaves_iff.mpr ⟨rfl, rfl⟩⟩
  | _, _, _, _, .more h hargs, hr => by
    have hread := expression_complete h (stops_cons.mpr comma_not_continuesFormula)
    obtain ⟨first, more, s', rfl, hfirst, hmore⟩ := arguments_complete hargs hr
    exact ⟨_, first :: more, _, rfl, hread,
      moreArguments_succ_leaves_iff.mpr ⟨_, _, _, _, rfl, hfirst, hmore, rfl⟩⟩

end

/-! ## A deeper limit allows more -/

mutual

theorem Expression.mono : ∀ {n m : Nat} {s r : List Char} {e : ρ}, Expression B n s e r → n ≤ m →
    Expression B m s e r
  | _, _, _, _, _, .chain hfirst hlinks, hle => .chain (hfirst.mono hle) (hlinks.mono hle)

theorem Links.mono : ∀ {n m : Nat} {s r : List Char} {ls : List (BinaryOp × ρ)},
    Links B n s ls r → n ≤ m → Links B m s ls r
  | _, _, _, _, _, .done, _ => .done
  | _, _, _, _, _, .sign hsign hnext hlinks, hle => .sign hsign (hnext.mono hle) (hlinks.mono hle)
  | _, _, _, _, _, .product hc hnext hlinks, hle => .product hc (hnext.mono hle) (hlinks.mono hle)

theorem Operand.mono : ∀ {n m : Nat} {s r : List Char} {e : ρ}, Operand B n s e r → n ≤ m →
    Operand B m s e r
  | _, 0, _, _, _, .positive _, hle => absurd hle (Nat.not_succ_le_zero _)
  | _, 0, _, _, _, .negative _, hle => absurd hle (Nat.not_succ_le_zero _)
  | _, _ + 1, _, _, _, .positive h, hle => .positive (h.mono (Nat.le_of_succ_le_succ hle))
  | _, _ + 1, _, _, _, .negative h, hle => .negative (h.mono (Nat.le_of_succ_le_succ hle))

theorem Power.mono : ∀ {n m : Nat} {s r : List Char} {e : ρ}, Power B n s e r → n ≤ m →
    Power B m s e r
  | _, _, _, _, _, .base h, hle => .base (h.mono hle)
  | _, _, _, _, _, .power hbase hexponent, hle => .power (hbase.mono hle) (hexponent.mono hle)

theorem Primary.mono : ∀ {n m : Nat} {s r : List Char} {e : ρ}, Primary B n s e r → n ≤ m →
    Primary B m s e r
  | _, _, _, _, _, .parentheses h, hle => .parentheses (h.mono hle)
  | _, _, _, _, _, .number h, _ => .number h
  | _, _, _, _, _, .symbol hname hstops hsymbol, _ => .symbol hname hstops hsymbol
  | _, _, _, _, _, .call hname hfn hargs hlen, hle => .call hname hfn (hargs.mono hle) hlen

theorem Arguments.mono : ∀ {n m : Nat} {s r : List Char} {es : List ρ}, Arguments B n s es r →
    n ≤ m → Arguments B m s es r
  | _, _, _, _, _, .last h, hle => .last (h.mono hle)
  | _, _, _, _, _, .more h hargs, hle => .more (h.mono hle) (hargs.mono hle)

end

/-! ## Whole texts -/

theorem derives_iff_yields {n : Nat} :
    Derives B n s e ↔ (expression B (operand B n)).Yields s e [] :=
  ⟨fun h => expression_complete h (stops_nil _), expression_sound operand_sound⟩

theorem Derives.unique {n m : Nat} {e' : ρ} (h : Derives B n s e) (h' : Derives B m s e') :
    e = e' := by
  have hdeep : Derives B (max n m) s e := Expression.mono h (Nat.le_max_left n m)
  have hdeep' : Derives B (max n m) s e' := Expression.mono h' (Nat.le_max_right n m)
  exact ((derives_iff_yields.mp hdeep).unique (derives_iff_yields.mp hdeep')).1

end Grammar

theorem Parser.whole_eq_some_iff {ρ : Type} {p : Parser ρ} {s : List Char} {e : ρ} :
    whole p s = .ok (some e) ↔ p.Yields s e [] := by
  constructor
  · intro h
    unfold whole at h
    split at h
    · obtain ⟨⟩ := h
    · split at h
      · contradiction
      · rename_i parsed hparsed
        split at h
        · rename_i hrest
          obtain ⟨⟩ := h
          have hnil : parsed.rest = [] := List.isEmpty_iff.mp hrest
          rw [← hnil]
          exact yields_of_eq_ok hparsed
        · contradiction
  · rintro ⟨hlt, h⟩
    cases s with
    | nil => contradiction
    | cons c s =>
      unfold whole
      simp only [List.isEmpty_cons, Bool.false_eq_true, if_false, h, List.isEmpty_nil, if_true]

theorem Formula.parseWith_eq_some_iff {α ρ : Type} [Scalar α] {B : Builder α ρ} {s : List Char}
    {e : ρ} : Formula.parseWith B s = .ok (some e) ↔ Grammar.Derives B maxNesting s e :=
  Parser.whole_eq_some_iff.trans Grammar.derives_iff_yields.symm

theorem Formula.parse_x {α : Type} [Scalar α] :
    Formula.parse ['x'] = .ok (some (.var .x : Formula α)) :=
  Formula.parseWith_eq_some_iff.mpr
    (.chain (.x (Grammar.stops_nil _) (Grammar.stops_nil _)) .done)

end RollingBall
