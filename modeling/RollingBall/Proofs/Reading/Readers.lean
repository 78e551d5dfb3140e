import RollingBall.Proofs.Reading.Words
import RollingBall.Proofs.Reading.Precedence

/-!
# What each reader reads

`p.Yields s e r` says that the reader `p` reads `e` off the text `s` and leaves `r`. For each reader
of the grammar one lemma says when it yields something in terms of the readers it calls, so no later
proof opens a reader.
-/

namespace RollingBall.Parser

open Grammar

variable {α ρ σ : Type}

/-- The reader takes `e` off the front of `s` and leaves `r`. -/
def Yields (p : Parser ρ) (s : List Char) (e : ρ) (r : List Char) : Prop :=
  ∃ h, p s = .ok ⟨e, r, h⟩

/-- What was read, if anything, is `e`, and `r` was left. It may be that nothing was read. -/
def Leaves {s : List Char} (read : Except SyntaxError (σ × Rest s)) (e : σ) (r : List Char) :
    Prop :=
  ∃ h, read = .ok (e, ⟨r, h⟩)

theorem Yields.shorter {p : Parser ρ} {s r : List Char} {e : ρ} (h : p.Yields s e r) :
    r.length < s.length := h.1

theorem Yields.unique {p : Parser ρ} {s r r' : List Char} {e e' : ρ} (h : p.Yields s e r)
    (h' : p.Yields s e' r') : e = e' ∧ r = r' := by
  obtain ⟨_, h⟩ := h
  obtain ⟨_, h'⟩ := h'
  rw [h] at h'
  cases h'
  exact ⟨rfl, rfl⟩

theorem yields_of_eq_ok {p : Parser ρ} {s : List Char} {parsed : Parsed ρ s}
    (h : p s = .ok parsed) : p.Yields s parsed.value parsed.rest := ⟨parsed.shorter, h⟩

/-! ## Single characters and separators -/

theorem expect_eq_ok_iff {c : Char} {cause : SyntaxError.Cause} {s : List Char}
    {rest : ShorterRest s} : expect c cause s = .ok rest ↔ s = c :: rest.val := by
  obtain ⟨r, h⟩ := rest
  cases s with
  | nil => simp [expect]
  | cons head tail =>
    rw [expect]
    by_cases hc : head = c
    · simp [hc]
    · simp [hc]

theorem sign_not_letter {c : Char} {op : BinaryOp} (h : Sign c op) : Text.isLetter c = false := by
  cases h <;> decide

theorem sign_isLink {c : Char} {op : BinaryOp} (h : Sign c op) : op.IsLink := by
  cases h <;> (unfold BinaryOp.IsLink; decide)

/-- An operator is a sign that is taken or the letter after an unwritten product, which is not. -/
theorem operator?_eq_some_iff {s : List Char} {op : BinaryOp} {rest : Rest s} :
    operator? s = some (op, rest) ↔
      (∃ c, s = c :: rest.val ∧ Sign c op) ∨
        op = .mul ∧ rest.val = s ∧ ∃ c tail, s = c :: tail ∧ Text.isLetter c := by
  obtain ⟨r, h⟩ := rest
  cases s with
  | nil => simp [operator?]
  | cons c tail =>
    unfold operator?
    dsimp only
    by_cases hc : Text.isLetter c
    · rw [if_pos hc]
      constructor
      · rintro ⟨⟩
        exact .inr ⟨rfl, rfl, c, tail, rfl, hc⟩
      · rintro (⟨_, hs, hsign⟩ | ⟨rfl, rfl, -⟩)
        · obtain ⟨rfl, -⟩ := List.cons.inj hs
          rw [sign_not_letter hsign] at hc
          contradiction
        · rfl
    · rw [if_neg hc]
      constructor
      · intro hop
        split at hop
        all_goals first | contradiction | obtain ⟨⟩ := hop
        · exact .inl ⟨_, rfl, .add⟩
        · exact .inl ⟨_, rfl, .sub⟩
        · exact .inl ⟨_, rfl, .mul⟩
        · exact .inl ⟨_, rfl, .div⟩
      · rintro (⟨_, hs, hsign⟩ | ⟨-, -, _, _, hs, hletter⟩)
        · obtain ⟨rfl, rfl⟩ := List.cons.inj hs
          cases hsign <;> rfl
        · obtain ⟨rfl, -⟩ := List.cons.inj hs
          contradiction

theorem operator?_sign {c : Char} {op : BinaryOp} {s : List Char} (h : Sign c op) :
    operator? (c :: s) = some (op, ⟨s, Nat.le_succ _⟩) :=
  operator?_eq_some_iff.mpr (.inl ⟨c, rfl, h⟩)

theorem operator?_letter {c : Char} {s : List Char} (h : Text.isLetter c) :
    operator? (c :: s) = some (.mul, ⟨c :: s, Nat.le_refl _⟩) :=
  operator?_eq_some_iff.mpr (.inr ⟨rfl, rfl, c, s, rfl, h⟩)

/-- No operator follows what neither a letter nor a sign begins. -/
theorem operator?_eq_none_iff {s : List Char} : operator? s = none ↔ Stops beginsLink s := by
  cases s with
  | nil => simp [operator?, Stops]
  | cons c tail =>
    unfold operator?
    rw [stops_cons, beginsLink]
    dsimp only
    by_cases hc : Text.isLetter c
    · simp [hc]
    · rw [if_neg hc]
      split <;> simp_all

/-! ## Chains -/

theorem links_leaves_iff {separator? : (s : List Char) → Option (σ × Rest s)} {p : Parser ρ}
    {s r : List Char} {ls : List (σ × ρ)} :
    Leaves (links separator? p s) ls r ↔
      (separator? s = none ∧ ls = [] ∧ r = s) ∨
        ∃ separator rest next s' more, separator? s = some (separator, rest) ∧
          p.Yields rest.val next s' ∧ Leaves (links separator? p s') more r ∧
          ls = (separator, next) :: more := by
  unfold Leaves
  rw [links]
  constructor
  · rintro ⟨h, hs⟩
    split at hs
    · rename_i hnone
      obtain ⟨⟩ := hs
      exact .inl ⟨hnone, rfl, rfl⟩
    · rename_i op s₁ h₁ hop
      split at hs
      · contradiction
      · rename_i next hnext
        split at hs
        · contradiction
        · rename_i more r' hr' hmore
          obtain ⟨⟩ := hs
          exact .inr ⟨op, ⟨s₁, h₁⟩, _, _, more, hop, yields_of_eq_ok hnext, ⟨hr', hmore⟩, rfl⟩
  · rintro (⟨hnone, rfl, rfl⟩ | ⟨op, ⟨s₁, h₁⟩, next, s', more, hop, ⟨h, hnext⟩, ⟨h', hmore⟩, rfl⟩)
    · rw [hnone]
      exact ⟨Nat.le_refl _, rfl⟩
    · have hshorter : s'.length < s₁.length := h
      refine ⟨by omega, ?_⟩
      simp only [hop, hnext, hmore]

theorem chain_yields_iff {p : Parser ρ} {s r : List Char} {c : Chain ρ} :
    (chain p).Yields s c r ↔
      ∃ s', p.Yields s c.first s' ∧ Leaves (links operator? p s') c.links r := by
  constructor
  · rintro ⟨h, hs⟩
    rw [chain] at hs
    split at hs
    · contradiction
    · rename_i first hfirst
      split at hs
      · contradiction
      · rename_i more r' hr' hmore
        obtain ⟨⟩ := hs
        exact ⟨first.rest, yields_of_eq_ok hfirst, hr', hmore⟩
  · rintro ⟨s', ⟨h, hfirst⟩, ⟨h', hmore⟩⟩
    refine ⟨by omega, ?_⟩
    simp only [chain, hfirst, hmore]

/-- A reader of chains finds sums and products between operands, nothing else. -/
theorem isLink_of_links {p : Parser ρ} {s r : List Char} {ls : List (BinaryOp × ρ)}
    (h : Leaves (links operator? p s) ls r) : ∀ link ∈ ls, link.1.IsLink := by
  induction hlen : s.length using Nat.strongRecOn generalizing s ls with
  | ind n ih =>
    subst hlen
    rcases links_leaves_iff.mp h with
      ⟨-, rfl, -⟩ | ⟨op, rest, next, s', more, hop, hnext, hmore, rfl⟩
    · intro link hlink
      contradiction
    · have hrest := rest.property
      have hshorter := hnext.shorter
      intro link hlink
      rcases List.mem_cons.mp hlink with rfl | hlink
      · rcases operator?_eq_some_iff.mp hop with ⟨c, -, hsign⟩ | ⟨rfl, -⟩
        · exact sign_isLink hsign
        · exact Nat.le_refl 2
      · exact ih s'.length (by omega) hmore rfl link hlink

theorem expression_yields_iff {B : Builder α ρ} {p : Parser ρ} {s r : List Char} {e : ρ} :
    (expression B p).Yields s e r ↔
      ∃ first s' ls, p.Yields s first s' ∧ Leaves (links operator? p s') ls r ∧
        e = Chain.byPrecedence B.binary ⟨first, ls⟩ := by
  constructor
  · rintro ⟨h, hs⟩
    rw [expression] at hs
    split at hs
    · contradiction
    · rename_i parsed hparsed
      obtain ⟨s', hfirst, hls⟩ := chain_yields_iff.mp (yields_of_eq_ok hparsed)
      rw [Chain.join?_eq B.binary parsed.value (isLink_of_links hls)] at hs
      obtain ⟨⟩ := hs
      exact ⟨_, s', _, hfirst, hls, rfl⟩
  · rintro ⟨first, s', ls, hfirst, hls, rfl⟩
    have hyields : (chain p).Yields s ⟨first, ls⟩ r := chain_yields_iff.mpr ⟨s', hfirst, hls⟩
    obtain ⟨h, hchain⟩ := hyields
    refine ⟨h, ?_⟩
    simp only [expression, hchain, Chain.join?_eq B.binary ⟨first, ls⟩ (isLink_of_links hls)]

/-! ## Calls -/

section Calls

variable {B : Builder α ρ} {p : Parser ρ} {s r : List Char} {e : ρ}

theorem moreArguments_zero_leaves_iff {es : List ρ} :
    Leaves (moreArguments p 0 s) es r ↔ es = [] ∧ r = s := by
  constructor
  · rintro ⟨h, hs⟩
    obtain ⟨⟩ := hs
    exact ⟨rfl, rfl⟩
  · rintro ⟨rfl, rfl⟩
    exact ⟨Nat.le_refl _, rfl⟩

theorem moreArguments_succ_leaves_iff {n : Nat} {es : List ρ} :
    Leaves (moreArguments p (n + 1) s) es r ↔
      ∃ s' arg s'' more, s = ',' :: s' ∧ p.Yields s' arg s'' ∧
        Leaves (moreArguments p n s'') more r ∧ es = arg :: more := by
  constructor
  · rintro ⟨h, hs⟩
    rw [moreArguments] at hs
    split at hs
    · contradiction
    · rename_i s' hs' hexpect
      split at hs
      · contradiction
      · rename_i arg harg
        split at hs
        · contradiction
        · rename_i more rest hrest hmore
          obtain ⟨⟩ := hs
          exact ⟨s', _, _, more, expect_eq_ok_iff.mp hexpect, yields_of_eq_ok harg,
            ⟨hrest, hmore⟩, rfl⟩
  · rintro ⟨s', arg, s'', more, rfl, ⟨h, harg⟩, ⟨h', hmore⟩, rfl⟩
    have hlt : s'.length < (',' :: s').length := Nat.lt_succ_self _
    have hexpect : expect ',' .missingComma (',' :: s') = .ok ⟨s', hlt⟩ := expect_eq_ok_iff.mpr rfl
    refine ⟨by omega, ?_⟩
    simp only [moreArguments, hexpect, harg, hmore]

theorem call_yields_iff {name : String} :
    (call B p name).Yields s e r ↔
      ∃ fn first s' more s'', Builtin.ofName? name = some fn ∧ p.Yields s first s' ∧
        Leaves (moreArguments p (fn.arity - 1) s') more s'' ∧ s'' = ')' :: r ∧
        e = B.call fn (first :: more) := by
  constructor
  · rintro ⟨h, hs⟩
    rw [call] at hs
    split at hs
    · contradiction
    · rename_i fn hfn
      split at hs
      · contradiction
      · rename_i first hfirst
        split at hs
        · contradiction
        · rename_i more s'' hs'' hmore
          split at hs
          · contradiction
          · rename_i rest hrest hexpect
            obtain ⟨⟩ := hs
            exact ⟨fn, _, _, more, s'', hfn, yields_of_eq_ok hfirst, ⟨hs'', hmore⟩,
              expect_eq_ok_iff.mp hexpect, rfl⟩
  · rintro ⟨fn, first, s', more, _, hfn, ⟨h, hfirst⟩, ⟨h', hmore⟩, rfl, rfl⟩
    have hlt : r.length < (')' :: r).length := Nat.lt_succ_self _
    have hexpect : expect ')' .unclosed (')' :: r) = .ok ⟨r, hlt⟩ := expect_eq_ok_iff.mpr rfl
    refine ⟨by omega, ?_⟩
    simp only [call, hfn, hfirst, hmore, hexpect]

end Calls

/-! ## Operands -/

section Operands

variable [Scalar α] {B : Builder α ρ} {p : Parser ρ} {s r : List Char} {e : ρ}

theorem power_yields_iff :
    (power B p).Yields s e r ↔
      (primary B (expression B p)).Yields s e r ∧ Stops (· == '^') r ∨
        ∃ base s' exponent, (primary B (expression B p)).Yields s base ('^' :: s') ∧
          p.Yields s' exponent r ∧ e = B.binary .pow base exponent := by
  constructor
  · rintro ⟨h, hs⟩
    rw [power] at hs
    split at hs
    · contradiction
    · rename_i base hbase
      split at hs
      · rename_i s' hrest
        split at hs
        · contradiction
        · rename_i exponent hexponent
          obtain ⟨⟩ := hs
          exact .inr ⟨_, s', _, hrest ▸ yields_of_eq_ok hbase, yields_of_eq_ok hexponent, rfl⟩
      · rename_i hrest
        obtain ⟨⟩ := hs
        exact .inl ⟨⟨h, hbase⟩, stops_char_iff.mpr hrest⟩
  · rintro (⟨⟨h, hbase⟩, hstops⟩ | ⟨base, s', exponent, ⟨h, hbase⟩, ⟨h', hexponent⟩, rfl⟩)
    · refine ⟨h, ?_⟩
      unfold power
      simp only [hbase]
      split
      · exact absurd hstops (by simp)
      · rfl
    · rw [List.length_cons] at h
      refine ⟨by omega, ?_⟩
      simp only [power, hbase, hexponent]

theorem signedPower_yields_iff :
    (signedPower B p).Yields s e r ↔
      Stops (· == '-') s ∧ (power B p).Yields s e r ∨
        ∃ s' e', s = '-' :: s' ∧ (power B p).Yields s' e' r ∧ e = B.negate e' := by
  cases s with
  | nil => simp [Yields, signedPower]
  | cons c tail =>
    by_cases hc : c = '-'
    · subst hc
      constructor
      · rintro ⟨h, hs⟩
        rw [signedPower, if_pos rfl] at hs
        split at hs
        · contradiction
        · rename_i parsed hparsed
          obtain ⟨⟩ := hs
          exact .inr ⟨tail, _, rfl, yields_of_eq_ok hparsed, rfl⟩
      · rintro (⟨hstops, -⟩ | ⟨s', e', hs, ⟨h, hpower⟩, rfl⟩)
        · exact absurd hstops (by simp)
        · obtain ⟨-, rfl⟩ := List.cons.inj hs
          refine ⟨Nat.lt_succ_of_lt h, ?_⟩
          rw [signedPower, if_pos rfl]
          simp only [hpower]
    · have hread : signedPower B p (c :: tail) = power B p (c :: tail) := by
        rw [signedPower, if_neg hc]
      have hstops : Stops (· == '-') (c :: tail) := by simpa using hc
      constructor
      · rintro ⟨h, hs⟩
        exact .inl ⟨hstops, h, hread ▸ hs⟩
      · rintro (⟨-, h, hs⟩ | ⟨s', e', hs, -⟩)
        · exact ⟨h, hread ▸ hs⟩
        · exact absurd (List.cons.inj hs).1 hc

/-- An operand reads as a power with a sign whose own operands may nest one less deeply. -/
theorem operand_succ (n : Nat) : operand B (n + 1) = signedPower B (operand B n) := rfl

theorem not_operand_zero : ¬ (operand B 0).Yields s e r := by
  rintro ⟨h, hs⟩
  contradiction

/-! ## Primaries -/

theorem named?_eq_some_iff {name : String} : named? B name = some e ↔ Symbol B name e := by
  constructor
  · intro h
    unfold named? at h
    split at h
    all_goals first | contradiction | obtain ⟨⟩ := h
    · exact .x
    · exact .t
    · exact .pi
    · exact .capitalPi
    · exact .e
    · exact .capitalE
  · intro h
    cases h <;> rfl

theorem numeral_yields {s r : List Char} (h : (numeral B).Yields s e r) :
    ∃ a, Number s a r ∧ e = B.constant a := by
  obtain ⟨hlt, hs⟩ := h
  unfold numeral at hs
  split at hs
  · rename_i hdigit
    obtain ⟨a, hread, hnumber⟩ := number_of_scan (α := α) hdigit
    rw [hread] at hs
    obtain ⟨⟩ := hs
    exact ⟨a, hnumber, rfl⟩
  · split at hs <;> contradiction

theorem numeral_yields_of_number {a : α} (h : Number s a r) (hr : Stops isNumeralPart r) :
    (numeral B).Yields s (B.constant a) r := by
  obtain ⟨hdigit, hread, rfl⟩ := read?_of_number h hr
  refine ⟨Numeral.length_scan_lt hdigit, ?_⟩
  unfold numeral
  rw [dif_pos hdigit, hread]

theorem nameOrCall_yields_iff {c : Char} {tail : List Char} :
    (∃ h, nameOrCall B p c tail = .ok ⟨e, r, h⟩) ↔
      ∃ name rest, name = String.ofList (c :: tail.takeWhile isNamePart) ∧
        rest = tail.dropWhile isNamePart ∧
        ((∃ inside, rest = '(' :: inside ∧ (call B p name).Yields inside e r) ∨
          r = rest ∧ Stops (· == '(') rest ∧ Symbol B name e) := by
  constructor
  · rintro ⟨h, hs⟩
    refine ⟨_, _, rfl, rfl, ?_⟩
    unfold nameOrCall at hs
    dsimp only at hs
    split at hs
    · rename_i inside hrest
      split at hs
      · contradiction
      · rename_i parsed hparsed
        obtain ⟨⟩ := hs
        exact .inl ⟨inside, hrest, yields_of_eq_ok hparsed⟩
    · rename_i hrest
      split at hs
      · rename_i value hvalue
        obtain ⟨⟩ := hs
        exact .inr ⟨rfl, stops_char_iff.mpr hrest, named?_eq_some_iff.mp hvalue⟩
      · contradiction
  · rintro ⟨name, rest, rfl, hrest, ⟨inside, rfl, h, hcall⟩ | ⟨rfl, hstops, hsymbol⟩⟩
    all_goals
      have hle : (tail.dropWhile isNamePart).length ≤ tail.length :=
        (List.dropWhile_sublist _).length_le
      rw [← hrest] at hle
    · simp only [List.length_cons] at hle
      refine ⟨by simp only [List.length_cons]; omega, ?_⟩
      unfold nameOrCall
      dsimp only
      split
      · rename_i inside' hrest'
        obtain ⟨-, rfl⟩ := List.cons.inj (hrest.trans hrest')
        simp only [hcall]
      · rename_i hne
        exact absurd hrest.symm (hne inside)
    · refine ⟨by simp only [List.length_cons]; omega, ?_⟩
      unfold nameOrCall
      dsimp only
      split
      · rename_i inside hrest'
        exact absurd (hrest.trans hrest') (stops_char_iff.mp hstops inside)
      · simp only [named?_eq_some_iff.mpr hsymbol, hrest]

theorem primary_parenthesis_yields_iff :
    (primary B p).Yields ('(' :: s) e r ↔ p.Yields s e (')' :: r) := by
  constructor
  · rintro ⟨h, hs⟩
    rw [primary, if_pos rfl] at hs
    split at hs
    · contradiction
    · rename_i inner hinner
      split at hs
      · contradiction
      · rename_i rest hrest hexpect
        obtain ⟨⟩ := hs
        rw [← expect_eq_ok_iff.mp hexpect]
        exact yields_of_eq_ok hinner
  · rintro ⟨h, hinner⟩
    have hlt : r.length < (')' :: r).length := Nat.lt_succ_self _
    have hexpect : expect ')' .unclosed (')' :: r) = .ok ⟨r, hlt⟩ := expect_eq_ok_iff.mpr rfl
    refine ⟨by simp only [List.length_cons]; omega, ?_⟩
    rw [primary, if_pos rfl]
    simp only [hinner, hexpect]

theorem parenthesis_not_letter : Text.isLetter '(' = false := by decide

theorem primary_letter_yields_iff {c : Char} (hc : Text.isLetter c) :
    (primary B p).Yields (c :: s) e r ↔
      (∃ name, Name (c :: s) name r ∧ Stops (· == '(') r ∧ Symbol B name e) ∨
        ∃ name s', Name (c :: s) name ('(' :: s') ∧ (call B p name).Yields s' e r := by
  have hne : c ≠ '(' := by
    rintro rfl
    rw [parenthesis_not_letter] at hc
    contradiction
  have hread : primary B p (c :: s) = nameOrCall B p c s := by
    rw [primary, if_neg hne, if_pos hc]
  rw [Yields, hread, nameOrCall_yields_iff]
  constructor
  · rintro ⟨name, rest, hname, hrest, ⟨inside, rfl, hcall⟩ | ⟨rfl, hstops, hsymbol⟩⟩
    · exact .inr ⟨name, inside, name_iff.mpr ⟨c, s, rfl, hc, hname, hrest⟩, hcall⟩
    · exact .inl ⟨name, name_iff.mpr ⟨c, s, rfl, hc, hname, hrest⟩, hstops, hsymbol⟩
  · rintro (⟨name, hname, hstops, hsymbol⟩ | ⟨name, inside, hname, hcall⟩)
    all_goals
      obtain ⟨_, _, hs, -, hname, hrest⟩ := name_iff.mp hname
      obtain ⟨rfl, rfl⟩ := List.cons.inj hs
    · exact ⟨name, _, hname, hrest, .inr ⟨rfl, hstops, hsymbol⟩⟩
    · exact ⟨name, _, hname, hrest, .inl ⟨inside, rfl, hcall⟩⟩

theorem primary_eq_numeral (hs : Stops (fun c => c == '(' || Text.isLetter c) s) :
    primary B p s = numeral B s := by
  cases s with
  | nil => rfl
  | cons c s =>
    obtain ⟨hne, hc⟩ := Bool.or_eq_false_iff.mp (stops_cons.mp hs)
    rw [primary, if_neg (by simpa using hne), if_neg (by simp [hc])]

end Operands

end RollingBall.Parser
