import RollingBall.Binary64
import RollingBall.Proofs.Reading.Cuts
import RollingBall.Proofs.Reading.Merging

/-!
# Why and where texts are refused

A reader that refuses a text says why and shows what it had not read yet, which is the end of the
text (`SyntaxError.RefusedIn`). Some causes never come up: a chain that is read can be joined, and
digits that are cut off a text are a number. That something follows a formula is found out after
reading. Then what was read is the longest beginning of the text that is accepted
(`trailing_after_longest`), for a reader takes the same of every beginning that goes on behind what
it takes (`Parser.Stable`).

## Main definitions

* `SyntaxError.Cause.WhileReading`: the causes for which readers refuse.
* `Parser.RefusesInside`: a reader refuses texts for such causes at places in them.
* `LongestAccepted`: a beginning of a text is accepted and no longer one is.
-/

namespace RollingBall

open Grammar

variable {α ρ σ : Type}

namespace SyntaxError

/-- The cause is found while a formula or a condition is read. -/
def Cause.WhileReading : Cause → Prop
  | badNumeral _ | emptyExpression | trailing => False
  | _ => True

/-- The text was refused while it was read, and its end is what was not read yet. -/
structure RefusedIn (e : SyntaxError) (s : List Char) : Prop where
  rest_suffix : e.rest <:+ s
  cause : e.cause.WhileReading

theorem RefusedIn.of_suffix {e : SyntaxError} {s s' : List Char} (h : e.RefusedIn s')
    (hs : s' <:+ s) : e.RefusedIn s := ⟨h.rest_suffix.trans hs, h.cause⟩

theorem refusedIn_self {cause : Cause} {s : List Char} (h : cause.WhileReading) :
    RefusedIn ⟨cause, s⟩ s := ⟨List.suffix_rfl, h⟩

end SyntaxError

namespace Parser

/-- Whatever the reader refuses, it refuses while reading, at a place in the text. -/
structure RefusesInside (p : Parser ρ) : Prop where
  refusedIn {s : List Char} {e : SyntaxError} : p s = .error e → e.RefusedIn s

theorem expect_refusedIn {c : Char} {cause : SyntaxError.Cause} {s : List Char} {e : SyntaxError}
    (h : expect c cause s = .error e) (hcause : cause.WhileReading) : e.RefusedIn s := by
  unfold expect at h
  split at h
  · split at h
    · contradiction
    · obtain ⟨⟩ := h
      exact SyntaxError.refusedIn_self hcause
  · obtain ⟨⟩ := h
    exact SyntaxError.refusedIn_self hcause

section Readers

variable {B : Builder α ρ} {p : Parser ρ} (hstable : p.Stable) (hp : p.RefusesInside)

include hstable hp

/-! ## Chains -/

theorem links_refusedIn {separator? : (s : List Char) → Option (σ × Rest s)}
    (hseparator : StableSeparator separator?) {s : List Char} {e : SyntaxError}
    (h : links separator? p s = .error e) : e.RefusedIn s := by
  induction hlen : s.length using Nat.strongRecOn generalizing s with
  | ind n ih =>
    subst hlen
    rw [links] at h
    split at h
    · contradiction
    · rename_i separator afterSeparator hle hfound
      have hsuffix : afterSeparator <:+ s := (hseparator.some hfound).suffix
      split at h
      · rename_i hrefused
        obtain ⟨⟩ := h
        exact (hp.refusedIn hrefused).of_suffix hsuffix
      · rename_i next hnext
        have hrest := (hstable.cut (yields_of_eq_ok hnext)).suffix
        have hshorter := next.shorter
        dsimp only at h
        split at h
        · rename_i hrefused
          obtain ⟨⟩ := h
          exact (ih _ (by omega) hrefused rfl).of_suffix (hrest.trans hsuffix)
        · contradiction

theorem RefusesInside.chain : (chain p).RefusesInside := by
  refine ⟨fun {s e} h => ?_⟩
  unfold Parser.chain at h
  split at h
  · rename_i hrefused
    obtain ⟨⟩ := h
    exact hp.refusedIn hrefused
  · rename_i first hfirst
    split at h
    · rename_i hrefused
      obtain ⟨⟩ := h
      exact (links_refusedIn hstable hp stable_operator hrefused).of_suffix
        (hstable.cut (yields_of_eq_ok hfirst)).suffix
    · contradiction

/-- A chain that is read is joined, so no expression is empty. -/
theorem RefusesInside.expression : (expression B p).RefusesInside := by
  refine ⟨fun {s e} h => ?_⟩
  rw [expression_eq] at h
  cases hchain : Parser.chain p s with
  | error e' =>
    rw [hchain] at h
    obtain ⟨⟩ := h
    exact (RefusesInside.chain hstable hp).refusedIn hchain
  | ok parsed =>
    rw [hchain] at h
    contradiction

theorem RefusesInside.comparisons : (comparisons p).RefusesInside := by
  refine ⟨fun {s e} h => ?_⟩
  unfold Parser.comparisons at h
  split at h
  · rename_i hrefused
    obtain ⟨⟩ := h
    exact hp.refusedIn hrefused
  · rename_i first hfirst
    have hrest := (hstable.cut (yields_of_eq_ok hfirst)).suffix
    split at h
    · rename_i hrefused
      obtain ⟨⟩ := h
      exact (links_refusedIn hstable hp stable_relation hrefused).of_suffix hrest
    · rename_i rest hle hnone
      obtain ⟨⟩ := h
      exact ⟨((cut_links stable_relation hstable ⟨hle, hnone⟩).suffix).trans hrest, trivial⟩
    · contradiction

/-! ## Calls -/

theorem moreArguments_refusedIn {k : Nat} {s : List Char} {e : SyntaxError}
    (h : moreArguments p k s = .error e) : e.RefusedIn s := by
  induction k generalizing s with
  | zero => contradiction
  | succ k ih =>
    rw [moreArguments] at h
    split at h
    · rename_i hrefused
      obtain ⟨⟩ := h
      exact expect_refusedIn hrefused trivial
    · rename_i afterComma hlt hcomma
      have hsuffix : afterComma <:+ s := by
        rw [expect_eq_ok_iff.mp hcomma]
        exact List.suffix_cons _ _
      split at h
      · rename_i hrefused
        obtain ⟨⟩ := h
        exact (hp.refusedIn hrefused).of_suffix hsuffix
      · rename_i arg harg
        have hrest := (hstable.cut (yields_of_eq_ok harg)).suffix
        split at h
        · rename_i hrefused
          obtain ⟨⟩ := h
          exact (ih hrefused).of_suffix (hrest.trans hsuffix)
        · contradiction

theorem RefusesInside.call (name : String) : (call B p name).RefusesInside := by
  refine ⟨fun {s e} h => ?_⟩
  unfold Parser.call at h
  split at h
  · obtain ⟨⟩ := h
    exact SyntaxError.refusedIn_self trivial
  · split at h
    · rename_i hrefused
      obtain ⟨⟩ := h
      exact hp.refusedIn hrefused
    · rename_i first hfirst
      have hrest := (hstable.cut (yields_of_eq_ok hfirst)).suffix
      split at h
      · rename_i hrefused
        obtain ⟨⟩ := h
        exact (moreArguments_refusedIn hstable hp hrefused).of_suffix hrest
      · rename_i args afterArgs hle hmore
        split at h
        · rename_i hrefused
          obtain ⟨⟩ := h
          have hargs := (cut_moreArguments hstable ⟨hle, hmore⟩).suffix
          exact (expect_refusedIn hrefused trivial).of_suffix (hargs.trans hrest)
        · contradiction

/-! ## Operands -/

variable [Scalar α]

omit hstable hp in
/-- Digits that are cut off a text are a number. -/
theorem refusesInside_numeral : (numeral B).RefusesInside := by
  refine ⟨fun {s e} h => ?_⟩
  unfold numeral at h
  split at h
  · rename_i hdigit
    obtain ⟨a, hread, -⟩ := number_of_scan (α := α) hdigit
    rw [hread] at h
    contradiction
  · split at h
    all_goals
      obtain ⟨⟩ := h
      exact SyntaxError.refusedIn_self trivial

theorem nameOrCall_refusedIn {c : Char} {tail : List Char} {e : SyntaxError}
    (h : nameOrCall B p c tail = .error e) : e.RefusedIn (c :: tail) := by
  have hsuffix : tail.dropWhile isNamePart <:+ c :: tail :=
    (List.dropWhile_suffix isNamePart).trans (List.suffix_cons c tail)
  unfold nameOrCall at h
  dsimp only at h
  split at h
  · rename_i inside hrest
    split at h
    · rename_i hrefused
      obtain ⟨⟩ := h
      refine ((RefusesInside.call hstable hp _).refusedIn hrefused).of_suffix ?_
      rw [hrest] at hsuffix
      exact (List.suffix_cons _ _).trans hsuffix
    · contradiction
  · split at h
    · contradiction
    · obtain ⟨⟩ := h
      exact ⟨hsuffix, trivial⟩

theorem RefusesInside.primary : (primary B p).RefusesInside := by
  refine ⟨fun {s e} h => ?_⟩
  unfold Parser.primary at h
  split at h
  · exact refusesInside_numeral.refusedIn h
  · rename_i c tail
    split at h
    · have hsuffix : tail <:+ c :: tail := List.suffix_cons c tail
      split at h
      · rename_i hrefused
        obtain ⟨⟩ := h
        exact (hp.refusedIn hrefused).of_suffix hsuffix
      · rename_i inner hinner
        have hrest := (hstable.cut (yields_of_eq_ok hinner)).suffix
        split at h
        · rename_i hrefused
          obtain ⟨⟩ := h
          exact (expect_refusedIn hrefused trivial).of_suffix (hrest.trans hsuffix)
        · contradiction
    · split at h
      · exact nameOrCall_refusedIn hstable hp h
      · exact refusesInside_numeral.refusedIn h

theorem RefusesInside.power : (power B p).RefusesInside := by
  refine ⟨fun {s e} h => ?_⟩
  unfold Parser.power at h
  split at h
  · rename_i hrefused
    obtain ⟨⟩ := h
    exact ((RefusesInside.expression hstable hp).primary hstable.expression).refusedIn hrefused
  · rename_i base hbase
    have hrest := (hstable.expression.primary.cut (yields_of_eq_ok hbase)).suffix
    split at h
    · rename_i afterCaret hcaret
      split at h
      · rename_i hrefused
        obtain ⟨⟩ := h
        rw [hcaret] at hrest
        exact (hp.refusedIn hrefused).of_suffix ((List.suffix_cons _ _).trans hrest)
      · contradiction
    · contradiction

theorem RefusesInside.signedPower : (signedPower B p).RefusesInside := by
  have hpower := RefusesInside.power (B := B) hstable hp
  refine ⟨fun {s e} h => ?_⟩
  unfold Parser.signedPower at h
  split at h
  · exact hpower.refusedIn h
  · split at h
    · split at h
      · rename_i hrefused
        obtain ⟨⟩ := h
        exact (hpower.refusedIn hrefused).of_suffix (List.suffix_cons _ _)
      · contradiction
    · exact hpower.refusedIn h

omit hstable hp in
theorem refusesInside_operand (n : Nat) : (operand B n).RefusesInside := by
  induction n with
  | zero =>
    refine ⟨fun {s e} h => ?_⟩
    obtain ⟨⟩ := h
    exact SyntaxError.refusedIn_self trivial
  | succ n ih => exact ih.signedPower (stable_operand n)

omit hstable hp in
theorem refusesInside_formula : (formula B).RefusesInside :=
  (refusesInside_operand maxNesting).expression (stable_operand maxNesting)

end Readers

/-! ## Whole texts -/

/-- A whole text is refused while it is read or for what is left after reading. -/
theorem whole_eq_error_iff {p : Parser ρ} {s : List Char} {e : SyntaxError} :
    whole p s = .error e ↔ s ≠ [] ∧ p s = .error e ∨
      ∃ v r, p.Yields s v r ∧ r ≠ [] ∧ e = ⟨.trailing, r⟩ := by
  unfold whole
  constructor
  · intro h
    split at h
    · contradiction
    · rename_i hne
      rw [List.isEmpty_iff] at hne
      split at h
      · rename_i hrefused
        obtain ⟨⟩ := h
        exact .inl ⟨hne, hrefused⟩
      · rename_i parsed hparsed
        split at h
        · contradiction
        · rename_i hrest
          obtain ⟨⟩ := h
          rw [List.isEmpty_iff] at hrest
          exact .inr ⟨_, _, yields_of_eq_ok hparsed, hrest, rfl⟩
  · rintro (⟨hne, hrefused⟩ | ⟨v, r, hyields, hrest, rfl⟩)
    · rw [if_neg (by rwa [List.isEmpty_iff]), hrefused]
    · have hne : s ≠ [] := List.ne_nil_of_length_pos (Nat.zero_lt_of_lt hyields.shorter)
      obtain ⟨hlt, hparsed⟩ := hyields
      rw [if_neg (by rwa [List.isEmpty_iff]), hparsed]
      exact if_neg (by rwa [List.isEmpty_iff])

theorem whole_cause {p : Parser ρ} (hp : p.RefusesInside) {s : List Char} {e : SyntaxError}
    (h : whole p s = .error e) : e.cause.WhileReading ∨ e.cause = .trailing := by
  rcases whole_eq_error_iff.mp h with ⟨-, hrefused⟩ | ⟨v, r, -, -, rfl⟩
  · exact .inl (hp.refusedIn hrefused).cause
  · exact .inr rfl

end Parser

theorem Condition.parseWith_eq_error [Scalar α] {s : List Char} {e : SyntaxError}
    (h : Condition.parse (α := α) s = .error e) :
    Condition.parseWith (α := α) .folding s = .error e := by
  unfold Condition.parse at h
  cases hread : Condition.parseWith (α := α) .folding s with
  | error e' =>
    rw [hread] at h
    obtain ⟨⟩ := h
    rfl
  | ok v =>
    rw [hread] at h
    contradiction

/-! ## The longest beginning that is accepted -/

/-- The text begins with `p`, which is accepted, and nothing longer that it begins with is. -/
structure LongestAccepted (read : List Char → Except SyntaxError (Option ρ)) (s p : List Char) :
    Prop where
  begins : p <+: s
  accepted : ∃ v, read p = .ok (some v)
  longest : ∀ q, q <+: s → p.length < q.length → ∀ v, read q ≠ .ok v

theorem LongestAccepted.map {read : List Char → Except SyntaxError (Option ρ)} {s p : List Char}
    (h : LongestAccepted read s p) (f : ρ → σ) :
    LongestAccepted (fun q => (read q).map (Option.map f)) s p where
  begins := h.begins
  accepted := by
    obtain ⟨v, hv⟩ := h.accepted
    exact ⟨f v, by rw [hv]; rfl⟩
  longest q hq hlt v hv := by
    cases hread : read q with
    | error e => simp [hread, Except.map] at hv
    | ok v => exact h.longest q hq hlt v hread

/-- What follows what is read does not belong to any text that is accepted. -/
theorem Parser.longestAccepted {p : Parser ρ} (hstable : p.Stable) {s r : List Char} {v : ρ}
    (h : p.Yields s v r) : ∃ text, s = text ++ r ∧ LongestAccepted (whole p) s text := by
  obtain ⟨text, rfl, hcut⟩ := hstable.cut h
  refine ⟨text, rfl, List.prefix_append text r, ⟨v, ?_⟩, fun q hq hlt v' hread => ?_⟩
  · have hall := hcut [] List.nil_prefix
    rw [List.append_nil] at hall
    exact whole_eq_some_iff.mpr hall
  · obtain ⟨t, rfl⟩ := List.prefix_of_prefix_length_le (List.prefix_append text r) hq
      (Nat.le_of_lt hlt)
    have ht : t ≠ [] := by
      rintro rfl
      simp at hlt
    have hleft := hcut t ((List.prefix_append_right_inj text).mp hq)
    rw [whole_eq_error_iff.mpr (.inr ⟨v, t, hleft, ht, rfl⟩)] at hread
    contradiction

theorem Parser.trailing_of_whole {p : Parser ρ} (hstable : p.Stable) (hp : p.RefusesInside)
    {s : List Char} {e : SyntaxError} (h : whole p s = .error e) (hcause : e.cause = .trailing) :
    e.rest ≠ [] ∧ ∃ text, s = text ++ e.rest ∧ LongestAccepted (whole p) s text := by
  rcases whole_eq_error_iff.mp h with ⟨-, hrefused⟩ | ⟨v, r, hyields, hne, rfl⟩
  · have hwhile := (hp.refusedIn hrefused).cause
    rw [hcause] at hwhile
    exact absurd hwhile id
  · exact ⟨hne, longestAccepted hstable hyields⟩

theorem SyntaxError.trailing_of_message {e : SyntaxError} {r : List Char}
    (h : e.message = "Trailing content: '" ++ String.ofList r ++ "'") :
    e.cause = .trailing ∧ e.rest = r := by
  obtain ⟨cause, rest⟩ := e
  have hchars := congrArg String.toList h
  cases cause with
  | trailing =>
    simp [message] at hchars
    exact ⟨rfl, hchars⟩
  | _ => simp [message] at hchars

/-- **Trailing content.** If the message about a formula or a condition says that `r` follows, then
the text ends with `r`, which is not empty, and what is before `r` is the longest beginning of the
text that is a formula, or a condition. -/
theorem trailing_after_longest [Scalar α] (s r : List Char) :
    (∀ e, Formula.parse (α := α) s = .error e →
      e.message = "Trailing content: '" ++ String.ofList r ++ "'" →
      r ≠ [] ∧ ∃ p, s = p ++ r ∧ LongestAccepted (Formula.parse (α := α)) s p) ∧
    ∀ e, Condition.parse (α := α) s = .error e →
      e.message = "Trailing content: '" ++ String.ofList r ++ "'" →
      r ≠ [] ∧ ∃ p, s = p ++ r ∧ LongestAccepted (Condition.parse (α := α)) s p := by
  constructor
  · intro e h hmessage
    obtain ⟨hcause, rfl⟩ := SyntaxError.trailing_of_message hmessage
    exact Parser.trailing_of_whole Parser.stable_formula Parser.refusesInside_formula h hcause
  · intro e h hmessage
    obtain ⟨hcause, rfl⟩ := SyntaxError.trailing_of_message hmessage
    have hread := Condition.parseWith_eq_error h
    obtain ⟨hne, p, hs, hlongest⟩ := Parser.trailing_of_whole
      Parser.stable_formula.comparisons
      (Parser.refusesInside_formula.comparisons Parser.stable_formula) hread hcause
    exact ⟨hne, p, hs, hlongest.map Condition.ofChain⟩

/-- After `(3+5)` the digit does not belong to a formula, and after `x<1` the lone `=` begins no
relation. -/
theorem trailing_after_longest_sum_and_relation :
    LongestAccepted (Formula.parse (α := Float)) "(3+5)2".toList "(3+5)".toList ∧
      LongestAccepted (Condition.parse (α := Float)) "x<1=2".toList "x<1".toList := by
  have hsum : (match Formula.parse (α := Float) "(3+5)2".toList with
      | .error e => e.message
      | .ok _ => "") = "Trailing content: '2'" := by decide +kernel
  have hrelation : (match Condition.parse (α := Float) "x<1=2".toList with
      | .error e => e.message
      | .ok _ => "") = "Trailing content: '=2'" := by decide +kernel
  constructor
  · split at hsum
    · rename_i e herror
      obtain ⟨-, p, hp, hlongest⟩ := (trailing_after_longest _ ['2']).1 e herror hsum
      rwa [List.append_cancel_right (hp.symm.trans rfl : p ++ ['2'] = "(3+5)".toList ++ ['2'])]
        at hlongest
    · contradiction
  · split at hrelation
    · rename_i e herror
      obtain ⟨-, p, hp, hlongest⟩ := (trailing_after_longest _ ['=', '2']).2 e herror hrelation
      rwa [List.append_cancel_right
        (hp.symm.trans rfl : p ++ ['=', '2'] = "x<1".toList ++ ['=', '2'])] at hlongest
    · contradiction

end RollingBall
