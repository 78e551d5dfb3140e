import RollingBall.Binary64
import RollingBall.Proofs.Reading.Lossless
import RollingBall.Proofs.Reading.Refusals
import RollingBall.Proofs.Scanning.Phrases

/-!
# Scans end, within bounds and with nothing lost

A scan of a formula, an operand or a condition ends, wherever in the text it begins
(`scans_end_inside`). It ends in the text, as many operands deep as it began, and behind where it
began if it succeeds; and on the way its cursor stays in the text and its counter within the limit
on nesting. So neither a loop that takes nothing nor a numeral that is given back can keep it going.

What the stacks are asked for they have (`stacks_never_lack`): an operator that is joined finds two
operands, a chain leaves one operand, and digits are a number. So two of the errors never come up,
and what is made of a chain is made of all of it.

## Main definitions

* `Scanner.Ends`: what a scan comes to, given enough calls.
* `Scanner.EndsInside`: a scan comes to what a reader makes of the text, within bounds.
* `Scan.Supplied`: whatever was joined was there.
-/

namespace RollingBall

open Grammar

variable {α ρ : Type} {text : List Char}

namespace Scanner

/-- However many calls are allowed, from some number on the scan ends, with this value or error and
this state. -/
def Ends (m : Nat → Scanner ρ) (scan : Scan) (out : Except SyntaxError ρ) (last : Scan) : Prop :=
  ∃ bound, ∀ n, bound ≤ n → m n scan = some (out, last)

/-- The scan ends with what the reader makes of the text behind the cursor, and where that ends. It
ends in the text, further on if it succeeds, within as many operands as before; and all that it did
was within bounds. -/
structure EndsInside (text : List Char) (m : Nat → Scanner ρ) (p : Parser ρ) (scan : Scan)
    (out : Except SyntaxError ρ) (last : Scan) : Prop where
  ends : Ends m scan out last
  outcome_eq : p.outcome (text.drop scan.position) =
    out.map fun value => (value, text.drop last.position)
  rest_eq : ∀ e, out = .error e → e.rest = text.drop last.position
  depth_eq : last.depth = scan.depth
  position_le : scan.position ≤ last.position
  position_le_length : last.position ≤ text.length
  position_lt : ∀ value, out = .ok value → scan.position < last.position
  grows : scan.Grows text last

theorem Follows.endsInside {m : Nat → Scanner ρ} {p : Parser ρ} {scan : Scan}
    (h : Follows text scan.depth m p.outcome) (hin : scan.Inside text) :
    ∃ out last, EndsInside text m p scan out last := by
  have hrun := h scan hin rfl
  generalize hread : p.outcome (scan.unread text) = read at hrun
  cases hrun with
  | @value v last rest hreach hrest hends =>
    subst hrest
    exact ⟨.ok v, last, hends, hread, fun _ he => (nomatch he), hreach.depth_eq,
      hreach.position_le, hreach.position_le_length,
      fun _ _ => Scan.position_lt_of_unread (Parser.outcome_shorter hread), hreach.grows⟩
  | @error e last hreach hrest hends =>
    exact ⟨.error e, last, hends, hread, fun _ he => Except.error.inj he ▸ hrest.symm,
      hreach.depth_eq, hreach.position_le, hreach.position_le_length,
      fun _ hvalue => (nomatch hvalue), hreach.grows⟩

end Scanner

section Scans

variable [Scalar α] (B : Builder α ρ)

/-- **Scans end.** Wherever the cursor is in a text, within no more operands than may lie within one
another, a scan of a formula, of an operand and of a condition ends, with what the readers that run
make of the text behind the cursor. The cursor ends in the text and not before where it began, but
behind it if the scan succeeds, and the counter of operands ends where it began, after errors as
well. All the while the cursor is in the text, the counter is within the limit on nesting, and what
is copied is in the text. -/
theorem scans_end_inside (text : List Char) (scan : Scan) (hposition : scan.position ≤ text.length)
    (hdepth : scan.depth ≤ maxNesting) :
    (∃ out last, Scanner.EndsInside text (Scanner.expression text B)
      (Parser.expression B (Parser.operand B (maxNesting - scan.depth))) scan out last) ∧
    (∃ out last, Scanner.EndsInside text (Scanner.operand text B)
      (Parser.operand B (maxNesting - scan.depth)) scan out last) ∧
    ∃ out last, Scanner.EndsInside text (Scanner.condition text B)
      (Parser.comparisons (Parser.expression B (Parser.operand B (maxNesting - scan.depth)))) scan
      out last := by
  have hin : scan.Inside text := ⟨hposition, hdepth⟩
  have hoperand : Scanner.Follows text scan.depth (Scanner.operand text B)
      (Parser.operand B (maxNesting - scan.depth)).outcome :=
    Scanner.follows_operand _ (by omega)
  have hexpression := Scanner.Follows.expression hoperand
  exact ⟨hexpression.endsInside hin, hoperand.endsInside hin,
    (Scanner.Follows.condition hexpression).endsInside hin⟩

/-- Behind the `2` of `2)^(-x` stands no operand, and 255 operands deep the scan of one ends at
once, where it began. -/
theorem scans_end_inside_unopened :
    ∃ out last, Scanner.EndsInside "2)^(-x".toList
      (Scanner.operand "2)^(-x".toList (Builder.folding (α := Float)))
      (Parser.operand (Builder.folding (α := Float)) 1) ⟨1, 255, []⟩ out last ∧
      last.position = 1 := by
  obtain ⟨out, last, hends⟩ := (scans_end_inside (Builder.folding (α := Float)) "2)^(-x".toList
    ⟨1, 255, []⟩ (by decide) (by decide)).2.1
  refine ⟨out, last, hends, ?_⟩
  have hrefused : (Parser.operand (Builder.folding (α := Float)) 1).outcome ")^(-x".toList =
      .error ⟨.notAnOperand, ")^(-x".toList⟩ := rfl
  cases out with
  | ok value => exact nomatch hrefused.symm.trans hends.outcome_eq
  | error e =>
    obtain rfl := Except.error.inj (hrefused.symm.trans hends.outcome_eq)
    have hlength := congrArg List.length (hends.rest_eq _ rfl)
    have hinside := hends.position_le_length
    simp at hlength hinside
    omega

/-! ## What the stacks are asked for -/

/-- Whatever was joined, two operands and an operator waited, and every chain left one operand. -/
structure Scan.Supplied (last : Scan) : Prop where
  merge {operands operators : Nat} :
    Event.merge operands operators ∈ last.log → 2 ≤ operands ∧ 1 ≤ operators
  finish {operands : Nat} : Event.finish operands ∈ last.log → operands = 1

theorem Scan.Grows.supplied {position depth : Nat} {last : Scan}
    (h : Scan.Grows text ⟨position, depth, []⟩ last) : last.Supplied := by
  obtain ⟨done, hdone, hsound⟩ := h
  rw [List.append_nil] at hdone
  rw [← hdone] at hsound
  exact ⟨hsound (.merge _ _), hsound (.finish _)⟩

/-- The causes that come up have other messages than the two that do not. -/
theorem SyntaxError.message_ne {e : SyntaxError}
    (h : e.cause.WhileReading ∨ e.cause = .trailing) :
    e.message ≠ "Empty expression" ∧
      ∀ numeral : String, e.message ≠ "Invalid number '" ++ numeral ++ "'" := by
  obtain ⟨cause, rest⟩ := e
  refine ⟨fun hmessage => ?_, fun numeral hmessage => ?_⟩
  all_goals
    have hchars := congrArg String.toList hmessage
    cases cause with
    | badNumeral | emptyExpression => exact h.elim id (fun hcause => nomatch hcause)
    | _ => simp [message] at hchars

/-- **The stacks never lack what is taken off them.** A scan of a whole text, as a formula and as a
condition, ends with what the reader that runs makes of it. Whenever it joins the topmost operands,
an operator and at least two operands wait, and at the end of a chain one operand is left. No text
is refused as an empty expression or for an invalid number. And what is read of a chain is made of
all its operands and operators, in their order. -/
theorem stacks_never_lack (text : List Char) :
    (∃ out last, Scanner.EndsInside text (Scanner.expression text B) (Parser.formula B) ⟨0, 0, []⟩
      out last ∧ last.Supplied) ∧
    (∃ out last, Scanner.EndsInside text (Scanner.condition text B)
      (Parser.comparisons (Parser.formula B)) ⟨0, 0, []⟩ out last ∧ last.Supplied) ∧
    (∀ e, Formula.parse (α := α) text = .error e ∨ Condition.parse (α := α) text = .error e →
      e.message ≠ "Empty expression" ∧
        ∀ numeral : String, e.message ≠ "Invalid number '" ++ numeral ++ "'") ∧
    ∀ (p : Parser ρ) (s r : List Char) (value : ρ), (Parser.expression B p).Yields s value r →
      ∃ c, (Parser.chain p).Yields s c r ∧ c.MakesUp B.binary value := by
  obtain ⟨⟨out, last, hformula⟩, -, out', last', hcondition⟩ :=
    scans_end_inside B text ⟨0, 0, []⟩ (Nat.zero_le _) (Nat.zero_le _)
  refine ⟨⟨out, last, hformula, hformula.grows.supplied⟩,
    ⟨out', last', hcondition, hcondition.grows.supplied⟩, fun e he => ?_,
    fun p s r value => Parser.makesUp_of_expression⟩
  have hreads : (Parser.formula (Builder.folding (α := α))).RefusesInside :=
    Parser.refusesInside_formula
  rcases he with he | he
  · exact SyntaxError.message_ne (Parser.whole_cause hreads he)
  · exact SyntaxError.message_ne
      (Parser.whole_cause (hreads.comparisons Parser.stable_formula)
        (Condition.parseWith_eq_error he))

/-- An unfinished sum is refused, but not as an empty expression. -/
theorem stacks_never_lack_unfinished :
    match Formula.parse (α := Float) "1+".toList with
    | .error e => e.message ≠ "Empty expression"
    | .ok _ => False := by
  have hmessage : (match Formula.parse (α := Float) "1+".toList with
      | .error e => e.message
      | .ok _ => "") = "Expression cannot end with an operator or '('" := by decide +kernel
  split
  · rename_i e herror
    exact ((stacks_never_lack Builder.folding _).2.2.1 e (.inl herror)).1
  · rename_i value hvalue
    rw [hvalue] at hmessage
    simp at hmessage

end Scans

end RollingBall
