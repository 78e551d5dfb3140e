import RollingBall.Proofs.Scanning.Runs

/-!
# Scanners of phrases

Every scanner follows its reader (`Scanner.Follows`). For the routines that call no operand this is
so step by step. The others follow their readers if operands do, within one operand more, and that
is an induction on how many more operands may lie within the cursor's (`Scanner.follows_operand`).
A chain is scanned in turns, each of which takes an operand off what is left; before each of them
its stacks are in order, so there always are the operands that are joined.
-/

namespace RollingBall.Scanner

open Grammar
open RollingBall.Parser

variable {α ρ : Type} {text : List Char} {d : Nat}

/-! ## Stacks -/

section Stacks

variable {join : BinaryOp → ρ → ρ → ρ}

theorem Follows.mergeTop {s : Stacks ρ} (h : s.InOrder) (hne : s.operators ≠ []) :
    Follows text d (fun _ => mergeTop join s) (Pure.pure (s.mergeTop join)) := by
  intro scan hin _
  have hlength := h.length_operands
  have hpos := List.length_pos_iff.mpr hne
  have hevent : (Event.merge s.operands.length s.operators.length).Sound text :=
    ⟨by omega, by omega⟩
  exact .value (hin.reaches_noted hevent) rfl ⟨0, fun _ _ => rfl⟩

theorem Follows.makeRoom {s : Stacks ρ} (h : s.InOrder) (op : BinaryOp) :
    Follows text d (fun n => makeRoom join op n s) (Pure.pure (s.makeRoom join op)) := by
  obtain ⟨operands, operators⟩ := s
  induction operators generalizing operands with
  | nil =>
    rw [Stacks.makeRoom_nil]
    exact .of_succ (.pure _)
  | cons top operators ih =>
    refine .of_succ ?_
    rw [Stacks.makeRoom_cons]
    simp only [Scanner.makeRoom]
    split
    · refine (Follows.mergeTop h (List.cons_ne_nil _ _)).bind_pure ?_
      obtain ⟨rhs, lhs, rest, rfl⟩ := h.exists_operands
      exact ih _ (h.mergeTop (List.cons_ne_nil _ _))
    · exact .pure _

theorem Follows.mergeAll {s : Stacks ρ} (h : s.InOrder) :
    Follows text d (fun n => mergeAll join n s) (Pure.pure (s.mergeAll join)) := by
  obtain ⟨operands, operators⟩ := s
  induction operators generalizing operands with
  | nil =>
    rw [Stacks.mergeAll_nil]
    exact .of_succ (.pure _)
  | cons top operators ih =>
    refine .of_succ ?_
    rw [Stacks.mergeAll_cons]
    refine (Follows.mergeTop h (List.cons_ne_nil _ _)).bind_pure ?_
    obtain ⟨rhs, lhs, rest, rfl⟩ := h.exists_operands
    exact ih _ (h.mergeTop (List.cons_ne_nil _ _))

end Stacks

/-! ## Chains -/

section Chains

variable {B : Builder α ρ}

/-- The stacks are in order when a chain ends, so one operand is left. -/
theorem Follows.finished {s : Stacks ρ} (h : s.InOrder) :
    Follows text d (fun n => do
      let s ← Scanner.mergeAll B.binary n s
      act (fun _ => .finish s.operands.length) id
      match s.operands with
      | value :: _ => return value
      | [] => Scanner.refuse text .emptyExpression) (joined B s []) := by
  obtain ⟨value, hvalue⟩ : ∃ value, s.mergeAll B.binary = ⟨[value], []⟩ := h.mergeAll
  have hmerged : Follows text d (fun n => Scanner.mergeAll B.binary n s)
      (Pure.pure (s.mergeAll B.binary)) := .mergeAll h
  rw [hvalue] at hmerged
  have hjoined : joined B s [] = Pure.pure value := by
    rw [joined, Stacks.run_nil, hvalue]
    rfl
  rw [hjoined]
  refine hmerged.bind_pure fun scan hin _ => ?_
  have hevent : (Event.finish [value].length).Sound text := rfl
  exact .value (hin.reaches_noted hevent) rfl ⟨0, fun _ _ => rfl⟩

variable [Scalar α] {p : Parser ρ} (hp : Follows text d (operand text B) p.outcome)

include hp

/-- A scan of a chain takes in what the reader takes in and joins it on the same stacks. -/
theorem Follows.chain {s : Stacks ρ} (hs : s.InOrder) :
    Follows text d (fun n => chain text B n s) (linked operator? p >>= joined B s) := by
  intro scan hin hd
  -- Each turn takes at least an operand off what is left.
  induction hlen : (scan.unread text).length using Nat.strongRecOn generalizing scan s with
  | ind len ih =>
    subst hlen
    refine .of_succ ?_
    rw [linked_eq, bind_assoc]
    simp only [Scanner.chain]
    refine (Follows.operator scan hin hd).bind fun found mid hreach hread => ?_
    have hmid := hreach.inside hin
    have hmid_depth := hreach.depth_eq.trans hd
    cases found with
    | none => exact Follows.finished hs mid hmid hmid_depth
    | some op =>
      rw [bind_assoc]
      refine (hp mid hmid hmid_depth).bind fun next last hreach' hnext => ?_
      have hlast := hreach'.inside hmid
      have hlast_depth := hreach'.depth_eq.trans hmid_depth
      have hshorter : (last.unread text).length < (scan.unread text).length :=
        Nat.lt_of_lt_of_le (outcome_shorter hnext) hreach.length_unread_le
      rw [linked_joined]
      refine (Follows.makeRoom hs op last hlast hlast_depth).bind_pure
        fun last' hreach'' hunread => ?_
      rw [← hunread] at hshorter ⊢
      exact ih _ hshorter (hs.push (op, next)) _ (hreach''.inside hlast)
        (hreach''.depth_eq.trans hlast_depth) rfl

theorem Follows.expression :
    Follows text d (expression text B) (Parser.expression B p).outcome := by
  rw [outcome_expression]
  refine .of_succ (hp.bind fun first => ?_)
  rw [linked_eq, bind_assoc]
  refine Follows.operator.bind fun found => ?_
  cases found with
  | none =>
    have hjoined : joined B ⟨[first], []⟩ [] = Pure.pure first := by
      rw [joined, Stacks.run_nil, Stacks.mergeAll_nil]
      rfl
    rw [pure_bind, hjoined]
    exact .pure first
  | some op =>
    rw [bind_assoc]
    refine hp.bind fun next => ?_
    have hpushed : (Stacks.push B.binary ⟨[first], []⟩ (op, next)).InOrder :=
      (Stacks.InOrder.single first).push (op, next)
    have hchain := Follows.chain hp hpushed
    rwa [← linked_joined, Stacks.push, Stacks.makeRoom_nil] at hchain

omit hp in
theorem Follows.relations (hp : Follows text d (Scanner.expression text B) p.outcome) :
    Follows text d (relations text B) (linked relation? p) := by
  intro scan hin hd
  induction hlen : (scan.unread text).length using Nat.strongRecOn generalizing scan with
  | ind len ih =>
    subst hlen
    refine .of_succ ?_
    rw [linked_eq]
    refine (Follows.relation scan hin hd).bind fun found mid hreach hread => ?_
    have hmid := hreach.inside hin
    have hmid_depth := hreach.depth_eq.trans hd
    cases found with
    | none => exact arrives_still hmid rfl []
    | some relation =>
      refine (hp mid hmid hmid_depth).bind fun next last hreach' hnext => ?_
      have hshorter : (last.unread text).length < (scan.unread text).length :=
        Nat.lt_of_lt_of_le (outcome_shorter hnext) hreach.length_unread_le
      have hlast := hreach'.inside hmid
      refine (ih _ hshorter last hlast (hreach'.depth_eq.trans hmid_depth) rfl).bind
        fun more last' hreach'' _ => ?_
      exact arrives_still (hreach''.inside hlast) rfl ((relation, next) :: more)

omit hp in
theorem Follows.condition (hp : Follows text d (Scanner.expression text B) p.outcome) :
    Follows text d (condition text B) (comparisons p).outcome := by
  rw [outcome_comparisons, linked_eq]
  refine hp.bind fun first => ?_
  rw [bind_assoc]
  refine Follows.relation.bind fun found => ?_
  cases found with
  | none =>
    rw [pure_bind]
    exact .refuse .notARelation
  | some relation =>
    rw [bind_assoc]
    refine hp.bind fun next => ?_
    rw [bind_assoc]
    refine (Follows.relations hp).bind fun more => ?_
    rw [pure_bind]
    exact .pure (⟨first, (relation, next), more⟩ : Comparisons ρ)

end Chains

/-! ## Operands -/

section Operands

variable {B : Builder α ρ} [Scalar α] {p : Parser ρ}
  (hp : Follows text d (operand text B) p.outcome)

include hp

theorem Follows.moreArguments (k : Nat) :
    Follows text d (fun n => moreArguments text B n k) (listed (Parser.expression B p) k) := by
  induction k with
  | zero =>
    rw [listed_zero]
    exact .of_succ (.pure [])
  | succ k ih =>
    rw [listed_succ]
    exact .of_succ ((Follows.expect ',' .missingComma).bind fun _ =>
      (Follows.expression hp).bind fun arg => ih.bind fun more => .pure (arg :: more))

theorem Follows.call (name : String) :
    Follows text d (fun n => call text B n name)
      (Parser.call B (Parser.expression B p) name).outcome := by
  rw [outcome_call]
  refine .of_succ ?_
  simp only [Scanner.call]
  cases Builtin.ofName? name with
  | none => exact .refuse _
  | some fn =>
    exact (Follows.expression hp).bind fun first =>
      (Follows.moreArguments hp (fn.arity - 1)).bind fun more =>
        (Follows.expect ')' .unclosed).bind fun _ => .pure (B.call fn (first :: more))

theorem Follows.primary :
    Follows text d (primary text B) (Parser.primary B (Parser.expression B p)).outcome := by
  rw [outcome_primary]
  refine .of_succ ((Follows.consume '(').bind fun parenthesis => .ite ?_ ?_)
  · exact (Follows.expression hp).bind fun value =>
      (Follows.expect ')' .unclosed).bind fun _ => .pure value
  · refine (Follows.peek 0).bind fun next => ?_
    cases next with
    | none => exact .numeral
    | some c =>
      refine .ite ?_ .numeral
      refine .of_succ (Follows.name.bind fun name =>
        (Follows.consume '(').bind fun called => .ite ?_ ?_)
      · exact Follows.call hp name
      · cases named? B name with
        | none => exact .refuse _
        | some value => exact .pure value

theorem Follows.power : Follows text d (power text B) (Parser.power B p).outcome := by
  rw [outcome_power]
  exact .of_succ ((Follows.primary hp).bind fun base => (Follows.consume '^').bind fun _ =>
    .ite (hp.bind fun exponent => .pure (B.binary .pow base exponent)) (.pure base))

theorem Follows.signedPower :
    Follows text d (signedPower text B) (Parser.signedPower B p).outcome := by
  rw [outcome_signedPower]
  exact .of_succ ((Follows.consume '-').bind fun negative => (Follows.power hp).bind fun value =>
    .pure (if negative then B.negate value else value))

end Operands

/-! ## The limit on nesting -/

section Nesting

variable {B : Builder α ρ} [Scalar α]

theorem operand_run (n : Nat) (scan : Scan) :
    operand text B (n + 1) scan =
      if maxNesting ≤ scan.depth then some (.error ⟨.nestedTooDeeply, scan.unread text⟩, scan)
      else (signedPower text B n (scan.moved scan.position (scan.depth + 1))).map fun run =>
        (run.1, run.2.moved run.2.position (run.2.depth - 1)) := by
  rw [operand]
  show (if maxNesting ≤ scan.depth then _ else _ : StateT Scan Option (Except SyntaxError ρ))
    scan = _
  split
  · rfl
  · show (signedPower text B n (scan.moved scan.position (scan.depth + 1))).bind _ = _
    cases signedPower text B n (scan.moved scan.position (scan.depth + 1)) <;> rfl

/-- Within the last operand that is allowed none is entered. -/
theorem follows_operand_zero (h : d = maxNesting) :
    Follows text d (operand text B) (Parser.operand B 0).outcome := by
  refine .of_succ fun scan hin hd => ?_
  simp only [operand_run, if_pos (Nat.le_of_eq (h.symm.trans hd.symm))]
  exact .error hin.reaches rfl ⟨0, fun n _ => rfl⟩

/-- The counter is stepped down wherever the operand ends. -/
theorem Arrives.nested {scan : Scan} (hin : scan.Inside text) (hdepth : scan.depth < maxNesting)
    {run : Nat → Option (Except SyntaxError ρ × Scan)} {read : Except SyntaxError (ρ × List Char)}
    (h : Arrives text (scan.moved scan.position (scan.depth + 1)) run read) :
    Arrives text scan (fun n => (run n).map fun run =>
      (run.1, run.2.moved run.2.position (run.2.depth - 1))) read := by
  cases h with
  | value hreach hrest hrun =>
    obtain ⟨bound, hbound⟩ := hrun
    exact .value (hin.reaches_nested hdepth hreach) hrest
      ⟨bound, fun n hn => congrArg (Option.map _) (hbound n hn)⟩
  | error hreach hrest hrun =>
    obtain ⟨bound, hbound⟩ := hrun
    exact .error (hin.reaches_nested hdepth hreach) hrest
      ⟨bound, fun n hn => congrArg (Option.map _) (hbound n hn)⟩

theorem follows_operand_succ {k : Nat} (hdepth : d < maxNesting)
    (h : Follows text (d + 1) (operand text B) (Parser.operand B k).outcome) :
    Follows text d (operand text B) (Parser.operand B (k + 1)).outcome := by
  refine .of_succ fun scan hin hd => ?_
  subst hd
  have hnested : (scan.moved scan.position (scan.depth + 1)).Inside text :=
    ⟨hin.position_le, hdepth⟩
  simp only [operand_run, if_neg (Nat.not_le.mpr hdepth)]
  exact (Follows.signedPower h _ hnested rfl).nested hin hdepth

/-- Where so many operands more may lie within one another, the scanner of operands follows the
reader that allows so many. -/
theorem follows_operand (k : Nat) (h : d + k = maxNesting) :
    Follows text d (operand text B) (Parser.operand B k).outcome := by
  induction k generalizing d with
  | zero => exact follows_operand_zero h
  | succ k ih => exact follows_operand_succ (by omega) (ih (by omega))

end Nesting

end RollingBall.Scanner
