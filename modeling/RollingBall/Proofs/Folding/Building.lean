import RollingBall.Condition.Parser
import RollingBall.Proofs.Folding.Meaning

/-!
# Reading with another builder

A reader uses its builder only to put nodes together. So if `h` takes the nodes of one builder to
those of another (`Builder.Maps`), reading with the second is reading with the first followed by
`h`: the same texts are read, the same rest is left and the same errors arise (`operand_map`,
`parseWith_map`). Folding is such an `h` from raw nodes to folding ones (`Builder.maps_fold`).
-/

namespace RollingBall

variable {α ρ σ : Type}

/-- `h` takes the nodes of one builder to the nodes of another. -/
structure Builder.Maps (h : ρ → σ) (B : Builder α ρ) (C : Builder α σ) : Prop where
  constant (a : α) : C.constant a = h (B.constant a)
  var (v : Variable) : C.var v = h (B.var v)
  negate (r : ρ) : C.negate (h r) = h (B.negate r)
  binary (op : BinaryOp) (r s : ρ) : C.binary op (h r) (h s) = h (B.binary op r s)
  call (fn : Builtin) (rs : List ρ) : C.call fn (rs.map h) = h (B.call fn rs)

/-- Folding takes raw nodes to folding nodes. -/
theorem Builder.maps_fold [Scalar α] :
    Builder.Maps Formula.fold (Builder.plain : Builder α (Formula α)) Builder.folding where
  constant a := by simp only [folding, plain, Formula.fold]
  var v := by simp only [folding, plain, Formula.fold]
  negate f := by simp only [folding, plain, Formula.fold]
  binary op f g := by simp only [folding, plain, Formula.fold]
  call fn args := by simp only [folding, plain, Formula.fold, Formula.foldAll_eq_map]

/-! ## Chains -/

section Chain

variable {h : ρ → σ} {join : BinaryOp → ρ → ρ → ρ} {join' : BinaryOp → σ → σ → σ}
  (hjoin : ∀ op r s, join' op (h r) (h s) = h (join op r s))

/-- The stacks with every operand replaced. -/
def Stacks.map (h : ρ → σ) (s : Stacks ρ) : Stacks σ := ⟨s.operands.map h, s.operators⟩

/-- The chain with every operand replaced. -/
def Chain.map (h : ρ → σ) (c : Chain ρ) : Chain σ := ⟨h c.first, c.links.map (Prod.map id h)⟩

include hjoin

theorem Stacks.mergeTop_map (s : Stacks ρ) :
    (s.map h).mergeTop join' = (s.mergeTop join).map h := by
  obtain ⟨operands, operators⟩ := s
  match operators, operands with
  | [], _ => rfl
  | _ :: _, [] => rfl
  | _ :: _, [_] => rfl
  | op :: _, r :: s :: _ =>
    simp only [mergeTop, map, List.map_cons, hjoin]

theorem Stacks.makeRoom_map (op : BinaryOp) (operators : List BinaryOp) (operands : List ρ) :
    (map h ⟨operands, operators⟩).makeRoom join' op =
      (makeRoom join op ⟨operands, operators⟩).map h := by
  induction operators generalizing operands with
  | nil => rw [map, makeRoom_nil, makeRoom_nil, map]
  | cons top operators ih =>
    have hmerge := mergeTop_map hjoin ⟨operands, top :: operators⟩
    have htail := operators_mergeTop join ⟨operands, top :: operators⟩
    rw [makeRoom_cons, map, makeRoom_cons]
    by_cases hop : op.precedence ≤ top.precedence
    · rw [if_pos hop, if_pos hop]
      generalize mergeTop join ⟨operands, top :: operators⟩ = merged at hmerge htail ⊢
      obtain ⟨operands', operators'⟩ := merged
      obtain rfl : operators' = operators := htail
      exact (congrArg (makeRoom join' op) hmerge).trans (ih operands')
    · rw [if_neg hop, if_neg hop, map]

theorem Stacks.push_map (s : Stacks ρ) (link : BinaryOp × ρ) :
    (s.map h).push join' (Prod.map id h link) = (s.push join link).map h := by
  show (Stacks.mk (h link.2 :: ((s.map h).makeRoom join' link.1).operands)
    (link.1 :: ((s.map h).makeRoom join' link.1).operators)) = _
  rw [makeRoom_map hjoin link.1 s.operators s.operands]
  rfl

theorem Stacks.mergeAll_map (operators : List BinaryOp) (operands : List ρ) :
    (map h ⟨operands, operators⟩).mergeAll join' =
      (mergeAll join ⟨operands, operators⟩).map h := by
  induction operators generalizing operands with
  | nil => rw [map, mergeAll_nil, mergeAll_nil, map]
  | cons top operators ih =>
    have hmerge := mergeTop_map hjoin ⟨operands, top :: operators⟩
    have htail := operators_mergeTop join ⟨operands, top :: operators⟩
    rw [mergeAll_cons, map, mergeAll_cons]
    generalize mergeTop join ⟨operands, top :: operators⟩ = merged at hmerge htail ⊢
    obtain ⟨operands', operators'⟩ := merged
    obtain rfl : operators' = operators := htail
    exact (congrArg (mergeAll join') hmerge).trans (ih operands')

theorem Stacks.foldl_push_map (links : List (BinaryOp × ρ)) (s : Stacks ρ) :
    (links.map (Prod.map id h)).foldl (push join') (s.map h) =
      (links.foldl (push join) s).map h := by
  induction links generalizing s with
  | nil => rfl
  | cons link links ih =>
    rw [List.map_cons, List.foldl_cons, List.foldl_cons, push_map hjoin, ih]

theorem Chain.join?_map (c : Chain ρ) :
    (c.map h).join? join' = (c.join? join).map h := by
  have hpush := Stacks.foldl_push_map hjoin c.links ⟨[c.first], []⟩
  have hmerge := Stacks.mergeAll_map hjoin
    (c.links.foldl (Stacks.push join) ⟨[c.first], []⟩).operators
    (c.links.foldl (Stacks.push join) ⟨[c.first], []⟩).operands
  unfold join?
  rw [← List.head?_map]
  exact congrArg (fun s : Stacks σ => s.operands.head?)
    ((congrArg (Stacks.mergeAll join') hpush).trans hmerge)

end Chain

/-! ## Readers -/

/-- What was read, its value replaced. -/
def Parsed.map {s : List Char} (h : ρ → σ) (p : Parsed ρ s) : Parsed σ s :=
  ⟨h p.value, p.rest, p.shorter⟩

namespace Parser

/-- The reader with every value replaced. -/
def map (h : ρ → σ) (p : Parser ρ) : Parser σ := fun s => (p s).map (Parsed.map h)

theorem map_apply (h : ρ → σ) (p : Parser ρ) (s : List Char) :
    p.map h s = (p s).map (Parsed.map h) := rfl

theorem links_map {τ : Type} (h : ρ → σ) (separator? : (s : List Char) → Option (τ × Rest s))
    (item : Parser ρ) (s : List Char) :
    links separator? (item.map h) s =
      (links separator? item s).map fun p => (p.1.map (Prod.map id h), p.2) := by
  -- As `links` recurses on what is left of the text, so does the proof.
  induction hn : s.length using Nat.strongRecOn generalizing s with
  | ind n ih =>
    subst hn
    rw [links, links]
    cases separator? s with
    | none => rfl
    | some found =>
      obtain ⟨x, s', hs'⟩ := found
      simp only [map_apply]
      cases item s' with
      | error e => rfl
      | ok next =>
        have hlt : next.rest.length < s.length := Nat.lt_of_lt_of_le next.shorter hs'
        simp only [Except.map, Parsed.map, ih _ hlt next.rest rfl]
        cases links separator? item next.rest with
        | error e => rfl
        | ok more => rfl

theorem chain_map (h : ρ → σ) (operand : Parser ρ) :
    chain (operand.map h) = (chain operand).map (Chain.map h) := by
  funext s
  rw [map_apply]
  unfold chain
  rw [map_apply]
  cases operand s with
  | error e => rfl
  | ok first =>
    simp only [Except.map, Parsed.map, links_map]
    cases links operator? operand first.rest with
    | error e => rfl
    | ok more => rfl

theorem moreArguments_map (h : ρ → σ) (expression : Parser ρ) (n : Nat) (s : List Char) :
    moreArguments (expression.map h) n s =
      (moreArguments expression n s).map fun p => (p.1.map h, p.2) := by
  induction n generalizing s with
  | zero => rfl
  | succ n ih =>
    rw [moreArguments, moreArguments]
    cases expect ',' .missingComma s with
    | error e => rfl
    | ok found =>
      obtain ⟨afterComma, hcomma⟩ := found
      simp only [map_apply]
      cases expression afterComma with
      | error e => rfl
      | ok arg =>
        simp only [Except.map, Parsed.map, ih]
        cases moreArguments expression n arg.rest with
        | error e => rfl
        | ok more => rfl

section Builder

variable {h : ρ → σ} {B : Builder α ρ} {C : Builder α σ} (hBC : Builder.Maps h B C)

include hBC

theorem expression_map (operand : Parser ρ) :
    expression C (operand.map h) = (expression B operand).map h := by
  funext s
  rw [map_apply]
  unfold expression
  rw [chain_map, map_apply]
  cases chain operand s with
  | error e => rfl
  | ok parsed =>
    simp only [Except.map, Parsed.map, Chain.join?_map hBC.binary]
    cases parsed.value.join? B.binary with
    | none => rfl
    | some value => rfl

theorem call_map (expression : Parser ρ) (name : String) :
    call C (expression.map h) name = (call B expression name).map h := by
  funext s
  rw [map_apply]
  unfold call
  cases Builtin.ofName? name with
  | none => rfl
  | some fn =>
    simp only [map_apply]
    cases expression s with
    | error e => rfl
    | ok first =>
      simp only [Except.map, Parsed.map, moreArguments_map]
      cases moreArguments expression (fn.arity - 1) first.rest with
      | error e => rfl
      | ok more =>
        obtain ⟨args, afterArgs, hargs⟩ := more
        dsimp only
        cases expect ')' .unclosed afterArgs with
        | error e => rfl
        | ok found => simp only [← hBC.call, List.map_cons]

variable [Scalar α]

theorem numeral_map : numeral C = (numeral B).map h := by
  funext s
  rw [map_apply]
  unfold numeral
  split
  · cases Numeral.read? (α := α) (Numeral.scan s).1 with
    | none => rfl
    | some value => simp only [Except.map, Parsed.map, hBC.constant]
  · split <;> rfl

theorem named?_map (name : String) : named? C name = (named? B name).map h := by
  unfold named?
  split <;> simp only [Option.map, hBC.var, hBC.constant]

theorem nameOrCall_map (expression : Parser ρ) (c : Char) (tail : List Char) :
    nameOrCall C (expression.map h) c tail =
      (nameOrCall B expression c tail).map (Parsed.map h) := by
  unfold nameOrCall
  simp only [call_map hBC, named?_map hBC]
  split
  · rename_i inside _
    rw [map_apply]
    cases call B expression _ inside with
    | error e => rfl
    | ok parsed => rfl
  · cases named? B _ with
    | none => rfl
    | some value => rfl

theorem primary_map (expression : Parser ρ) :
    primary C (expression.map h) = (primary B expression).map h := by
  funext s
  rw [map_apply]
  cases s with
  | nil => exact congrFun (numeral_map hBC) []
  | cons c tail =>
    unfold primary
    simp only [map_apply]
    by_cases hopen : c = '('
    · rw [if_pos hopen, if_pos hopen]
      cases expression tail with
      | error e => rfl
      | ok inner =>
        simp only [Except.map, Parsed.map]
        cases expect ')' .unclosed inner.rest with
        | error e => rfl
        | ok found => rfl
    · rw [if_neg hopen, if_neg hopen]
      by_cases hletter : Text.isLetter c
      · rw [if_pos hletter, if_pos hletter, nameOrCall_map hBC]
      · rw [if_neg hletter, if_neg hletter]
        exact congrFun (numeral_map hBC) (c :: tail)

theorem power_map (operand : Parser ρ) :
    power C (operand.map h) = (power B operand).map h := by
  funext s
  rw [map_apply]
  unfold power
  rw [expression_map hBC, primary_map hBC, map_apply]
  cases primary B (expression B operand) s with
  | error e => rfl
  | ok base =>
    simp only [Except.map, Parsed.map]
    split
    · rename_i afterCaret _
      rw [map_apply]
      cases operand afterCaret with
      | error e => rfl
      | ok exponent => simp only [Except.map, Parsed.map, hBC.binary]
    · rfl

theorem signedPower_map (operand : Parser ρ) :
    signedPower C (operand.map h) = (signedPower B operand).map h := by
  funext s
  rw [map_apply]
  cases s with
  | nil => exact congrFun (power_map hBC operand) []
  | cons c tail =>
    unfold signedPower
    simp only [power_map hBC, map_apply]
    by_cases hminus : c = '-'
    · rw [if_pos hminus, if_pos hminus]
      cases power B operand tail with
      | error e => rfl
      | ok parsed => simp only [Except.map, Parsed.map, hBC.negate]
    · rw [if_neg hminus, if_neg hminus]

theorem operand_map (n : Nat) : operand C n = (operand B n).map h := by
  induction n with
  | zero => rfl
  | succ n ih => rw [operand, operand, ih, signedPower_map hBC]

theorem formula_map : formula C = (formula B).map h := by
  rw [formula, formula, operand_map hBC, expression_map hBC]

end Builder

theorem whole_map (h : ρ → σ) (p : Parser ρ) (s : List Char) :
    whole (p.map h) s = (whole p s).map (Option.map h) := by
  unfold whole
  by_cases hs : s.isEmpty
  · rw [if_pos hs, if_pos hs]; rfl
  · rw [if_neg hs, if_neg hs, map_apply]
    cases p s with
    | error e => rfl
    | ok parsed =>
      simp only [Except.map, Parsed.map]
      split <;> rfl

end Parser

/-! ## Conditions -/

/-- The comparisons with every operand replaced. -/
def Comparisons.map (h : ρ → σ) (c : Comparisons ρ) : Comparisons σ :=
  ⟨h c.first, Prod.map id h c.link, c.links.map (Prod.map id h)⟩

theorem Condition.fold_ofChain [Scalar α] (c : Comparisons (Formula α)) :
    (ofChain c).fold = ofChain (c.map Formula.fold) := fold_extend _ _ _

theorem Parser.comparisons_map (h : ρ → σ) (item : Parser ρ) :
    comparisons (item.map h) = (comparisons item).map (Comparisons.map h) := by
  funext s
  rw [map_apply]
  unfold comparisons
  rw [map_apply]
  cases item s with
  | error e => rfl
  | ok first =>
    simp only [Except.map, Parsed.map, links_map]
    cases links relation? item first.rest with
    | error e => rfl
    | ok found =>
      obtain ⟨found, rest, hrest⟩ := found
      cases found with
      | nil => rfl
      | cons link more => rfl

/-! ## Whole texts -/

section Whole

variable [Scalar α] {h : ρ → σ} {B : Builder α ρ} {C : Builder α σ} (hBC : Builder.Maps h B C)

include hBC

theorem Formula.parseWith_map (s : List Char) :
    parseWith C s = (parseWith B s).map (Option.map h) := by
  rw [parseWith, parseWith, Parser.formula_map hBC, Parser.whole_map]

theorem Condition.parseWith_map (s : List Char) :
    parseWith C s = (parseWith B s).map (Option.map (Comparisons.map h)) := by
  rw [parseWith, parseWith, Parser.formula_map hBC, Parser.comparisons_map, Parser.whole_map]

end Whole

section Folded

/-- A change of what was read that a measure does not see. -/
theorem map_map_read {ε τ υ : Type} {g : τ → τ} {k : τ → υ} (hk : ∀ x, k (g x) = k x)
    (r : Except ε (Option τ)) :
    (r.map (Option.map g)).map (Option.map k) = r.map (Option.map k) := by
  match r with
  | .error e => rfl
  | .ok none => rfl
  | .ok (some x) => exact congrArg (fun y => Except.ok (some y)) (hk x)

variable [Scalar α]

/-- The folding reader reads what the raw one reads, folded. -/
theorem Formula.parse_eq_fold (s : List Char) :
    (parse s : Except SyntaxError (Option (Formula α))) =
      (parseWith .plain s).map (Option.map fold) :=
  parseWith_map Builder.maps_fold s

/-- The folding reader of conditions reads what the raw one reads, folded. -/
theorem Condition.parse_eq_fold (s : List Char) :
    (parse s : Except SyntaxError (Option (Condition α))) =
      ((parseWith .plain s).map (Option.map ofChain)).map (Option.map fold) := by
  rw [parse, parseWith_map Builder.maps_fold]
  cases parseWith (.plain : Builder α (Formula α)) s with
  | error e => rfl
  | ok found =>
    cases found with
    | none => rfl
    | some c => exact congrArg (fun c => Except.ok (some c)) (fold_ofChain c).symm

/-- **Folding never changes the meaning.** A formula rebuilt with folding nodes has the same value
in every context and the same constant. The folding reader accepts the texts that the raw one
accepts and refuses the others alike, and what the two read has the same value in every context;
so it is with conditions. -/
theorem folding_keeps_meaning :
    (∀ (f : Formula α) (ctx : Context α), f.fold.eval ctx = f.eval ctx) ∧
    (∀ f : Formula α, f.fold.constant? = f.constant?) ∧
    (∀ s : List Char, (Formula.parse s : Except SyntaxError (Option (Formula α))) =
      (Formula.parseWith .plain s).map (Option.map Formula.fold)) ∧
    (∀ (s : List Char) (ctx : Context α),
      (Formula.parse s).map (Option.map (Formula.eval ctx)) =
        (Formula.parseWith .plain s).map (Option.map (Formula.eval ctx))) ∧
    (∀ (s : List Char) (ctx : Context α),
      (Condition.parse s).map (Option.map (Condition.eval ctx)) =
        ((Condition.parseWith .plain s).map (Option.map Condition.ofChain)).map
          (Option.map (Condition.eval ctx))) := by
  refine ⟨fun f ctx => f.eval_fold ctx, Formula.constant?_fold, Formula.parse_eq_fold, ?_, ?_⟩
  · intro s ctx
    rw [Formula.parse_eq_fold, map_map_read (Formula.eval_fold ctx)]
  · intro s ctx
    rw [Condition.parse_eq_fold, map_map_read (Condition.eval_fold ctx)]

end Folded

end RollingBall
