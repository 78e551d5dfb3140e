import RollingBall.Proofs.Reading.Comparisons

/-!
# What every node keeps

A reader only puts nodes together, so a grade that constants and variables have and that every node
raises by one at most (`Builder.Grades`) is known of everything that is read. It grows with the
nesting, of which there is a limit, and with the chains, of which there is none: if no chain of the
text has more than `k` links, the grade is at most `heightLimit k`, whatever the text is
(`Formula.graded_of_parse`, `Condition.graded_of_parse`).

## Main definitions

* `Builder.Grades`: a grade of formulas that every node raises by one at most.
* `Grammar.ChainsWithin`: no chain of the text has more links than a number.
* `Condition.operands`: the formulas that a condition compares.
-/

namespace RollingBall

variable {α ρ : Type}

/-- `P w e` says that `e` has grade `w` at most: leaves have the first grade, and a node raises the
grade of its operands by one. A call is a node if it has as many arguments as its function takes. -/
structure Builder.Grades (B : Builder α ρ) (P : Nat → ρ → Prop) : Prop where
  mono {w w' : Nat} {e : ρ} : w ≤ w' → P w e → P w' e
  constant (a : α) : P 1 (B.constant a)
  var (v : Variable) : P 1 (B.var v)
  negate {w : Nat} {e : ρ} : P w e → P (w + 1) (B.negate e)
  binary {w : Nat} (op : BinaryOp) {l r : ρ} : P w l → P w r → P (w + 1) (B.binary op l r)
  call {w : Nat} {fn : Builtin} {args : List ρ} :
    (∀ arg ∈ args, P w arg) → args.length = fn.arity → P (w + 1) (B.call fn args)

/-! ## Chains -/

namespace Chain

variable {B : Builder α ρ} {P : Nat → ρ → Prop} {w : Nat}

/-- Operands joined from the left rise by one with each link. -/
theorem graded_fromLeft (hP : B.Grades P) {j : Nat} {sum : ρ} {links : List (BinaryOp × ρ)}
    (hsum : P (w + j) sum) (hlinks : ∀ link ∈ links, P w link.2) :
    P (w + j + links.length) (fromLeft B.binary ⟨sum, links⟩) := by
  induction links generalizing j sum with
  | nil => exact hsum
  | cons link links ih =>
    have hlink : P (w + j) link.2 := hP.mono (Nat.le_add_right w j) (hlinks link List.mem_cons_self)
    have hjoined : P (w + (j + 1)) (B.binary link.1 sum link.2) := hP.binary link.1 hsum hlink
    have hrest := ih hjoined fun link hl => hlinks link (List.mem_cons_of_mem _ hl)
    rw [List.length_cons]
    exact hP.mono (by omega) hrest

/-- What the products of a chain rise by and the number of its sums are the number of its links
together. -/
theorem exists_graded_terms (hP : B.Grades P) {j : Nat} {term : ρ} {links : List (BinaryOp × ρ)}
    (hterm : P (w + j) term) (hlinks : ∀ link ∈ links, P w link.2) :
    ∃ a, a + (terms B.binary term links).links.length ≤ j + links.length ∧
      P (w + a) (terms B.binary term links).first ∧
      ∀ link ∈ (terms B.binary term links).links, P (w + a) link.2 := by
  induction links generalizing j term with
  | nil => exact ⟨j, Nat.le_refl _, hterm, fun link hl => nomatch hl⟩
  | cons link links ih =>
    obtain ⟨op, operand⟩ := link
    have hoperand : P w operand := hlinks (op, operand) List.mem_cons_self
    have hrest : ∀ link ∈ links, P w link.2 := fun link hl =>
      hlinks link (List.mem_cons_of_mem _ hl)
    rw [terms]
    split
    · have hproduct : P (w + (j + 1)) (B.binary op term operand) :=
        hP.binary op hterm (hP.mono (Nat.le_add_right w j) hoperand)
      obtain ⟨a, hlength, hfirst, hterms⟩ := ih hproduct hrest
      exact ⟨a, by rw [List.length_cons]; omega, hfirst, hterms⟩
    · obtain ⟨a, hlength, hfirst, hterms⟩ := ih (j := 0) hoperand hrest
      have hmore : w + a ≤ w + max j a := by omega
      refine ⟨max j a, by simp only [List.length_cons]; omega, hP.mono (by omega) hterm, ?_⟩
      intro link hl
      rcases List.mem_cons.mp hl with rfl | hl
      · exact hP.mono hmore hfirst
      · exact hP.mono hmore (hterms link hl)

theorem graded_byPrecedence (hP : B.Grades P) {c : Chain ρ} (hfirst : P w c.first)
    (hlinks : ∀ link ∈ c.links, P w link.2) :
    P (w + c.links.length) (c.byPrecedence B.binary) := by
  obtain ⟨a, hlength, hterm, hterms⟩ := exists_graded_terms (j := 0) hP hfirst hlinks
  have hsum := graded_fromLeft (w := w + a) (j := 0) hP hterm hterms
  exact hP.mono (by omega) hsum

end Chain

namespace Grammar

/-! ## Phrases take something off a text -/

section Suffix

variable {s r : List Char}

theorem Passage.suffix {Phrase : List Char → List Char → Prop} (h : Passage Phrase s r) :
    r <:+ s := by
  obtain ⟨text, rfl, -⟩ := h
  exact List.suffix_append text r

variable [Scalar α] {B : Builder α ρ} {n : Nat} {e : ρ} {ls : List (BinaryOp × ρ)}

theorem Operand.shorter (h : Operand B n s e r) : r.length < s.length := by
  obtain ⟨text, rfl, hphrase⟩ := h.passage
  cases text with
  | nil => exact absurd rfl (hphrase [] fun _ => stops_nil _).ne_nil
  | cons c text =>
    rw [List.length_append, List.length_cons]
    omega

/-- Every link has an operand of its own. -/
theorem Links.length_add_le (h : Links B n s ls r) : ls.length + r.length ≤ s.length := by
  induction ls generalizing s with
  | nil =>
    rw [List.length_nil, Nat.zero_add]
    exact h.passage.suffix.length_le
  | cons link ls ih =>
    cases h with
    | sign hsign hnext hlinks =>
      have hshorter := hnext.shorter
      have hrest := ih hlinks
      simp only [List.length_cons]
      omega
    | product hc hnext hlinks =>
      have hshorter := hnext.shorter
      have hrest := ih hlinks
      simp only [List.length_cons] at hshorter ⊢
      omega

end Suffix

/-! ## The grade of a phrase -/

section Graded

variable [Scalar α] {B : Builder α ρ} {k : Nat} {s : List Char}

/-- Wherever in the text an operand and links of a chain stand, there are at most `k` links. -/
structure ChainsWithin (B : Builder α ρ) (k : Nat) (s : List Char) : Prop where
  length_le {n : Nat} {s' s'' r : List Char} {first : ρ} {ls : List (BinaryOp × ρ)} : s' <:+ s →
    Operand B n s' first s'' → Links B n s'' ls r → ls.length ≤ k

theorem ChainsWithin.suffix {s' : List Char} (h : ChainsWithin B k s) (hs : s' <:+ s) :
    ChainsWithin B k s' := ⟨fun hs' => h.length_le (hs'.trans hs)⟩

/-- There are not more links than characters. -/
theorem chainsWithin_length (B : Builder α ρ) (s : List Char) : ChainsWithin B s.length s := by
  refine ⟨fun {n s' s'' r first ls} hs hfirst hls => ?_⟩
  have hlinks := hls.length_add_le
  have hshorter := hfirst.shorter
  have hle := hs.length_le
  omega

/-- The grade of what is read of a text within the limit on nesting, if its chains have at most `k`
links: each operand adds a sign, an exponent, a call and the links of one chain. -/
def heightLimit (k : Nat) : Nat := maxNesting * (k + 3) + k

variable {P : Nat → ρ → Prop}

mutual

theorem Expression.graded (hP : B.Grades P) : ∀ {n : Nat} {s r : List Char} {e : ρ},
    Expression B n s e r → ChainsWithin B k s → P (n * (k + 3) + k) e
  | _, s, _, _, .chain hfirst hlinks, hs => by
    have hlength := hs.length_le List.suffix_rfl hfirst hlinks
    have hrest := hlinks.graded hP (hs.suffix hfirst.passage.suffix)
    have hchain := Chain.graded_byPrecedence hP (c := ⟨_, _⟩) (hfirst.graded hP hs) hrest
    exact hP.mono (Nat.add_le_add_left hlength _) hchain

theorem Links.graded (hP : B.Grades P) : ∀ {n : Nat} {s r : List Char} {ls : List (BinaryOp × ρ)},
    Links B n s ls r → ChainsWithin B k s → ∀ link ∈ ls, P (n * (k + 3)) link.2
  | _, _, _, _, .done, _ => fun _ hl => nomatch hl
  | _, _, _, _, .sign hsign hnext hlinks, hs => by
    have hs' := hs.suffix (List.suffix_cons _ _)
    have hrest := hs'.suffix hnext.passage.suffix
    exact List.forall_mem_cons.mpr ⟨hnext.graded hP hs', hlinks.graded hP hrest⟩
  | _, _, _, _, .product hc hnext hlinks, hs => by
    have hrest := hs.suffix hnext.passage.suffix
    exact List.forall_mem_cons.mpr ⟨hnext.graded hP hs, hlinks.graded hP hrest⟩

theorem Operand.graded (hP : B.Grades P) : ∀ {n : Nat} {s r : List Char} {e : ρ},
    Operand B n s e r → ChainsWithin B k s → P (n * (k + 3)) e
  | n + 1, _, _, _, .positive h, hs => by
    have hpower := h.graded hP hs
    exact hP.mono (by rw [Nat.succ_mul]; omega) hpower
  | n + 1, _, _, _, .negative h, hs => by
    have hpower := h.graded hP (hs.suffix (List.suffix_cons _ _))
    rw [Nat.succ_mul]
    exact hP.negate hpower

theorem Power.graded (hP : B.Grades P) : ∀ {n : Nat} {s r : List Char} {e : ρ},
    Power B n s e r → ChainsWithin B k s → P (n * (k + 3) + k + 2) e
  | _, _, _, _, .base h, hs => hP.mono (Nat.le_succ _) (h.graded hP hs)
  | _, _, _, _, .power hbase hexponent, hs => by
    have hs' := hs.suffix ((List.suffix_cons _ _).trans hbase.passage.suffix)
    have hright := hexponent.graded hP hs'
    exact hP.binary .pow (hbase.graded hP hs) (hP.mono (by omega) hright)

theorem Primary.graded (hP : B.Grades P) : ∀ {n : Nat} {s r : List Char} {e : ρ},
    Primary B n s e r → ChainsWithin B k s → P (n * (k + 3) + k + 1) e
  | _, _, _, _, .parentheses h, hs =>
    hP.mono (Nat.le_succ _) (h.graded hP (hs.suffix (List.suffix_cons _ _)))
  | _, _, _, _, .number h, _ => hP.mono (Nat.le_add_left _ _) (hP.constant _)
  | _, _, _, _, .symbol hname hstops hsymbol, _ => by
    refine hP.mono (Nat.le_add_left 1 _) ?_
    cases hsymbol with
    | x | t => exact hP.var _
    | pi | capitalPi | e | capitalE => exact hP.constant _
  | _, _, _, _, .call hname hfn hargs hlen, hs =>
    hP.call (hargs.graded hP (hs.suffix hname.passage_call.suffix)) hlen

theorem Arguments.graded (hP : B.Grades P) : ∀ {n : Nat} {s r : List Char} {es : List ρ},
    Arguments B n s es r → ChainsWithin B k s → ∀ e ∈ es, P (n * (k + 3) + k) e
  | _, _, _, _, .last h, hs => List.forall_mem_singleton.mpr (h.graded hP hs)
  | _, _, _, _, .more h hargs, hs => by
    have hs' := hs.suffix ((List.suffix_cons _ _).trans h.passage.suffix)
    exact List.forall_mem_cons.mpr ⟨h.graded hP hs, hargs.graded hP hs'⟩

end

end Graded

end Grammar

/-! ## Whole texts -/

/-- The formulas that a condition compares. -/
def Condition.operands : Condition α → List (Formula α)
  | constant _ => []
  | compare _ lhs rhs => [lhs, rhs]
  | both first second => first.operands ++ second.operands

theorem Condition.mem_operands_extend {condition : Condition α} {last : Formula α}
    {links : List (Relation × Formula α)} {f : Formula α}
    (h : f ∈ (extend condition last links).operands) :
    f ∈ condition.operands ∨ f ∈ last :: links.map Prod.snd := by
  induction links generalizing condition last with
  | nil => exact .inl h
  | cons link links ih =>
    obtain ⟨relation, next⟩ := link
    rcases ih h with hjoined | hmore
    · simp only [operands, List.mem_append, List.mem_cons, List.not_mem_nil, or_false] at hjoined
      rcases hjoined with hcondition | rfl | rfl
      · exact .inl hcondition
      · exact .inr List.mem_cons_self
      · exact .inr (List.mem_cons_of_mem _ List.mem_cons_self)
    · exact .inr (List.mem_cons_of_mem _ hmore)

/-- A chain of relations compares its operands and nothing else. -/
theorem Condition.mem_operands_ofChain {chain : Comparisons (Formula α)} {f : Formula α}
    (h : f ∈ (ofChain chain).operands) :
    f ∈ chain.first :: (chain.link :: chain.links).map Prod.snd := by
  rcases mem_operands_extend h with hfirst | hmore
  · simp only [operands, List.mem_cons, List.not_mem_nil, or_false] at hfirst
    rcases hfirst with rfl | rfl
    · exact List.mem_cons_self
    · exact List.mem_cons_of_mem _ List.mem_cons_self
  · exact List.mem_cons_of_mem _ hmore

section Whole

open Grammar

variable [Scalar α] {P : Nat → Formula α → Prop} (hP : Builder.folding.Grades P) {k : Nat}
  {s r : List Char}

include hP

theorem Formula.graded_of_parse {f : Formula α} (hs : ChainsWithin (α := α) .folding k s)
    (h : Formula.parse s = .ok (some f)) : P (heightLimit k) f :=
  (Formula.parseWith_eq_some_iff.mp h).graded hP hs

theorem Parser.graded_of_links {ls : List (Relation × Formula α)}
    (hs : ChainsWithin (α := α) .folding k s)
    (h : Leaves (links relation? (formula .folding) s) ls r) :
    ∀ link ∈ ls, P (heightLimit k) link.2 := by
  induction ls generalizing s with
  | nil => exact fun link hl => nomatch hl
  | cons link ls ih =>
    rcases links_leaves_iff.mp h with
      ⟨-, hnil, -⟩ | ⟨relation, rest, next, s', more, hrelation, hnext, hmore, hcons⟩
    · contradiction
    · obtain ⟨rfl, rfl⟩ := List.cons.inj hcons
      obtain ⟨hrest, -⟩ := relation?_eq_some_iff.mp hrelation
      have hs' := hs.suffix ⟨relation.text, hrest.symm⟩
      have hphrase := expression_sound operand_sound hnext
      intro link hl
      rcases List.mem_cons.mp hl with rfl | hl
      · exact hphrase.graded hP hs'
      · exact ih (hs'.suffix hphrase.passage.suffix) hmore link hl

theorem Condition.graded_of_parse {c : Condition α} (hs : ChainsWithin (α := α) .folding k s)
    (h : Condition.parse s = .ok (some c)) : ∀ f ∈ c.operands, P (heightLimit k) f := by
  obtain ⟨chain, hchained, rfl⟩ := Condition.parse_eq_some_iff.mp h
  obtain ⟨s', hfirst, hlinks⟩ := hchained.reads
  have hphrase := expression_sound operand_sound hfirst
  have hrest := Parser.graded_of_links hP (hs.suffix hphrase.passage.suffix) hlinks
  intro f hf
  rcases List.mem_cons.mp (Condition.mem_operands_ofChain hf) with rfl | hmem
  · exact hphrase.graded hP hs
  · obtain ⟨link, hl, rfl⟩ := List.mem_map.mp hmem
    exact hrest link hl

end Whole

end RollingBall
