import RollingBall.Condition.Parser
import RollingBall.Proofs.Reading.Passages

/-!
# The reader of conditions accepts relational chains

A text is read as a condition exactly if it is a chain: texts that are formulas by themselves with
relations between them, at least one. The condition is met where all neighbours stand in the
relation between them (`reads_exactly_relational_chains`). No relation is cut short, which is part
of what a chain is (`Chained`).

## Main definitions

* `Relation.text`, `Relation.Longest`: how a relation is written, and that no longer one could be
  read.
* `Chained`: a text is formulas with relations between them.
* `Comparisons.neighbours`: each operand of a chain with the relation and the operand after it.
-/

namespace RollingBall

open Grammar

variable {α ρ : Type}

/-! ## Relations -/

namespace Relation

/-- How the relation is written. -/
def text : Relation → List Char
  | lt => ['<']
  | le => ['<', '=']
  | gt => ['>']
  | ge => ['>', '=']
  | eq => ['=', '=']
  | ne => ['!', '=']

/-- The text begins with no longer relation. -/
def Longest (relation : Relation) (s : List Char) : Prop :=
  ∀ other : Relation, other.text <+: s → other.text.length ≤ relation.text.length

theorem length_text_le (relation : Relation) : relation.text.length ≤ 2 := by
  cases relation <;> decide

/-- Only a relation of one character can be cut short, by an `=` after it. -/
theorem longest_iff {relation : Relation} {s : List Char} :
    relation.Longest (relation.text ++ s) ↔ relation.text.length = 2 ∨ Stops (· == '=') s := by
  constructor
  · intro h
    cases relation with
    | le | ge | eq | ne => exact .inl rfl
    | lt =>
      refine .inr (stops_char_iff.mpr ?_)
      rintro tail rfl
      exact absurd (h .le ⟨tail, rfl⟩) (by decide)
    | gt =>
      refine .inr (stops_char_iff.mpr ?_)
      rintro tail rfl
      exact absurd (h .ge ⟨tail, rfl⟩) (by decide)
  · rintro (hlength | hstops)
    · intro other _
      rw [hlength]
      exact other.length_text_le
    · rintro other ⟨tail, hother⟩
      -- A longer relation has an `=` in second place.
      cases other with
      | lt | gt => cases relation <;> decide
      | le | ge | eq | ne =>
        cases relation with
        | le | ge | eq | ne => exact Nat.le_refl _
        | lt | gt =>
          injection hother with _ hs
          exact absurd hs.symm (stops_char_iff.mp hstops tail)

end Relation

namespace Parser

theorem relation?_eq_some_iff {s : List Char} {relation : Relation} {rest : Rest s} :
    relation? s = some (relation, rest) ↔
      s = relation.text ++ rest.val ∧ relation.Longest s := by
  constructor
  · intro h
    unfold relation? at h
    split at h
    all_goals first | contradiction | obtain ⟨⟩ := h
    all_goals refine ⟨rfl, Relation.longest_iff.mpr ?_⟩
    · exact .inl rfl
    · rename_i hshort
      exact .inr (stops_char_iff.mpr hshort)
    · exact .inl rfl
    · rename_i hshort
      exact .inr (stops_char_iff.mpr hshort)
    · exact .inl rfl
    · exact .inl rfl
  · rintro ⟨hs, hlongest⟩
    obtain ⟨r, hr⟩ := rest
    obtain rfl : s = relation.text ++ r := hs
    rcases Relation.longest_iff.mp hlongest with hlength | hstops
    · cases relation <;> first | rfl | contradiction
    · cases relation with
      | le | ge | eq | ne => rfl
      | lt | gt =>
        cases r with
        | nil => rfl
        | cons c tail =>
          have hc : c ≠ '=' := by simpa using hstops
          simp [relation?, Relation.text, Rest.drop, hc]

theorem comparisons_yields_iff {p : Parser ρ} {s r : List Char} {chain : Comparisons ρ} :
    (comparisons p).Yields s chain r ↔
      ∃ s', p.Yields s chain.first s' ∧
        Leaves (links relation? p s') (chain.link :: chain.links) r := by
  constructor
  · rintro ⟨h, hs⟩
    rw [comparisons] at hs
    split at hs
    · contradiction
    · rename_i first hfirst
      split at hs
      · contradiction
      · contradiction
      · rename_i link more r' hr' hmore
        obtain ⟨⟩ := hs
        exact ⟨first.rest, yields_of_eq_ok hfirst, hr', hmore⟩
  · rintro ⟨s', ⟨h, hfirst⟩, ⟨h', hmore⟩⟩
    refine ⟨by omega, ?_⟩
    simp only [comparisons, hfirst, hmore]

end Parser

/-! ## Chains -/

section Chains

variable [Scalar α]

/-- The text is a formula and then relations with a formula after each. Every formula is one by
itself, and no relation is a part of a longer one. -/
inductive Chained : List Char → Formula α → List (Relation × Formula α) → Prop where
  | last {text : List Char} {formula : Formula α} :
      Formula.parse text = .ok (some formula) → Chained text formula []
  | link {text s : List Char} {formula next : Formula α} {relation : Relation}
      {links : List (Relation × Formula α)} :
      Formula.parse text = .ok (some formula) → relation.Longest (relation.text ++ s) →
      Chained s next links →
      Chained (text ++ (relation.text ++ s)) formula ((relation, next) :: links)

/-- A relation ends every formula and every name. -/
theorem Relation.stops (relation : Relation) (s : List Char) :
    Stops continuesFormula (relation.text ++ s) ∧ Stops extendsName (relation.text ++ s) := by
  cases relation <;> exact ⟨stops_cons.mpr (by decide), stops_cons.mpr (by decide)⟩

/-- What the reader of conditions takes for a chain is one. -/
theorem chained_of_links {s s' : List Char} {formula : Formula α}
    {links : List (Relation × Formula α)}
    (hfirst : (Parser.formula .folding).Yields s formula s')
    (hlinks : Parser.Leaves (Parser.links Parser.relation? (Parser.formula .folding) s') links []) :
    Chained s formula links := by
  induction links generalizing s s' formula with
  | nil =>
    rcases Parser.links_leaves_iff.mp hlinks with ⟨-, -, rfl⟩ | ⟨_, _, _, _, _, -, -, -, hcons⟩
    · exact .last (Parser.whole_eq_some_iff.mpr hfirst)
    · contradiction
  | cons link links ih =>
    rcases Parser.links_leaves_iff.mp hlinks with
      ⟨-, hnil, -⟩ | ⟨relation, rest, next, s'', more, hrelation, hnext, hmore, hcons⟩
    · contradiction
    · obtain ⟨rfl, rfl⟩ := List.cons.inj hcons
      obtain ⟨hs', hlongest⟩ := Parser.relation?_eq_some_iff.mp hrelation
      obtain ⟨text, rfl, hderives⟩ := exists_derives_of_yields hfirst
      rw [hs'] at hlongest ⊢
      exact .link (Formula.parseWith_eq_some_iff.mpr hderives) hlongest (ih hnext hmore)

/-- A chain is read as one. -/
theorem Chained.reads {s : List Char} {formula : Formula α}
    {links : List (Relation × Formula α)} (h : Chained s formula links) :
    ∃ s', (Parser.formula .folding).Yields s formula s' ∧
      Parser.Leaves (Parser.links Parser.relation? (Parser.formula .folding) s') links [] := by
  induction h with
  | last hparse =>
    exact ⟨[], Parser.whole_eq_some_iff.mp hparse,
      Parser.links_leaves_iff.mpr (.inl ⟨rfl, rfl, rfl⟩)⟩
  | @link text s formula next relation links hparse hlongest _ ih =>
    obtain ⟨s', hnext, hlinks⟩ := ih
    have hderives := Formula.parseWith_eq_some_iff.mp hparse
    have hfirst := hderives.yields (relation.stops s).1 (relation.stops s).2
    have hrelation : Parser.relation? (relation.text ++ s) =
        some (relation, ⟨s, (List.suffix_append relation.text s).length_le⟩) :=
      Parser.relation?_eq_some_iff.mpr ⟨rfl, hlongest⟩
    exact ⟨_, hfirst,
      Parser.links_leaves_iff.mpr (.inr ⟨_, _, _, _, _, hrelation, hnext, hlinks, rfl⟩)⟩

theorem Condition.parseWith_eq_some_iff {s : List Char} {chain : Comparisons (Formula α)} :
    parseWith .folding s = .ok (some chain) ↔
      Chained s chain.first (chain.link :: chain.links) := by
  unfold parseWith
  rw [Parser.whole_eq_some_iff, Parser.comparisons_yields_iff]
  constructor
  · rintro ⟨s', hfirst, hlinks⟩
    exact chained_of_links hfirst hlinks
  · exact Chained.reads

theorem Condition.parse_eq_some_iff {s : List Char} {condition : Condition α} :
    parse s = .ok (some condition) ↔
      ∃ chain, Chained s chain.first (chain.link :: chain.links) ∧ condition = ofChain chain := by
  unfold parse
  simp only [← Condition.parseWith_eq_some_iff]
  constructor
  · intro h
    rcases hread : parseWith Builder.folding s with _ | (_ | chain)
    all_goals
      rw [hread] at h
      obtain ⟨⟩ := h
    exact ⟨chain, rfl, rfl⟩
  · rintro ⟨chain, hread, rfl⟩
    rw [hread]
    rfl

end Chains

/-! ## What a chain means -/

/-- Each operand but the last with the relation and the operand after it. -/
def Comparisons.neighbours (chain : Comparisons ρ) : List (ρ × Relation × ρ) :=
  (chain.first :: (chain.link :: chain.links).map Prod.snd).zip (chain.link :: chain.links)

section Meaning

variable [Scalar α]

theorem Condition.eval_extend (ctx : Context α) (condition : Condition α) (last : Formula α)
    (links : List (Relation × Formula α)) :
    (extend condition last links).eval ctx = (condition.eval ctx &&
      ((last :: links.map Prod.snd).zip links).all fun (lhs, relation, rhs) =>
        relation.holds (lhs.eval ctx) (rhs.eval ctx)) := by
  induction links generalizing condition last with
  | nil => exact (Bool.and_true _).symm
  | cons link links ih =>
    obtain ⟨relation, next⟩ := link
    rw [extend, ih, eval, eval, Bool.and_assoc]
    rfl

theorem Condition.eval_ofChain (ctx : Context α) (chain : Comparisons (Formula α)) :
    (ofChain chain).eval ctx = chain.neighbours.all fun (lhs, relation, rhs) =>
      relation.holds (lhs.eval ctx) (rhs.eval ctx) := by
  rw [ofChain, eval_extend, eval]
  rfl

/-- **Relational chains.** A text is read as a condition exactly if it is a chain with a relation at
least, and the condition is met where each two neighbours of the chain stand in the relation between
them. -/
theorem reads_exactly_relational_chains (s : List Char) :
    (∀ condition : Condition α, Condition.parse s = .ok (some condition) ↔
      ∃ chain : Comparisons (Formula α), Chained s chain.first (chain.link :: chain.links) ∧
        condition = Condition.ofChain chain) ∧
    ∀ (chain : Comparisons (Formula α)) (ctx : Context α),
      (Condition.ofChain chain).eval ctx = chain.neighbours.all fun (lhs, relation, rhs) =>
        relation.holds (lhs.eval ctx) (rhs.eval ctx) :=
  ⟨fun _ => Condition.parse_eq_some_iff, fun chain ctx => Condition.eval_ofChain ctx chain⟩

end Meaning

end RollingBall
